import Readback.Proofs.Grammar.Derives
/-!
# What is in the grammar is read

A rule that stands in front of a phrase of its sort reads that phrase, with an allowance of steps for each character that
is left.  It is shown for each way to make a phrase that, when the parts of it are read, so is the whole
(`Derives.complete`).
-/
namespace Readback.Grammar

open Reading
open Token (Kind)

/-- What is constructed, with its members. -/
def constructed (n : Nat) : Reading Expr := newTarget (rules n) >>= fun target => rules n (.memberRest target)

/-- **The phrase is read** by the rule for its sort.  The rule for a phrase that may go on gets to where the rest of it
is read. -/
def Complete (b : Bool) : (p : Phrase) → Lexer → p.Result → Lexer → Prop
  | .statement, l, a, l'          => ∀ n, l.left ≤ n → statement (rules n) (l.state b) = .done a (l'.state b)
  | .ending, l, a, l'             => endStatement (l.state b) = .done a (l'.state b)
  | .block, l, a, l'              => ∀ n, l.left ≤ n → block (rules n) (l.state b) = .done a (l'.state b)
  | .blockRest, l, a, l'          => ∀ n, l.left ≤ n → blockRest (rules n) (l.state b) = .done a (l'.state b)
  | .declarators kind, l, a, l'   => ∀ n, l.left ≤ n → declarators (rules n) kind (l.state b) = .done a (l'.state b)
  | .initializer kind, l, a, l'   => ∀ n, l.left ≤ n → initializer (rules n) kind (l.state b) = .done a (l'.state b)
  | .alternative, l, a, l'        => ∀ n, l.left ≤ n → alternative (rules n) (l.state b) = .done a (l'.state b)
  | .condition, l, a, l'          => ∀ n, l.left ≤ n → condition (rules n) (l.state b) = .done a (l'.state b)
  | .whileEnd, l, _, l'           => ∃ c, accept .semicolon (l.state b) = .done c (l'.state b)
  | .forInit, l, a, l'            => ∀ n, l.left < n → forInit (rules n) (l.state b) = .done a (l'.state b)
  | .expressionUnless k, l, a, l' => ∀ n, l.left < n → expressionUnless (rules n) k (l.state b) = .done a (l'.state b)
  | .returned, l, a, l'           => ∀ n, l.left < n → returned (rules n) (l.state b) = .done a (l'.state b)
  | .jumpLabel, l, a, l'          => jumpLabel (l.state b) = .done a (l'.state b)
  | .functionName, l, a, l'       => functionName (l.state b) = .done a (l'.state b)
  | .parameters, l, a, l'         => ∀ n, l.left < n → parameters (rules n) (l.state b) = .done a (l'.state b)
  | .params, l, a, l'             => ∀ n, l.left ≤ n → params (rules n) (l.state b) = .done a (l'.state b)
  | .signature, l, a, l'          => ∀ n, l.left ≤ n → signatureAndBody (rules n) (l.state b) = .done a (l'.state b)
  | .expression, l, a, l'         => ∀ n, l.left ≤ n → expression (rules n) (l.state b) = .done a (l'.state b)
  | .itemsRest, l, a, l'          => ∀ n, l.left ≤ n → itemsRest (rules n) (l.state b) = .done a (l'.state b)
  | .assignment, l, a, l'         => ∀ n, l.left ≤ n → assignment (rules n) (l.state b) = .done a (l'.state b)
  | .conditional, l, a, l'        => ∀ n, l.left ≤ n → conditional (rules n) (l.state b) = .done a (l'.state b)
  | .binary least, l, a, l'       => ∀ n, l.left ≤ n → binary (rules n) least (l.state b) = .done a (l'.state b)
  | .operators least, l, a, l'    => ∀ n, l.left ≤ n →
      ∃ m, l'.left ≤ m ∧ binary (rules n) least (l.state b) = binaryRest (rules m) least a (l'.state b)
  | .unary, l, a, l'              => ∀ n, l.left ≤ n → unary (rules n) (l.state b) = .done a (l'.state b)
  | .update, l, a, l'             => ∀ n, l.left ≤ n → update (rules n) (l.state b) = .done a (l'.state b)
  | .member true, l, a, l'        => ∀ n, l.left ≤ n → call (rules n) (l.state b) = .done a (l'.state b)
  | .member false, l, a, l'       => ∀ n, l.left < n → constructed n (l.state b) = .done a (l'.state b)
  | .chain true, l, a, l'         => ∀ n, l.left ≤ n →
      ∃ m, l'.left ≤ m ∧ call (rules n) (l.state b) = callRest (rules m) a (l'.state b)
  | .chain false, l, a, l'        => ∀ n, l.left < n →
      ∃ m, l'.left ≤ m ∧ constructed n (l.state b) = memberRest (rules m) a (l'.state b)
  | .construct, l, a, l'          => ∀ n, l.left ≤ n → construct (rules n) (l.state b) = .done a (l'.state b)
  | .newArguments, l, a, l'       => ∀ n, l.left ≤ n → newArguments (rules n) (l.state b) = .done a (l'.state b)
  | .primary, l, a, l'            => ∀ n, l.left ≤ n → primary (rules n) (l.state b) = .done a (l'.state b)
  | .argumentsRest, l, a, l'      => ∀ n, l.left ≤ n → argumentsRest (rules n) (l.state b) = .done a (l'.state b)
  | .elementsRest, l, a, l'       => ∀ n, l.left ≤ n → elementsRest (rules n) (l.state b) = .done a (l'.state b)
  | .propertiesRest, l, a, l'     => ∀ n, l.left ≤ n → propertiesRest (rules n) (l.state b) = .done a (l'.state b)
  | .property, l, a, l'           => ∀ n, l.left ≤ n → property (rules n) (l.state b) = .done a (l'.state b)
  | .propertyKey, l, a, l'        => ∀ n, l.left ≤ n → propertyKey (rules n) l.hand (l.state b) = .done a (l'.state b)

/-- A phrase that is read. -/
structure Reads (b : Bool) (p : Phrase) (l : Lexer) (a : p.Result) (l' : Lexer) : Prop where
  derives  : Derives b p l a l'
  complete : Complete b p l a l'

theorem Reads.left_le {b : Bool} {p : Phrase} {l : Lexer} {a : p.Result} {l' : Lexer} (h : Reads b p l a l') :
    l'.left + p.least ≤ l.left := h.derives.left_add_least_le

/-- A rule that is referred to has a step less. -/
theorem rules_of_rule {b : Bool} {r : Rule} {l : Lexer} {a : r.Result} {s' : State} {n : Nat}
    (h : ∀ n, l.left ≤ n → rule (rules n) r (l.state b) = .done a s') (hn : l.left < n) :
    rules n r (l.state b) = .done a s' := by
  obtain ⟨n, rfl⟩ : ∃ m, n = m + 1 := ⟨n - 1, by omega⟩
  exact h n (by omega)

section

variable {b : Bool} {l l₁ l₂ l₃ l₄ l' : Lexer} {e e' : Expr} {n : Nat}

/-! ## Functions -/

theorem block_complete {body : List Stmt} (h₁ : l.Takes .lBrace l₁) (h₂ : Reads b .blockRest l₁ body l') :
    Complete b .block l body l' := by
  intro n hn
  have e₂ : rules n .blockRest (l₁.state b) = _ := rules_of_rule h₂.complete (by grind)
  unfold block
  rw [bind_of_done (expect_of_takes h₁), e₂]

theorem lastParam_complete (h : l.Takes .identifier l') (hn : l'.hand.kind ≠ .comma) :
    Complete b .params l [l.hand.text] l' := by
  intro n _
  unfold params
  rw [bind_of_done (expect_of_takes h), bind_of_done (accept_of_ne hn)]
  rfl

theorem param_complete {names : List String} (h₁ : l.Takes .identifier l₁) (h₂ : l₁.Takes .comma l₂)
    (h₃ : Reads b .params l₂ names l') : Complete b .params l (l.hand.text :: names) l' := by
  intro n hn
  have e₃ : rules n .params (l₂.state b) = _ := rules_of_rule h₃.complete (by grind)
  unfold params
  rw [bind_of_done (expect_of_takes h₁), bind_of_done (accept_of_takes h₂), if_pos rfl, bind_of_done e₃]
  rfl

theorem noParams_complete (hk : l.hand.kind = .rParen) : Complete b .parameters l [] l := by
  intro n _
  unfold parameters
  rw [at_bind, hk, beq_self_eq_true, if_pos rfl]
  rfl

theorem someParams_complete {names : List String} (hk : l.hand.kind ≠ .rParen) (h : Reads b .params l names l') :
    Complete b .parameters l names l' := by
  intro n hn
  have e : rules n .params (l.state b) = _ := rules_of_rule h.complete hn
  unfold parameters
  rw [at_bind, if_neg (by simpa using hk), e]

theorem signature_complete {names : List String} {body : List Stmt} (h₁ : l.Takes .lParen l₁)
    (h₂ : Reads b .parameters l₁ names l₂) (h₃ : l₂.Takes .rParen l₃) (h₄ : Reads true .block l₃ body l') :
    Complete b .signature l (names, body) l' := by
  intro n hn
  have := h₂.left_le
  unfold signatureAndBody
  rw [bind_of_done (expect_of_takes h₁), bind_of_done (h₂.complete n (by grind)), bind_of_done (expect_of_takes h₃),
    bind_of_done (withinFunction_of_done (h₄.complete n (by grind)))]
  rfl

/-! ## Primary expressions -/

theorem number_complete {x : Number} (h : l.Takes .number l') (hx : Number.Literal.read? l.hand.text.toList = some x) :
    Complete b .primary l (.literal (l.upTo l') (.number x)) l' := by
  intro n _
  unfold primary number
  rw [token_bind, h.kind]
  simp only [bind_of_done (advance_of_steps h.toSteps), hx, finish_apply]
  rfl

theorem text_complete (h : l.Takes .string l') :
    Complete b .primary l (.literal (l.upTo l') (.text l.hand.text)) l' := by
  intro n _
  unfold primary literal
  rw [token_bind, h.kind]
  simp only [bind_of_done (advance_of_steps h.toSteps), finish_apply]
  rfl

theorem literal_complete {v : Literal} (h : l.Steps l') :
    literal l.hand.span.start v (l.state b) = .done (.literal (l.upTo l') v) (l'.state b) := by
  unfold literal
  rw [bind_of_done (advance_of_steps h), finish_apply]
  rfl

theorem word_complete {v : Literal} (h : l.Steps l') (hk : wordLiteral? l.hand.kind = some v) :
    Complete b .primary l (.literal (l.upTo l') v) l' := by
  intro n _
  unfold wordLiteral? at hk
  unfold primary
  split at hk <;> cases hk <;> simp only [token_bind, literal_complete h, *]

theorem regex_complete (h : l.Takes .regex l') :
    Complete b .primary l
      (.regex (l.upTo l') (splitRegex l.hand.text.toList).1 (splitRegex l.hand.text.toList).2) l' := by
  intro n _
  unfold primary regexLiteral
  rw [token_bind, h.kind]
  simp only [bind_of_done (advance_of_steps h.toSteps), finish_apply]
  rfl

theorem slash_complete {u : Token} (h : l.Rereads u l') :
    Complete b .primary l (.regex (l.upTo l') (splitRegex u.text.toList).1 (splitRegex u.text.toList).2) l' := by
  intro n _
  have hr : (do rereadRegex; regexLiteral l.hand.span.start) (l.state b) =
      .done (.regex (l.upTo l') (splitRegex u.text.toList).1 (splitRegex u.text.toList).2) (l'.state b) :=
    (reread_of_rereads (f := fun _ => regexLiteral l.hand.span.start) h rfl).trans rfl
  unfold primary
  rcases h.slash with hk | ⟨hk, ht⟩
  · rw [token_bind, hk]
    exact hr
  · rw [token_bind, hk]
    simp only [ht, and_self, if_true, hr]

theorem identifier_complete (h : l.Takes .identifier l') :
    Complete b .primary l (.identifier (l.upTo l') l.hand.text) l' := by
  intro n _
  unfold primary
  rw [token_bind, h.kind]
  simp only [bind_of_done (advance_of_steps h.toSteps), finish_apply]
  rfl

theorem this_complete (h : l.Takes (.keyword .this) l') : Complete b .primary l (.this (l.upTo l')) l' := by
  intro n _
  unfold primary
  rw [token_bind, h.kind]
  simp only [bind_of_done (advance_of_steps h.toSteps), finish_apply]
  rfl

theorem named_complete (h : l.Takes .identifier l') : Complete b .functionName l (some l.hand.text) l' := by
  show functionName _ = _
  unfold functionName
  rw [at_bind, h.kind, beq_self_eq_true, if_pos rfl, bind_of_done (advance_of_steps h.toSteps)]
  rfl

theorem nameless_complete (h : l.hand.kind ≠ .identifier) : Complete b .functionName l none l := by
  show functionName _ = _
  unfold functionName
  rw [at_bind, if_neg (by simpa using h)]
  rfl

theorem function_complete {name : Option String} {f : List String × List Stmt} (h₁ : l.Takes (.keyword .function) l₁)
    (h₂ : Reads b .functionName l₁ name l₂) (h₃ : Reads b .signature l₂ f l') :
    Complete b .primary l (.function (l.upTo l') name f.1 f.2) l' := by
  intro n hn
  have := h₂.left_le
  have e₂ : functionName _ = _ := h₂.complete
  unfold primary functionLiteral
  rw [token_bind, h₁.kind]
  simp only [bind_of_done (advance_of_steps h₁.toSteps), bind_of_done e₂,
    bind_of_done (h₃.complete n (by grind)), finish_apply]
  rfl

theorem group_complete (h₁ : l.Takes .lParen l₁) (h₂ : Reads b .expression l₁ e l₂) (h₃ : l₂.Takes .rParen l') :
    Complete b .primary l (.group (l.upTo l') e) l' := by
  intro n hn
  have e₂ : rules n .expression (l₁.state b) = _ := rules_of_rule h₂.complete (by grind)
  unfold primary group
  rw [token_bind, h₁.kind]
  simp only [bind_of_done (advance_of_steps h₁.toSteps), bind_of_done e₂,
    bind_of_done (expect_of_takes h₃), finish_apply]
  rfl

theorem array_complete {items : List (Option Expr)} (h₁ : l.Takes .lBracket l₁)
    (h₂ : Reads b .elementsRest l₁ items l') : Complete b .primary l (.array (l.upTo l') items) l' := by
  intro n hn
  have e₂ : rules n .elementsRest (l₁.state b) = _ := rules_of_rule h₂.complete (by grind)
  unfold primary
  rw [token_bind, h₁.kind]
  simp only [bind_of_done (advance_of_steps h₁.toSteps), bind_of_done e₂, finish_apply]
  rfl

theorem object_complete {items : List Property} (h₁ : l.Takes .lBrace l₁)
    (h₂ : Reads b .propertiesRest l₁ items l') : Complete b .primary l (.object (l.upTo l') items) l' := by
  intro n hn
  have e₂ : rules n .propertiesRest (l₁.state b) = _ := rules_of_rule h₂.complete (by grind)
  unfold primary
  rw [token_bind, h₁.kind]
  simp only [bind_of_done (advance_of_steps h₁.toSteps), bind_of_done e₂, finish_apply]
  rfl

/-! ## Members, calls and `new` -/

/-- The phrase that a chain begins with, read by either rule that reads chains. -/
theorem chain_complete {calls : Bool} (hr : l'.left < l.left)
    (hc : ∀ n, l.left ≤ n → operand (rules n) (l.state b) = .done e (l'.state b))
    (hn : ∀ n, l.left < n → newTarget (rules n) (l.state b) = .done e (l'.state b)) :
    Complete b (.chain calls) l e l' := by
  cases calls with
  | true =>
    intro n hn
    obtain ⟨n, rfl⟩ : ∃ m, n = m + 1 := ⟨n - 1, by omega⟩
    refine ⟨n, by omega, ?_⟩
    unfold call
    rw [bind_of_done (hc _ hn)]
    rfl
  | false =>
    intro n hn'
    obtain ⟨n, rfl⟩ : ∃ m, n = m + 1 := ⟨n - 1, by omega⟩
    refine ⟨n, by omega, ?_⟩
    unfold constructed
    rw [bind_of_done (hn _ hn')]
    rfl

theorem primaryChain_complete {calls : Bool} (hk : l.hand.kind ≠ .keyword .new) (h : Reads b .primary l e l') :
    Complete b (.chain calls) l e l' := by
  refine chain_complete h.left_le (fun n hn => ?_) fun n hn => ?_
  · unfold operand
    rw [at_bind, if_neg (by simpa using hk), h.complete n hn]
  · unfold newTarget
    rw [at_bind, if_neg (by simpa using hk), h.complete n (by omega)]

theorem constructChain_complete {calls : Bool} (hk : l.hand.kind = .keyword .new) (h : Reads b .construct l e l') :
    Complete b (.chain calls) l e l' := by
  refine chain_complete h.left_le (fun n hn => ?_) fun n hn => ?_
  · unfold operand
    rw [at_bind, hk, if_pos (beq_self_eq_true _), h.complete n hn]
  · have e₁ : rules n .construct (l.state b) = _ := rules_of_rule h.complete hn
    unfold newTarget
    rw [at_bind, hk, if_pos (beq_self_eq_true _), e₁]

/-- A chain goes on with a suffix, which either rule that reads chains asks for. -/
theorem suffix_complete {calls : Bool} (h : Reads b (.chain calls) l e l₁) (hr : l'.left < l₁.left)
    (hc : ∀ n, l₁.left ≤ n → calls = true →
      callRest (rules n) e (l₁.state b) = rules n (.callRest e') (l'.state b))
    (hn : ∀ n, l₁.left ≤ n → calls = false →
      memberRest (rules n) e (l₁.state b) = rules n (.memberRest e') (l'.state b)) :
    Complete b (.chain calls) l e' l' := by
  cases calls with
  | true =>
    intro n hn
    obtain ⟨m, hm, he⟩ := h.complete n hn
    rw [he, hc m hm rfl]
    obtain ⟨m, rfl⟩ : ∃ k, m = k + 1 := ⟨m - 1, by omega⟩
    exact ⟨m, by omega, rfl⟩
  | false =>
    intro n hn'
    obtain ⟨m, hm, he⟩ := h.complete n hn'
    rw [he, hn m hm rfl]
    obtain ⟨m, rfl⟩ : ∃ k, m = k + 1 := ⟨m - 1, by omega⟩
    exact ⟨m, by omega, rfl⟩

theorem field_complete {calls : Bool} (h : Reads b (.chain calls) l e l₁) (h₁ : l₁.Takes .dot l₂)
    (hk : isName l₂.hand.kind = true) (h₂ : l₂.Steps l') :
    Complete b (.chain calls) l (.field ⟨e.span.start, l'.cursor.pos⟩ e l₂.hand.text) l' := by
  have hs : ∀ n, memberSuffix (rules n) e (l₁.state b) =
      .done (.field ⟨e.span.start, l'.cursor.pos⟩ e l₂.hand.text) (l'.state b) := by
    intro n
    unfold memberSuffix
    rw [bind_of_done (accept_of_takes h₁), if_pos rfl, kind_bind]
    unfold isName at hk
    split at hk
    · rename_i hi
      simp only [hi, bind_of_done (advance_of_steps h₂), finish_apply]
    · rename_i hw
      simp only [hw, bind_of_done (advance_of_steps h₂), finish_apply]
    · cases hk
  refine suffix_complete h (by grind) (fun n _ _ => ?_) fun n _ _ => ?_
  · unfold callRest
    simp only [kind_bind, h₁.kind, bind_of_done (hs n)]
  · unfold memberRest
    simp only [kind_bind, h₁.kind, bind_of_done (hs n)]

theorem index_complete {calls : Bool} {i : Expr} (h : Reads b (.chain calls) l e l₁) (h₁ : l₁.Takes .lBracket l₂)
    (h₂ : Reads b .expression l₂ i l₃) (h₃ : l₃.Takes .rBracket l') :
    Complete b (.chain calls) l (.index ⟨e.span.start, l'.cursor.pos⟩ e i) l' := by
  have := h₂.left_le
  have hs : ∀ n, l₁.left ≤ n → memberSuffix (rules n) e (l₁.state b) =
      .done (.index ⟨e.span.start, l'.cursor.pos⟩ e i) (l'.state b) := by
    intro n hn
    have e₂ : rules n .expression (l₂.state b) = _ := rules_of_rule h₂.complete (by grind)
    unfold memberSuffix
    rw [bind_of_done (accept_of_ne (by simp [h₁.kind])), if_neg (by simp), bind_of_done (advance_of_steps h₁.toSteps),
      bind_of_done e₂, bind_of_done (expect_of_takes h₃), finish_apply]
  refine suffix_complete h (by grind) (fun n hn _ => ?_) fun n hn _ => ?_
  · unfold callRest
    simp only [kind_bind, h₁.kind, bind_of_done (hs n hn)]
  · unfold memberRest
    simp only [kind_bind, h₁.kind, bind_of_done (hs n hn)]

theorem call_complete {args : List Expr} (h : Reads b (.chain true) l e l₁) (h₁ : l₁.Takes .lParen l₂)
    (h₂ : Reads b .argumentsRest l₂ args l') :
    Complete b (.chain true) l (.call ⟨e.span.start, l'.cursor.pos⟩ e args) l' := by
  have := h₂.left_le
  refine suffix_complete h (by grind) (fun n hn _ => ?_) nofun
  have e₂ : rules n .argumentsRest (l₂.state b) = _ := rules_of_rule h₂.complete (by grind)
  unfold callRest
  simp only [kind_bind, h₁.kind, bind_of_done (advance_of_steps h₁.toSteps), bind_of_done e₂, finish_bind]

theorem member_complete {calls : Bool} (h : Reads b (.chain calls) l e l')
    (hk : extendsChain calls l'.hand.kind = false) : Complete b (.member calls) l e l' := by
  cases calls with
  | true =>
    intro n hn
    obtain ⟨m, -, he⟩ := h.complete n hn
    rw [he]
    unfold callRest
    rw [kind_bind]
    generalize l'.hand.kind = k at hk
    cases k <;> first | rfl | exact absurd hk (by decide)
  | false =>
    intro n hn
    obtain ⟨m, -, he⟩ := h.complete n hn
    rw [he]
    unfold memberRest
    rw [kind_bind]
    generalize l'.hand.kind = k at hk
    cases k <;> first | rfl | exact absurd hk (by decide)

theorem newArguments_complete {args : List Expr} (h₁ : l.Takes .lParen l₁) (h₂ : Reads b .argumentsRest l₁ args l') :
    Complete b .newArguments l args l' := by
  intro n hn
  have e₂ : rules n .argumentsRest (l₁.state b) = _ := rules_of_rule h₂.complete (by grind)
  unfold newArguments
  rw [bind_of_done (accept_of_takes h₁), if_pos rfl, e₂]

theorem noArguments_complete (h : l.hand.kind ≠ .lParen) : Complete b .newArguments l [] l := by
  intro n _
  unfold newArguments
  rw [bind_of_done (accept_of_ne h)]
  rfl

theorem construct_complete {args : List Expr} (h₁ : l.Takes (.keyword .new) l₁) (h₂ : Reads b (.member false) l₁ e l₂)
    (h₃ : Reads b .newArguments l₂ args l') : Complete b .construct l (.new (l.upTo l') e args) l' := by
  intro n hn
  have := h₂.left_le
  have e₂ : constructed n (l₁.state b) = _ := h₂.complete n (by grind)
  obtain ⟨target, s₁, ht, e₂⟩ := bind_eq_done.1 e₂
  unfold construct
  rw [place_bind, bind_of_done (advance_of_steps h₁.toSteps), bind_of_done ht, bind_of_done e₂,
    bind_of_done (h₃.complete n (by grind)), finish_apply]
  rfl

/-! ## Operators -/

theorem noUpdate_complete (h : Reads b (.member true) l e l') (hk : updateHere? l'.hand = none) :
    Complete b .update l e l' := by
  intro n hn
  unfold update
  rw [bind_of_done (h.complete n hn), token_bind]
  unfold updateHere? at hk
  split at hk
  · rename_i hw
    cases updateOp? l'.hand.kind <;> simp [hw]
  · simp only [hk]
    rfl

theorem update_complete {op : UpdateOp} (h : Reads b (.member true) l e l₁) (h₁ : l₁.Steps l')
    (hk : updateHere? l₁.hand = some op) :
    Complete b .update l (.update (e.span.through l₁.hand.span) op false e) l' := by
  intro n hn
  unfold updateHere? at hk
  split at hk
  · cases hk
  · rename_i hw
    unfold update
    rw [bind_of_done (h.complete n hn), token_bind]
    simp only [hk, if_neg hw]
    rw [bind_of_done (advance_of_steps h₁)]
    rfl

theorem noPrefix_complete (hu : unaryOp? l.hand.kind = none) (hp : updateOp? l.hand.kind = none)
    (h : Reads b .update l e l') : Complete b .unary l e l' := by
  intro n hn
  unfold unary
  rw [token_bind]
  simp only [hu, hp, h.complete n hn]

theorem unary_complete {op : UnaryOp} (h₁ : l.Steps l₁) (hu : unaryOp? l.hand.kind = some op)
    (h₂ : Reads b .unary l₁ e l') : Complete b .unary l (.unary (l.hand.span.through e.span) op e) l' := by
  intro n hn
  have e₂ : rules n .unary (l₁.state b) = _ := rules_of_rule h₂.complete (by grind)
  unfold unary
  rw [token_bind]
  simp only [hu, bind_of_done (advance_of_steps h₁), bind_of_done e₂]
  rfl

theorem updateFirst_complete {op : UpdateOp} (h₁ : l.Steps l₁) (hu : unaryOp? l.hand.kind = none)
    (hp : updateOp? l.hand.kind = some op) (h₂ : Reads b .unary l₁ e l') :
    Complete b .unary l (.update (l.hand.span.through e.span) op true e) l' := by
  intro n hn
  have e₂ : rules n .unary (l₁.state b) = _ := rules_of_rule h₂.complete (by grind)
  unfold unary
  rw [token_bind]
  simp only [hu, hp, bind_of_done (advance_of_steps h₁), bind_of_done e₂]
  rfl

theorem operators_complete {least : Nat} (h : Reads b .unary l e l') : Complete b (.operators least) l e l' := by
  intro n hn
  have : l'.left + 1 ≤ l.left := h.left_le
  obtain ⟨n, rfl⟩ : ∃ m, n = m + 1 := ⟨n - 1, by omega⟩
  refine ⟨n, by omega, ?_⟩
  unfold binary
  rw [bind_of_done (h.complete _ hn)]
  rfl

theorem operator_complete {least : Nat} {op : BinaryOp} (h : Reads b (.operators least) l e l₁) (h₁ : l₁.Steps l₂)
    (hk : operatorHere? least l₁.hand.kind = some op) (h₂ : Reads b (.binary op.rightPrecedence) l₂ e' l') :
    Complete b (.operators least) l (.binary (e.span.through e'.span) op e e') l' := by
  intro n hn
  have := h₂.left_le
  have := h₁.left_lt
  obtain ⟨m, hm, he⟩ := h.complete n hn
  obtain ⟨hop, hp⟩ := Option.filter_eq_some_iff.1 hk
  have e₂ : rules m (.binary op.rightPrecedence) (l₂.state b) = _ := rules_of_rule h₂.complete (by omega)
  rw [he]
  obtain ⟨m, rfl⟩ : ∃ k, m = k + 1 := ⟨m - 1, by omega⟩
  refine ⟨m, by omega, ?_⟩
  unfold binaryRest
  rw [kind_bind]
  simp only [hop, if_neg (show ¬ op.precedence < least by simpa using hp), bind_of_done (advance_of_steps h₁),
    bind_of_done e₂]
  rfl

theorem binary_complete {least : Nat} (h : Reads b (.operators least) l e l')
    (hk : operatorHere? least l'.hand.kind = none) : Complete b (.binary least) l e l' := by
  intro n hn
  obtain ⟨m, -, he⟩ := h.complete n hn
  rw [he]
  unfold binaryRest
  rw [kind_bind]
  unfold operatorHere? at hk
  cases hop : binaryOp? l'.hand.kind with
  | none => rfl
  | some op =>
    have hp : op.precedence < least := by simpa [hop, Option.filter] using hk
    simp only [if_pos hp]
    rfl

theorem noChoice_complete (h : Reads b (.binary 0) l e l') (hk : l'.hand.kind ≠ .question) :
    Complete b .conditional l e l' := by
  intro n hn
  unfold conditional
  rw [bind_of_done (h.complete n hn), bind_of_done (accept_of_ne hk)]
  rfl

theorem choice_complete {yes no : Expr} (h : Reads b (.binary 0) l e l₁) (h₁ : l₁.Takes .question l₂)
    (h₂ : Reads b .assignment l₂ yes l₃) (h₃ : l₃.Takes .colon l₄) (h₄ : Reads b .assignment l₄ no l') :
    Complete b .conditional l (.conditional (e.span.through no.span) e yes no) l' := by
  intro n hn
  have := h.left_le
  have := h₂.left_le
  have e₂ : rules n .assignment (l₂.state b) = _ := rules_of_rule h₂.complete (by grind)
  have e₄ : rules n .assignment (l₄.state b) = _ := rules_of_rule h₄.complete (by grind)
  unfold conditional
  rw [bind_of_done (h.complete n hn), bind_of_done (accept_of_takes h₁), if_pos rfl, bind_of_done e₂,
    bind_of_done (expect_of_takes h₃), bind_of_done e₄]
  rfl

theorem noAssign_complete (h : Reads b .conditional l e l') (hk : isAssign l'.hand.kind = false) :
    Complete b .assignment l e l' := by
  intro n hn
  unfold assignment
  rw [bind_of_done (h.complete n hn), token_bind]
  generalize l'.hand.kind = k at hk
  cases k <;> first | rfl | exact absurd hk (by decide)

theorem assign_complete {op : Option BinaryOp} (h : Reads b .conditional l e l₁) (h₁ : l₁.Steps l₂)
    (hk : assignOp? l₁.hand = some op) (ht : e.isTarget = true) (h₂ : Reads b .assignment l₂ e' l') :
    Complete b .assignment l (.assign (e.span.through e'.span) op e e') l' := by
  intro n hn
  have := h.left_le
  have e₂ : rules n .assignment (l₂.state b) = _ := rules_of_rule h₂.complete (by grind)
  have hr : assignmentRest (rules n) e op (l₁.state b) =
      .done (.assign (e.span.through e'.span) op e e') (l'.state b) := by
    unfold assignmentRest
    rw [bind_of_done (advance_of_steps h₁), if_pos ht, bind_of_done e₂]
    rfl
  unfold assignment
  rw [bind_of_done (h.complete n hn), token_bind]
  unfold assignOp? at hk
  split at hk
  · rename_i hkind
    cases hk
    simp only [hkind, hr]
  · rename_i hkind
    obtain ⟨op', hop, rfl⟩ := Option.map_eq_some_iff.1 hk
    simp only [hkind, hop, hr]
  · cases hk

theorem noItem_complete (hk : l.hand.kind ≠ .comma) : Complete b .itemsRest l [] l := by
  intro n _
  unfold itemsRest
  rw [bind_of_done (accept_of_ne hk)]
  rfl

theorem item_complete {rest : List Expr} (h₁ : l.Takes .comma l₁) (h₂ : Reads b .assignment l₁ e l₂)
    (h₃ : Reads b .itemsRest l₂ rest l') : Complete b .itemsRest l (e :: rest) l' := by
  intro n hn
  have := h₂.left_le
  have e₂ : rules n .assignment (l₁.state b) = _ := rules_of_rule h₂.complete (by grind)
  have e₃ : rules n .itemsRest (l₂.state b) = _ := rules_of_rule h₃.complete (by grind)
  unfold itemsRest
  rw [bind_of_done (accept_of_takes h₁), if_pos rfl, bind_of_done e₂, bind_of_done e₃]
  rfl

theorem single_complete (h : Reads b .assignment l e l') (hk : l'.hand.kind ≠ .comma) :
    Complete b .expression l e l' := by
  intro n hn
  unfold expression
  rw [bind_of_done (h.complete n hn), at_bind, if_neg (by simpa using hk)]
  rfl

theorem sequence_complete {rest : List Expr} (h : Reads b .assignment l e l₁) (hk : l₁.hand.kind = .comma)
    (h₁ : Reads b .itemsRest l₁ rest l') :
    Complete b .expression l (.sequence ⟨e.span.start, l'.cursor.pos⟩ (e :: rest)) l' := by
  intro n hn
  have : l₁.left + 1 ≤ l.left := h.left_le
  have e₁ : rules n .itemsRest (l₁.state b) = _ := rules_of_rule h₁.complete (by omega)
  unfold expression
  rw [bind_of_done (h.complete n hn), at_bind, hk, beq_self_eq_true, if_pos rfl, bind_of_done e₁, finish_apply]

/-! ## Arguments, elements and properties -/

theorem argumentsEnd_complete (h : l.Takes .rParen l') : Complete b .argumentsRest l [] l' := by
  intro n _
  unfold argumentsRest
  rw [bind_of_done (accept_of_takes h)]
  rfl

theorem lastArgument_complete (hk : l.hand.kind ≠ .rParen) (h : Reads b .assignment l e l₁)
    (h₁ : l₁.Takes .rParen l') : Complete b .argumentsRest l [e] l' := by
  intro n hn
  unfold argumentsRest
  rw [bind_of_done (accept_of_ne hk), if_neg (by simp), bind_of_done (h.complete n hn),
    bind_of_done (accept_of_ne (by simp [h₁.kind])), if_neg (by simp), bind_of_done (expect_of_takes h₁)]
  rfl

theorem argument_complete {rest : List Expr} (hk : l.hand.kind ≠ .rParen) (h : Reads b .assignment l e l₁)
    (h₁ : l₁.Takes .comma l₂) (h₂ : Reads b .argumentsRest l₂ rest l') :
    Complete b .argumentsRest l (e :: rest) l' := by
  intro n hn
  have := h.left_le
  have e₂ : rules n .argumentsRest (l₂.state b) = _ := rules_of_rule h₂.complete (by grind)
  unfold argumentsRest
  rw [bind_of_done (accept_of_ne hk), if_neg (by simp), bind_of_done (h.complete n hn),
    bind_of_done (accept_of_takes h₁), if_pos rfl, bind_of_done e₂]
  rfl

theorem elementsEnd_complete (h : l.Takes .rBracket l') : Complete b .elementsRest l [] l' := by
  intro n _
  unfold elementsRest
  rw [bind_of_done (accept_of_takes h)]
  rfl

theorem hole_complete {rest : List (Option Expr)} (h : l.Takes .comma l₁) (h₁ : Reads b .elementsRest l₁ rest l') :
    Complete b .elementsRest l (none :: rest) l' := by
  intro n hn
  have e₁ : rules n .elementsRest (l₁.state b) = _ := rules_of_rule h₁.complete (by grind)
  unfold elementsRest
  rw [bind_of_done (accept_of_ne (by simp [h.kind])), if_neg (by simp), bind_of_done (accept_of_takes h), if_pos rfl,
    bind_of_done e₁]
  rfl

theorem lastElement_complete (hk : l.hand.kind ≠ .rBracket) (hc : l.hand.kind ≠ .comma)
    (h : Reads b .assignment l e l₁) (h₁ : l₁.Takes .rBracket l') : Complete b .elementsRest l [some e] l' := by
  intro n hn
  have : l₁.left + 1 ≤ l.left := h.left_le
  have e₁ : rules n .elementsRest (l₁.state b) = _ := rules_of_rule (elementsEnd_complete h₁) (by omega)
  unfold elementsRest
  rw [bind_of_done (accept_of_ne hk), if_neg (by simp), bind_of_done (accept_of_ne hc), if_neg (by simp),
    bind_of_done (h.complete n hn), at_bind, h₁.kind, beq_self_eq_true, if_neg (by simp)]
  exact (bind_of_done e₁).trans rfl

theorem element_complete {rest : List (Option Expr)} (hk : l.hand.kind ≠ .rBracket) (hc : l.hand.kind ≠ .comma)
    (h : Reads b .assignment l e l₁) (h₁ : l₁.Takes .comma l₂) (h₂ : Reads b .elementsRest l₂ rest l') :
    Complete b .elementsRest l (some e :: rest) l' := by
  intro n hn
  have := h.left_le
  have e₂ : rules n .elementsRest (l₂.state b) = _ := rules_of_rule h₂.complete (by grind)
  unfold elementsRest
  rw [bind_of_done (accept_of_ne hk), if_neg (by simp), bind_of_done (accept_of_ne hc), if_neg (by simp),
    bind_of_done (h.complete n hn), at_bind, h₁.kind, if_pos (by decide), bind_of_done (expect_of_takes h₁)]
  exact (bind_of_done e₂).trans rfl

theorem propertiesEnd_complete (h : l.Takes .rBrace l') : Complete b .propertiesRest l [] l' := by
  intro n _
  unfold propertiesRest
  rw [bind_of_done (accept_of_takes h)]
  rfl

theorem lastProperty_complete {p : Property} (hk : l.hand.kind ≠ .rBrace) (h : Reads b .property l p l₁)
    (h₁ : l₁.Takes .rBrace l') : Complete b .propertiesRest l [p] l' := by
  intro n hn
  unfold propertiesRest
  rw [bind_of_done (accept_of_ne hk), if_neg (by simp), bind_of_done (h.complete n hn),
    bind_of_done (accept_of_ne (by simp [h₁.kind])), if_neg (by simp), bind_of_done (expect_of_takes h₁)]
  rfl

theorem moreProperties_complete {p : Property} {rest : List Property} (hk : l.hand.kind ≠ .rBrace)
    (h : Reads b .property l p l₁) (h₁ : l₁.Takes .comma l₂) (h₂ : Reads b .propertiesRest l₂ rest l') :
    Complete b .propertiesRest l (p :: rest) l' := by
  intro n hn
  have := h.left_le
  have e₂ : rules n .propertiesRest (l₂.state b) = _ := rules_of_rule h₂.complete (by grind)
  unfold propertiesRest
  rw [bind_of_done (accept_of_ne hk), if_neg (by simp), bind_of_done (h.complete n hn),
    bind_of_done (accept_of_takes h₁), if_pos rfl, bind_of_done e₂]
  rfl

theorem nameKey_complete (h : l.Steps l') (hk : isName l.hand.kind = true) :
    Complete b .propertyKey l (.name l.hand.text) l' := by
  intro n _
  unfold propertyKey
  unfold isName at hk
  split at hk
  · rename_i hi
    simp only [hi, bind_of_done (advance_of_steps h)]
    rfl
  · rename_i hw
    simp only [hw, bind_of_done (advance_of_steps h)]
    rfl
  · cases hk

theorem textKey_complete (h : l.Takes .string l') : Complete b .propertyKey l (.text l.hand.text) l' := by
  intro n _
  unfold propertyKey
  simp only [h.kind, bind_of_done (advance_of_steps h.toSteps)]
  rfl

theorem numberKey_complete {x : Number} (h : l.Takes .number l')
    (hx : Number.Literal.read? l.hand.text.toList = some x) : Complete b .propertyKey l (.number x) l' := by
  intro n _
  unfold propertyKey
  simp only [h.kind, bind_of_done (advance_of_steps h.toSteps), hx]
  rfl

theorem computedKey_complete (h : l.Takes .lBracket l₁) (h₁ : Reads b .assignment l₁ e l₂)
    (h₂ : l₂.Takes .rBracket l') : Complete b .propertyKey l (.computed e) l' := by
  intro n hn
  have e₁ : rules n .assignment (l₁.state b) = _ := rules_of_rule h₁.complete (by grind)
  unfold propertyKey
  simp only [h.kind, bind_of_done (advance_of_steps h.toSteps), bind_of_done e₁, bind_of_done (expect_of_takes h₂)]
  rfl

theorem shorthand_complete (h : l.Takes .identifier l') (hk : l'.hand.kind = .comma ∨ l'.hand.kind = .rBrace) :
    Complete b .property l (.shorthand (l.upTo l') l.hand.text) l' := by
  intro n hn
  have hs : propertyKey (rules n) l.hand (l.state b) = _ := nameKey_complete h.toSteps (by rw [h.kind]; rfl) n hn
  unfold property
  rw [token_bind, bind_of_done hs, kind_bind, if_pos ⟨h.kind, hk⟩, finish_apply]
  rfl

theorem pair_complete {key : PropertyKey} (h : Reads b .propertyKey l key l₁) (h₁ : l₁.Takes .colon l₂)
    (h₂ : Reads b .assignment l₂ e l') : Complete b .property l (.pair (l.upTo l') key e) l' := by
  intro n hn
  have := h.left_le
  have e₂ : rules n .assignment (l₂.state b) = _ := rules_of_rule h₂.complete (by grind)
  unfold property
  rw [token_bind, bind_of_done (h.complete n hn), kind_bind, if_neg (by simp [h₁.kind]),
    bind_of_done (expect_of_takes h₁), bind_of_done e₂, finish_apply]
  rfl

/-! ## Statements -/

theorem empty_complete (h : l.Takes .semicolon l') : Complete b .statement l (.empty (l.upTo l')) l' := by
  intro n _
  unfold statement
  rw [token_bind]
  simp only [h.kind, bind_of_done (advance_of_steps h.toSteps), finish_apply]
  rfl

/-- A block begins with a brace. -/
theorem takes_of_block {body : List Stmt} (h : Derives b .block l body l') : l.hand.kind = .lBrace := by
  cases h with
  | block h _ => exact h.kind

theorem blockStatement_complete {body : List Stmt} (h : Reads b .block l body l') :
    Complete b .statement l (.block (l.upTo l') body) l' := by
  intro n hn
  unfold statement
  rw [token_bind]
  simp only [takes_of_block h.derives, bind_of_done (h.complete n hn), finish_apply]
  rfl

theorem functionStatement_complete {f : List String × List Stmt} (h₁ : l.Takes (.keyword .function) l₁)
    (h₂ : l₁.Takes .identifier l₂) (h₃ : Reads b .signature l₂ f l') :
    Complete b .statement l (.function (l.upTo l') l₁.hand.text f.1 f.2) l' := by
  intro n hn
  unfold statement functionStatement
  rw [token_bind]
  simp only [h₁.kind, bind_of_done (advance_of_steps h₁.toSteps), bind_of_done (expect_of_takes h₂),
    bind_of_done (h₃.complete n (by grind)), finish_apply]
  rfl

theorem choose_complete {yes : Stmt} {no : Option Stmt} (h₁ : l.Takes (.keyword .if) l₁)
    (h₂ : Reads b .condition l₁ e l₂) (h₃ : Reads b .statement l₂ yes l₃) (h₄ : Reads b .alternative l₃ no l') :
    Complete b .statement l (.choose (l.upTo l') e yes no) l' := by
  intro n hn
  have := h₂.left_le
  have := h₃.left_le
  have e₃ : rules n .statement (l₂.state b) = _ := rules_of_rule h₃.complete (by grind)
  unfold statement chooseStatement
  rw [token_bind]
  simp only [h₁.kind, bind_of_done (advance_of_steps h₁.toSteps), bind_of_done (h₂.complete n (by grind)),
    bind_of_done e₃, bind_of_done (h₄.complete n (by grind)), finish_apply]
  rfl

theorem whileLoop_complete {body : Stmt} (h₁ : l.Takes (.keyword .while) l₁) (h₂ : Reads b .condition l₁ e l₂)
    (h₃ : Reads b .statement l₂ body l') : Complete b .statement l (.whileLoop (l.upTo l') e body) l' := by
  intro n hn
  have := h₂.left_le
  have e₃ : rules n .statement (l₂.state b) = _ := rules_of_rule h₃.complete (by grind)
  unfold statement whileStatement
  rw [token_bind]
  simp only [h₁.kind, bind_of_done (advance_of_steps h₁.toSteps), bind_of_done (h₂.complete n (by grind)),
    bind_of_done e₃, finish_apply]
  rfl

theorem doLoop_complete {body : Stmt} {u : Unit} (h₁ : l.Takes (.keyword .do) l₁) (h₂ : Reads b .statement l₁ body l₂)
    (h₃ : l₂.Takes (.keyword .while) l₃) (h₄ : Reads b .condition l₃ e l₄) (h₅ : Reads b .whileEnd l₄ u l') :
    Complete b .statement l (.doLoop (l.upTo l') body e) l' := by
  intro n hn
  have := h₂.left_le
  have e₂ : rules n .statement (l₁.state b) = _ := rules_of_rule h₂.complete (by grind)
  obtain ⟨c, e₅⟩ := h₅.complete
  unfold statement doStatement
  rw [token_bind]
  simp only [h₁.kind, bind_of_done (advance_of_steps h₁.toSteps), bind_of_done e₂, bind_of_done (expect_of_takes h₃),
    bind_of_done (h₄.complete n (by grind)), bind_of_done e₅, finish_apply]
  rfl

theorem forLoop_complete {init : Option Stmt} {test step : Option Expr} {body : Stmt} {l₅ l₆ l₇ l₈ : Lexer}
    (h₁ : l.Takes (.keyword .for) l₁) (h₂ : l₁.Takes .lParen l₂) (h₃ : Reads b .forInit l₂ init l₃)
    (h₄ : l₃.Takes .semicolon l₄) (h₅ : Reads b (.expressionUnless .semicolon) l₄ test l₅)
    (h₆ : l₅.Takes .semicolon l₆) (h₇ : Reads b (.expressionUnless .rParen) l₆ step l₇) (h₈ : l₇.Takes .rParen l₈)
    (h₉ : Reads b .statement l₈ body l') : Complete b .statement l (.forLoop (l.upTo l') init test step body) l' := by
  intro n hn
  have := h₃.left_le
  have := h₅.left_le
  have := h₇.left_le
  have e₉ : rules n .statement (l₈.state b) = _ := rules_of_rule h₉.complete (by grind)
  unfold statement forStatement
  rw [token_bind]
  simp only [h₁.kind, bind_of_done (advance_of_steps h₁.toSteps), bind_of_done (expect_of_takes h₂),
    bind_of_done (h₃.complete n (by grind)), bind_of_done (expect_of_takes h₄),
    bind_of_done (h₅.complete n (by grind)), bind_of_done (expect_of_takes h₆),
    bind_of_done (h₇.complete n (by grind)), bind_of_done (expect_of_takes h₈), bind_of_done e₉, finish_apply]
  rfl

theorem returns_complete {value : Option Expr} {u : Unit} (h₁ : l.Takes (.keyword .return) l₁)
    (h₂ : Reads true .returned l₁ value l₂) (h₃ : Reads true .ending l₂ u l') :
    Complete true .statement l (.returns (l.upTo l') value) l' := by
  intro n hn
  have e₃ : endStatement (l₂.state true) = _ := h₃.complete
  unfold statement returnStatement
  rw [token_bind]
  simp only [h₁.kind, bind_of_done (advance_of_steps h₁.toSteps), inFunction_bind, if_true,
    bind_of_done (h₂.complete n (by grind)), bind_of_done e₃, finish_apply]
  rfl

theorem jump_complete {label : Option String} {u : Unit} {make : Span → Option String → Stmt} (h₁ : l.Steps l₁)
    (h₂ : Reads b .jumpLabel l₁ label l₂) (h₃ : Reads b .ending l₂ u l') :
    jumpStatement l.hand.span.start make (l.state b) = .done (make (l.upTo l') label) (l'.state b) := by
  have e₂ : jumpLabel (l₁.state b) = _ := h₂.complete
  have e₃ : endStatement (l₂.state b) = _ := h₃.complete
  unfold jumpStatement
  rw [bind_of_done (advance_of_steps h₁), bind_of_done e₂, bind_of_done e₃, finish_apply]
  rfl

theorem breaks_complete {label : Option String} {u : Unit} (h₁ : l.Takes (.keyword .break) l₁)
    (h₂ : Reads b .jumpLabel l₁ label l₂) (h₃ : Reads b .ending l₂ u l') :
    Complete b .statement l (.breaks (l.upTo l') label) l' := by
  intro n _
  unfold statement
  rw [token_bind]
  simp only [h₁.kind, jump_complete h₁.toSteps h₂ h₃]

theorem continues_complete {label : Option String} {u : Unit} (h₁ : l.Takes (.keyword .continue) l₁)
    (h₂ : Reads b .jumpLabel l₁ label l₂) (h₃ : Reads b .ending l₂ u l') :
    Complete b .statement l (.continues (l.upTo l') label) l' := by
  intro n _
  unfold statement
  rw [token_bind]
  simp only [h₁.kind, jump_complete h₁.toSteps h₂ h₃]

theorem throws_complete {u : Unit} (h₁ : l.Takes (.keyword .throw) l₁) (hw : l₁.hand.newlineBefore = false)
    (h₂ : Reads b .expression l₁ e l₂) (h₃ : Reads b .ending l₂ u l') :
    Complete b .statement l (.throws (l.upTo l') e) l' := by
  intro n hn
  have e₂ : rules n .expression (l₁.state b) = _ := rules_of_rule h₂.complete (by grind)
  have e₃ : endStatement (l₂.state b) = _ := h₃.complete
  unfold statement throwStatement
  rw [token_bind]
  simp only [h₁.kind, bind_of_done (advance_of_steps h₁.toSteps), token_bind, hw, Bool.false_eq_true, if_false,
    bind_of_done e₂, bind_of_done e₃, finish_apply]
  rfl

/-- A declaration up to its end. -/
theorem declaration_complete {kind : DeclKind} {items : List Declarator} {n : Nat} (h₁ : l.Steps l₁)
    (h₂ : Reads b (.declarators kind) l₁ items l') (hn : l.left ≤ n) :
    declaration (rules n) kind (l.state b) = .done items (l'.state b) := by
  have e₂ : rules n (.declarators kind) (l₁.state b) = _ := rules_of_rule h₂.complete (by grind)
  unfold declaration
  rw [bind_of_done (advance_of_steps h₁), e₂]

/-- The branch for what is no sort of its own is taken. -/
theorem statement_of_declKind {rules : Rules} {kind : DeclKind} (hk : declKind? l.hand.kind = some kind) :
    statement rules (l.state b) = (do
      let items ← declaration rules kind
      endStatement
      finish l.hand.span.start (Stmt.declare · kind items)) (l.state b) := by
  unfold statement
  rw [token_bind]
  generalize l.hand.kind = k at hk
  unfold declKind? at hk
  split at hk <;> cases hk <;> rfl

theorem declare_complete {kind : DeclKind} {items : List Declarator} {u : Unit} (h₁ : l.Steps l₁)
    (hk : declKind? l.hand.kind = some kind) (h₂ : Reads b (.declarators kind) l₁ items l₂)
    (h₃ : Reads b .ending l₂ u l') : Complete b .statement l (.declare (l.upTo l') kind items) l' := by
  intro n hn
  have e₃ : endStatement (l₂.state b) = _ := h₃.complete
  rw [statement_of_declKind hk, bind_of_done (declaration_complete h₁ h₂ hn), bind_of_done e₃, finish_apply]
  rfl

theorem statement_of_expression {rules : Rules} (hk : opensStatement l.hand.kind = false) :
    statement rules (l.state b) = expressionStatement rules l.hand.span.start (l.state b) := by
  unfold statement
  rw [token_bind]
  generalize l.hand.kind = k at hk
  unfold opensStatement declKind? at hk
  cases k with
  | keyword w => cases w <;> first | rfl | exact absurd hk (by decide)
  | _ => first | rfl | exact absurd hk (by decide)

theorem labeled_complete {span : Span} {name : String} {body : Stmt} (hk : opensStatement l.hand.kind = false)
    (h : Reads b .expression l (.identifier span name) l₁) (h₁ : l₁.Takes .colon l₂)
    (h₂ : Reads b .statement l₂ body l') : Complete b .statement l (.labeled (l.upTo l') name body) l' := by
  intro n hn
  have := h.left_le
  have e₂ : rules n .statement (l₂.state b) = _ := rules_of_rule h₂.complete (by grind)
  rw [statement_of_expression hk]
  unfold expressionStatement
  rw [bind_of_done (h.complete n hn), at_bind, h₁.kind, beq_self_eq_true]
  simp only [bind_of_done (advance_of_steps h₁.toSteps), bind_of_done e₂, finish_apply]
  rfl

theorem expressionStatement_complete {u : Unit} (hk : opensStatement l.hand.kind = false)
    (h : Reads b .expression l e l₁) (hc : (isIdentifier e && l₁.hand.kind == .colon) = false)
    (h₁ : Reads b .ending l₁ u l') : Complete b .statement l (.expression (l.upTo l') e) l' := by
  intro n hn
  have e₁ : endStatement (l₁.state b) = _ := h₁.complete
  rw [statement_of_expression hk]
  unfold expressionStatement
  rw [bind_of_done (h.complete n hn), at_bind]
  cases e with
  | identifier span name =>
    rw [show (l₁.hand.kind == .colon) = false from hc]
    simp only [bind_of_done e₁, finish_apply]
    rfl
  | _ =>
    simp only [bind_of_done e₁, finish_apply]
    rfl

theorem semicolon_complete (h : l.Takes .semicolon l') : Complete b .ending l () l' := by
  show endStatement _ = _
  unfold endStatement
  rw [bind_of_done (accept_of_takes h)]
  rfl

theorem lineEnd_complete (hk : l.hand.kind ≠ .semicolon) (he : endsStatement l.hand = true) :
    Complete b .ending l () l := by
  show endStatement _ = _
  have ha : atStatementEnd (l.state b) = .done true (l.state b) := congrArg (Outcome.done · (l.state b)) he
  unfold endStatement
  rw [bind_of_done (accept_of_ne hk), if_neg (by simp), bind_of_done ha]
  rfl

theorem blockEnd_complete (h : l.Takes .rBrace l') : Complete b .blockRest l [] l' := by
  intro n _
  unfold blockRest
  rw [at_bind, h.kind, beq_self_eq_true, if_pos rfl, bind_of_done (advance_of_steps h.toSteps)]
  rfl

theorem blockItem_complete {first : Stmt} {rest : List Stmt} (hk : l.hand.kind ≠ .rBrace) (he : l.hand.kind ≠ .eof)
    (h : Reads b .statement l first l₁) (h₁ : Reads b .blockRest l₁ rest l') :
    Complete b .blockRest l (first :: rest) l' := by
  intro n hn
  have : l₁.left + 1 ≤ l.left := h.left_le
  have e₁ : rules n .blockRest (l₁.state b) = _ := rules_of_rule h₁.complete (by omega)
  unfold blockRest
  rw [at_bind, if_neg (by simpa using hk), at_bind, if_neg (by simpa using he), bind_of_done (h.complete n hn),
    bind_of_done e₁]
  rfl

theorem lastDeclarator_complete {kind : DeclKind} {init : Option Expr} (h : l.Takes .identifier l₁)
    (h₁ : Reads b (.initializer kind) l₁ init l') (hk : l'.hand.kind ≠ .comma) :
    Complete b (.declarators kind) l [.mk l.hand.text init] l' := by
  intro n hn
  unfold declarators
  rw [bind_of_done (expect_of_takes h), bind_of_done (h₁.complete n (by grind)), bind_of_done (accept_of_ne hk)]
  rfl

theorem declarator_complete {kind : DeclKind} {init : Option Expr} {rest : List Declarator} (h : l.Takes .identifier l₁)
    (h₁ : Reads b (.initializer kind) l₁ init l₂) (h₂ : l₂.Takes .comma l₃)
    (h₃ : Reads b (.declarators kind) l₃ rest l') :
    Complete b (.declarators kind) l (.mk l.hand.text init :: rest) l' := by
  intro n hn
  have := h₁.left_le
  have e₃ : rules n (.declarators kind) (l₃.state b) = _ := rules_of_rule h₃.complete (by grind)
  unfold declarators
  rw [bind_of_done (expect_of_takes h), bind_of_done (h₁.complete n (by grind)), bind_of_done (accept_of_takes h₂),
    if_pos rfl, bind_of_done e₃]
  rfl

theorem initializer_complete {kind : DeclKind} (h : l.Takes .assign l₁) (h₁ : Reads b .assignment l₁ e l') :
    Complete b (.initializer kind) l (some e) l' := by
  intro n hn
  have e₁ : rules n .assignment (l₁.state b) = _ := rules_of_rule h₁.complete (by grind)
  unfold initializer
  rw [bind_of_done (accept_of_takes h), if_pos rfl, bind_of_done e₁]
  rfl

theorem noInitializer_complete {kind : DeclKind} (h : l.hand.kind ≠ .assign) (hk : kind ≠ .const) :
    Complete b (.initializer kind) l none l := by
  intro n _
  unfold initializer
  rw [bind_of_done (accept_of_ne h), if_neg (by simp), if_neg hk]
  rfl

theorem alternative_complete {no : Stmt} (h : l.Takes (.keyword .else) l₁) (h₁ : Reads b .statement l₁ no l') :
    Complete b .alternative l (some no) l' := by
  intro n hn
  have e₁ : rules n .statement (l₁.state b) = _ := rules_of_rule h₁.complete (by grind)
  unfold alternative
  rw [bind_of_done (accept_of_takes h), if_pos rfl, bind_of_done e₁]
  rfl

theorem noAlternative_complete (h : l.hand.kind ≠ .keyword .else) : Complete b .alternative l none l := by
  intro n _
  unfold alternative
  rw [bind_of_done (accept_of_ne h)]
  rfl

theorem condition_complete (h₁ : l.Takes .lParen l₁) (h₂ : Reads b .expression l₁ e l₂) (h₃ : l₂.Takes .rParen l') :
    Complete b .condition l e l' := by
  intro n hn
  have e₂ : rules n .expression (l₁.state b) = _ := rules_of_rule h₂.complete (by grind)
  unfold condition
  rw [bind_of_done (expect_of_takes h₁), bind_of_done e₂, bind_of_done (expect_of_takes h₃)]
  rfl

theorem noInit_complete (h : l.hand.kind = .semicolon) : Complete b .forInit l none l := by
  intro n _
  unfold forInit
  rw [at_bind, h, beq_self_eq_true, if_pos rfl]
  rfl

theorem declareInit_complete {kind : DeclKind} {items : List Declarator} (h : l.Steps l₁)
    (hk : declKind? l.hand.kind = some kind) (h₁ : Reads b (.declarators kind) l₁ items l') :
    Complete b .forInit l (some (.declare (l.upTo l') kind items)) l' := by
  intro n hn
  have hs : (l.hand.kind == .semicolon) = false := by
    generalize l.hand.kind = k at hk
    unfold declKind? at hk
    split at hk <;> cases hk <;> rfl
  have e₁ : declaration (rules n) kind (l.state b) = _ := declaration_complete h h₁ (by omega)
  unfold forInit
  rw [at_bind, hs, if_neg (by simp), token_bind]
  simp only [hk, bind_of_done e₁, finish_bind]
  rfl

theorem expressionInit_complete (hs : l.hand.kind ≠ .semicolon) (hk : declKind? l.hand.kind = none)
    (h : Reads b .expression l e l') : Complete b .forInit l (some (.expression (l.upTo l') e)) l' := by
  intro n hn
  have e₁ : rules n .expression (l.state b) = _ := rules_of_rule h.complete hn
  unfold forInit
  rw [at_bind, if_neg (by simpa using hs), token_bind]
  simp only [hk, bind_of_done e₁, finish_bind]
  rfl

theorem noExpression_complete {k : Kind} (h : l.hand.kind = k) : Complete b (.expressionUnless k) l none l := by
  intro n _
  unfold expressionUnless
  rw [at_bind, h, beq_self_eq_true, if_pos rfl]
  rfl

theorem someExpression_complete {k : Kind} (hk : l.hand.kind ≠ k) (h : Reads b .expression l e l') :
    Complete b (.expressionUnless k) l (some e) l' := by
  intro n hn
  have e₁ : rules n .expression (l.state b) = _ := rules_of_rule h.complete hn
  unfold expressionUnless
  rw [at_bind, if_neg (by simpa using hk), bind_of_done e₁]
  rfl

theorem atStatementEnd_apply : atStatementEnd (l.state b) = .done (endsStatement l.hand) (l.state b) := rfl

theorem nothingReturned_complete (h : endsStatement l.hand = true) : Complete b .returned l none l := by
  intro n _
  unfold returned
  rw [bind_of_done atStatementEnd_apply, if_pos h]
  rfl

theorem returned_complete (he : endsStatement l.hand = false) (h : Reads b .expression l e l') :
    Complete b .returned l (some e) l' := by
  intro n hn
  have e₁ : rules n .expression (l.state b) = _ := rules_of_rule h.complete hn
  unfold returned
  rw [bind_of_done atStatementEnd_apply, if_neg (by simp [he]), bind_of_done e₁]
  rfl

theorem label_complete (h : l.Takes .identifier l') (hw : l.hand.newlineBefore = false) :
    Complete b .jumpLabel l (some l.hand.text) l' := by
  show jumpLabel _ = _
  unfold jumpLabel
  rw [token_bind, if_pos ⟨h.kind, hw⟩, bind_of_done (advance_of_steps h.toSteps)]
  rfl

theorem noLabel_complete (h : ¬ (l.hand.kind = .identifier ∧ l.hand.newlineBefore = false)) :
    Complete b .jumpLabel l none l := by
  show jumpLabel _ = _
  unfold jumpLabel
  rw [token_bind, if_neg h]
  rfl

end

/-! ## All phrases -/

/-- **Every phrase is read**, and by the rule for its sort. -/
theorem Derives.complete {b : Bool} {p : Phrase} {l : Lexer} {a : p.Result} {l' : Lexer} (h : Derives b p l a l') :
    Complete b p l a l' := by
  induction h with
  | number h₁ h₂ => exact number_complete h₁ h₂
  | text h₁ => exact text_complete h₁
  | word h₁ h₂ => exact word_complete h₁ h₂
  | regex h₁ => exact regex_complete h₁
  | slash h₁ => exact slash_complete h₁
  | identifier h₁ => exact identifier_complete h₁
  | this h₁ => exact this_complete h₁
  | function h₁ h₂ h₃ c₂ c₃ => exact function_complete h₁ ⟨h₂, c₂⟩ ⟨h₃, c₃⟩
  | group h₁ h₂ h₃ c₂ => exact group_complete h₁ ⟨h₂, c₂⟩ h₃
  | array h₁ h₂ c₂ => exact array_complete h₁ ⟨h₂, c₂⟩
  | object h₁ h₂ c₂ => exact object_complete h₁ ⟨h₂, c₂⟩
  | named h₁ => exact named_complete h₁
  | nameless h₁ => exact nameless_complete h₁
  | noParams h₁ => exact noParams_complete h₁
  | someParams h₁ h₂ c₂ => exact someParams_complete h₁ ⟨h₂, c₂⟩
  | lastParam h₁ h₂ => exact lastParam_complete h₁ h₂
  | param h₁ h₂ h₃ c₃ => exact param_complete h₁ h₂ ⟨h₃, c₃⟩
  | signature h₁ h₂ h₃ h₄ c₂ c₄ => exact signature_complete h₁ ⟨h₂, c₂⟩ h₃ ⟨h₄, c₄⟩
  | primaryChain h₁ h₂ c₂ => exact primaryChain_complete h₁ ⟨h₂, c₂⟩
  | constructChain h₁ h₂ c₂ => exact constructChain_complete h₁ ⟨h₂, c₂⟩
  | field h₁ h₂ h₃ h₄ c₁ => exact field_complete ⟨h₁, c₁⟩ h₂ h₃ h₄
  | index h₁ h₂ h₃ h₄ c₁ c₃ => exact index_complete ⟨h₁, c₁⟩ h₂ ⟨h₃, c₃⟩ h₄
  | call h₁ h₂ h₃ c₁ c₃ => exact call_complete ⟨h₁, c₁⟩ h₂ ⟨h₃, c₃⟩
  | member h₁ h₂ c₁ => exact member_complete ⟨h₁, c₁⟩ h₂
  | construct h₁ h₂ h₃ c₂ c₃ => exact construct_complete h₁ ⟨h₂, c₂⟩ ⟨h₃, c₃⟩
  | newArguments h₁ h₂ c₂ => exact newArguments_complete h₁ ⟨h₂, c₂⟩
  | noArguments h₁ => exact noArguments_complete h₁
  | noUpdate h₁ h₂ c₁ => exact noUpdate_complete ⟨h₁, c₁⟩ h₂
  | update h₁ h₂ h₃ c₁ => exact update_complete ⟨h₁, c₁⟩ h₂ h₃
  | noPrefix h₁ h₂ h₃ c₃ => exact noPrefix_complete h₁ h₂ ⟨h₃, c₃⟩
  | unary h₁ h₂ h₃ c₃ => exact unary_complete h₁ h₂ ⟨h₃, c₃⟩
  | updateFirst h₁ h₂ h₃ h₄ c₄ => exact updateFirst_complete h₁ h₂ h₃ ⟨h₄, c₄⟩
  | operators h₁ c₁ => exact operators_complete ⟨h₁, c₁⟩
  | operator h₁ h₂ h₃ h₄ c₁ c₄ => exact operator_complete ⟨h₁, c₁⟩ h₂ h₃ ⟨h₄, c₄⟩
  | binary h₁ h₂ c₁ => exact binary_complete ⟨h₁, c₁⟩ h₂
  | noChoice h₁ h₂ c₁ => exact noChoice_complete ⟨h₁, c₁⟩ h₂
  | choice h₁ h₂ h₃ h₄ h₅ c₁ c₃ c₅ => exact choice_complete ⟨h₁, c₁⟩ h₂ ⟨h₃, c₃⟩ h₄ ⟨h₅, c₅⟩
  | noAssign h₁ h₂ c₁ => exact noAssign_complete ⟨h₁, c₁⟩ h₂
  | assign h₁ h₂ h₃ h₄ h₅ c₁ c₅ => exact assign_complete ⟨h₁, c₁⟩ h₂ h₃ h₄ ⟨h₅, c₅⟩
  | single h₁ h₂ c₁ => exact single_complete ⟨h₁, c₁⟩ h₂
  | sequence h₁ h₂ h₃ c₁ c₃ => exact sequence_complete ⟨h₁, c₁⟩ h₂ ⟨h₃, c₃⟩
  | noItem h₁ => exact noItem_complete h₁
  | item h₁ h₂ h₃ c₂ c₃ => exact item_complete h₁ ⟨h₂, c₂⟩ ⟨h₃, c₃⟩
  | argumentsEnd h₁ => exact argumentsEnd_complete h₁
  | lastArgument h₁ h₂ h₃ c₂ => exact lastArgument_complete h₁ ⟨h₂, c₂⟩ h₃
  | argument h₁ h₂ h₃ h₄ c₂ c₄ => exact argument_complete h₁ ⟨h₂, c₂⟩ h₃ ⟨h₄, c₄⟩
  | elementsEnd h₁ => exact elementsEnd_complete h₁
  | hole h₁ h₂ c₂ => exact hole_complete h₁ ⟨h₂, c₂⟩
  | lastElement h₁ h₂ h₃ h₄ c₃ => exact lastElement_complete h₁ h₂ ⟨h₃, c₃⟩ h₄
  | element h₁ h₂ h₃ h₄ h₅ c₃ c₅ => exact element_complete h₁ h₂ ⟨h₃, c₃⟩ h₄ ⟨h₅, c₅⟩
  | propertiesEnd h₁ => exact propertiesEnd_complete h₁
  | lastProperty h₁ h₂ h₃ c₂ => exact lastProperty_complete h₁ ⟨h₂, c₂⟩ h₃
  | moreProperties h₁ h₂ h₃ h₄ c₂ c₄ => exact moreProperties_complete h₁ ⟨h₂, c₂⟩ h₃ ⟨h₄, c₄⟩
  | shorthand h₁ h₂ => exact shorthand_complete h₁ h₂
  | pair h₁ h₂ h₃ c₁ c₃ => exact pair_complete ⟨h₁, c₁⟩ h₂ ⟨h₃, c₃⟩
  | nameKey h₁ h₂ => exact nameKey_complete h₁ h₂
  | textKey h₁ => exact textKey_complete h₁
  | numberKey h₁ h₂ => exact numberKey_complete h₁ h₂
  | computedKey h₁ h₂ h₃ c₂ => exact computedKey_complete h₁ ⟨h₂, c₂⟩ h₃
  | empty h₁ => exact empty_complete h₁
  | blockStatement h₁ c₁ => exact blockStatement_complete ⟨h₁, c₁⟩
  | functionStatement h₁ h₂ h₃ c₃ => exact functionStatement_complete h₁ h₂ ⟨h₃, c₃⟩
  | choose h₁ h₂ h₃ h₄ c₂ c₃ c₄ => exact choose_complete h₁ ⟨h₂, c₂⟩ ⟨h₃, c₃⟩ ⟨h₄, c₄⟩
  | whileLoop h₁ h₂ h₃ c₂ c₃ => exact whileLoop_complete h₁ ⟨h₂, c₂⟩ ⟨h₃, c₃⟩
  | doLoop h₁ h₂ h₃ h₄ h₅ c₂ c₄ c₅ => exact doLoop_complete h₁ ⟨h₂, c₂⟩ h₃ ⟨h₄, c₄⟩ ⟨h₅, c₅⟩
  | forLoop h₁ h₂ h₃ h₄ h₅ h₆ h₇ h₈ h₉ c₃ c₅ c₇ c₉ => exact forLoop_complete h₁ h₂ ⟨h₃, c₃⟩ h₄ ⟨h₅, c₅⟩ h₆ ⟨h₇, c₇⟩ h₈ ⟨h₉, c₉⟩
  | returns h₁ h₂ h₃ c₂ c₃ => exact returns_complete h₁ ⟨h₂, c₂⟩ ⟨h₃, c₃⟩
  | breaks h₁ h₂ h₃ c₂ c₃ => exact breaks_complete h₁ ⟨h₂, c₂⟩ ⟨h₃, c₃⟩
  | continues h₁ h₂ h₃ c₂ c₃ => exact continues_complete h₁ ⟨h₂, c₂⟩ ⟨h₃, c₃⟩
  | throws h₁ h₂ h₃ h₄ c₃ c₄ => exact throws_complete h₁ h₂ ⟨h₃, c₃⟩ ⟨h₄, c₄⟩
  | declare h₁ h₂ h₃ h₄ c₃ c₄ => exact declare_complete h₁ h₂ ⟨h₃, c₃⟩ ⟨h₄, c₄⟩
  | labeled h₁ h₂ h₃ h₄ c₂ c₄ => exact labeled_complete h₁ ⟨h₂, c₂⟩ h₃ ⟨h₄, c₄⟩
  | expressionStatement h₁ h₂ h₃ h₄ c₂ c₄ => exact expressionStatement_complete h₁ ⟨h₂, c₂⟩ h₃ ⟨h₄, c₄⟩
  | semicolon h₁ => exact semicolon_complete h₁
  | lineEnd h₁ h₂ => exact lineEnd_complete h₁ h₂
  | whileSemicolon h₁ => exact ⟨true, accept_of_takes h₁⟩
  | whileEnd h₁ => exact ⟨false, accept_of_ne h₁⟩
  | block h₁ h₂ c₂ => exact block_complete h₁ ⟨h₂, c₂⟩
  | blockEnd h₁ => exact blockEnd_complete h₁
  | blockItem h₁ h₂ h₃ h₄ c₃ c₄ => exact blockItem_complete h₁ h₂ ⟨h₃, c₃⟩ ⟨h₄, c₄⟩
  | lastDeclarator h₁ h₂ h₃ c₂ => exact lastDeclarator_complete h₁ ⟨h₂, c₂⟩ h₃
  | declarator h₁ h₂ h₃ h₄ c₂ c₄ => exact declarator_complete h₁ ⟨h₂, c₂⟩ h₃ ⟨h₄, c₄⟩
  | initializer h₁ h₂ c₂ => exact initializer_complete h₁ ⟨h₂, c₂⟩
  | noInitializer h₁ h₂ => exact noInitializer_complete h₁ h₂
  | alternative h₁ h₂ c₂ => exact alternative_complete h₁ ⟨h₂, c₂⟩
  | noAlternative h₁ => exact noAlternative_complete h₁
  | condition h₁ h₂ h₃ c₂ => exact condition_complete h₁ ⟨h₂, c₂⟩ h₃
  | noInit h₁ => exact noInit_complete h₁
  | declareInit h₁ h₂ h₃ c₃ => exact declareInit_complete h₁ h₂ ⟨h₃, c₃⟩
  | expressionInit h₁ h₂ h₃ c₃ => exact expressionInit_complete h₁ h₂ ⟨h₃, c₃⟩
  | noExpression h₁ => exact noExpression_complete h₁
  | someExpression h₁ h₂ c₂ => exact someExpression_complete h₁ ⟨h₂, c₂⟩
  | nothingReturned h₁ => exact nothingReturned_complete h₁
  | returned h₁ h₂ c₂ => exact returned_complete h₁ ⟨h₂, c₂⟩
  | label h₁ h₂ => exact label_complete h₁ h₂
  | noLabel h₁ => exact noLabel_complete h₁

end Readback.Grammar
