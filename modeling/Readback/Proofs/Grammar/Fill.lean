import Readback.Proofs.Grammar.Spot
import Readback.Proofs.Grammar.Start
import Readback.Proofs.Snippet.Expression
/-!
# Expressions that fill a text

A piece of a text is filled by an expression when it is read there from its first byte to its last, in front of what closes
it.  Whoever writes a text out of such pieces can tell what the whole is read as: here are single tokens, negated operands,
calls, groups, and what is an expression by itself.
-/
namespace Readback.Grammar

open Token (Kind Gap Lexeme Fence)

/-- The expression is what the text `t` is read as, at a place where `y` is behind it. -/
structure Fills (n : Nat) (t y : List Char) (e : Expr) : Prop where
  derives : ∃ bit, Derives false .assignment ⟨⟨n, t ++ y⟩, true⟩ e ⟨⟨n + Text.byteLength t, y⟩, bit⟩
  span    : e.span = ⟨n, n + Text.byteLength t⟩

variable {bit : Bool} {l l' : Lexer} {n : Nat} {t v x y : List Char} {k : Kind} {e : Expr} {s : Span}

/-! ## Places -/

/-- A phrase that takes a token starts where one is in hand. -/
theorem Derives.ready_start {b : Bool} {p : Phrase} {a : p.Result} (h : Derives b p l a l') (hp : p.least = 1) : l.Ready :=
  (h.opens_of_least hp).ready

/-- The token in hand, of a text that is a token by itself. -/
theorem hand_of_lexeme (h : Lexeme bit t k v) (hx : Fence [] x) (hs : x.head? ≠ some '/') (n : Nat) :
    (⟨⟨n, t ++ x⟩, bit⟩ : Lexer).hand = ⟨k, String.ofList v, ⟨n, n + Text.byteLength t⟩, false⟩ :=
  Lexer.hand_of_outcome (congrArg Lexer.Step.outcome (h.front .none hx hs n).next)

/-- A text that is a token by itself is taken. -/
theorem takes_piece (h : Lexeme bit t k v) (hx : Fence [] x) (hs : x.head? ≠ some '/') (n : Nat) (bit' : Bool)
    (hb : Lexer.allowsRegex bit k = bit') (hr : Lexer.Ready ⟨⟨n + Text.byteLength t, x⟩, bit'⟩) :
    (⟨⟨n, t ++ x⟩, bit⟩ : Lexer).Takes k ⟨⟨n + Text.byteLength t, x⟩, bit'⟩ := by
  subst hb
  exact takes_of_front (l := ⟨⟨n, t ++ x⟩, bit⟩) (h.front .none hx hs n) h.kind_ne_eof hr

/-- A mark is taken, whatever is behind it. -/
theorem takes_sign {c : Char} (h : (c, k) ∈ Lexer.marks) (n : Nat) (bit bit' : Bool) (hb : (!k.endsOperand) = bit')
    (hr : Lexer.Ready ⟨⟨n + 1, x⟩, bit'⟩) : (⟨⟨n, c :: x⟩, bit⟩ : Lexer).Takes k ⟨⟨n + 1, x⟩, bit'⟩ := by
  have hall : ∀ p ∈ Lexer.marks, p.1.utf8Size = 1 ∧ p.2 ≠ .eof := by decide
  obtain ⟨hsize, hk⟩ := hall _ h
  have ha : Lexer.allowsRegex bit k = bit' := by
    unfold Lexer.allowsRegex
    split
    · exact absurd rfl hk
    · exact hb
  subst ha
  have hp : n + Text.byteLength [] + Text.byteLength [c] = n + 1 := congrArg (n + ·) hsize
  have ht := takes_of_front (l := ⟨⟨n, c :: x⟩, bit⟩) (Lexer.front_of_mark h rfl .none) hk
  rw [hp] at ht
  exact ht hr

theorem start_of_mark {c : Char} (h : (c, k) ∈ Lexer.marks) (n : Nat) (bit : Bool) (x : List Char) :
    (⟨⟨n, c :: x⟩, bit⟩ : Lexer).hand.span.start = n := by
  rw [hand_of_next (Lexer.front_of_mark (l := ⟨⟨n, c :: x⟩, bit⟩) (g := []) h rfl .none).next rfl]
  rfl

/-! ## From operands to pieces of text -/

theorem Fills.of_unary (h : Derives false .unary ⟨⟨n, t ++ y⟩, true⟩ e ⟨⟨n + Text.byteLength t, y⟩, bit⟩)
    (hs : (⟨⟨n, t ++ y⟩, true⟩ : Lexer).hand.span.start = n) (hy : Closer y) : Fills n t y e := by
  have hd := h.assignment_of_unary (hy.endsAssignment _ _)
  refine ⟨⟨bit, hd⟩, ?_⟩
  have hspan : e.span = Lexer.upTo ⟨⟨n, t ++ y⟩, true⟩ _ := hd.spanned
  rw [hspan, Lexer.upTo, hs]

theorem Fills.of_primary (h : Derives false .primary ⟨⟨n, t ++ y⟩, true⟩ e ⟨⟨n + Text.byteLength t, y⟩, bit⟩)
    (hs : (⟨⟨n, t ++ y⟩, true⟩ : Lexer).hand.span.start = n)
    (ho : opensPrimary (⟨⟨n, t ++ y⟩, true⟩ : Lexer).hand.kind = true) (hy : Closer y) : Fills n t y e :=
  .of_unary (h.unary_of_primary ho (hy.endsAssignment _ _).1.1) hs hy

/-- A token that is an operand. -/
theorem primary_of_lexeme (make : Span → Expr) (h : Lexeme true t k v)
    (hd : ∀ l l', l.Takes k l' → l.hand.text = String.ofList v → Derives false .primary l (make (l.upTo l')) l') (hy : Closer y)
    (n : Nat) : ∃ bit, Derives false .primary ⟨⟨n, t ++ y⟩, true⟩ (make ⟨n, n + Text.byteLength t⟩)
      ⟨⟨n + Text.byteLength t, y⟩, bit⟩ := by
  have hh := hand_of_lexeme h hy.fence hy.ne_slash n
  have ht := takes_piece h hy.fence hy.ne_slash n _ rfl (hy.hand _ _).1
  have hp := hd _ _ ht (by rw [hh])
  rw [Lexer.upTo, hh] at hp
  exact ⟨_, hp⟩

/-- **A token fills its text.** -/
theorem fills_token (make : Span → Expr) (h : Lexeme true t k v) (ho : opensPrimary k = true)
    (hd : ∀ l l', l.Takes k l' → l.hand.text = String.ofList v → Derives false .primary l (make (l.upTo l')) l') (hy : Closer y)
    (n : Nat) : Fills n t y (make ⟨n, n + Text.byteLength t⟩) := by
  obtain ⟨bit, hp⟩ := primary_of_lexeme make h hd hy n
  have hh := hand_of_lexeme h hy.fence hy.ne_slash n
  exact .of_primary hp (by rw [hh]) (by rw [hh]; exact ho) hy

/-! ## Signs -/

/-- **A negated operand fills its text.** -/
theorem fills_negated (make : Span → Expr) (h : Lexeme true t k v) (ho : opensPrimary k = true)
    (hd : ∀ l l', l.Takes k l' → l.hand.text = String.ofList v → Derives false .primary l (make (l.upTo l')) l')
    (hc : ∃ c, t.head? = some c ∧ c ≠ '-' ∧ c ≠ '=') (hy : Closer y) (n : Nat) :
    ∃ s, Fills n ('-' :: t) y (.unary s .negate (make ⟨n + 1, n + 1 + Text.byteLength t⟩)) := by
  obtain ⟨bit, hp⟩ := primary_of_lexeme make h hd hy (n + 1)
  have hh := hand_of_lexeme h hy.fence hy.ne_slash (n + 1)
  have hu := hp.unary_of_primary (by rw [hh]; exact ho) (hy.endsAssignment _ _).1.1
  obtain ⟨c, hc, h₁, h₂⟩ := hc
  obtain ⟨u, rfl⟩ := List.head?_eq_some_iff.1 hc
  have hf : Lexer.Front ⟨⟨n, '-' :: (c :: u ++ y)⟩, true⟩ [] ['-'] (c :: u ++ y) .minus ['-'] false :=
    ⟨rfl, .none, Token.trivia_of_not_mem_fences (by decide) _, nofun, Token.scan_minus h₁ h₂ _ _⟩
  have hsteps := takes_of_front hf nofun (hp.ready_start rfl)
  have hhand := hand_of_next hf.next rfl
  have hlen : n + Text.byteLength ('-' :: c :: u) = n + 1 + Text.byteLength (c :: u) := by
    rw [Text.byteLength_cons, ← Nat.add_assoc]
    rfl
  have hd : Derives false .unary _ (.unary _ .negate _) _ := .unary hsteps.toSteps (by rw [hhand]; rfl) hu
  exact ⟨_, .of_unary (by rw [hlen]; exact hd) (by rw [List.cons_append, hhand]; rfl) hy⟩

/-! ## Calls and groups -/

/-- A name is one in front of a parenthesis too. -/
theorem front_of_callee {name : List Char} (h : Lexeme true name .identifier v) (z : List Char) (n : Nat) :
    (⟨⟨n, name ++ '(' :: z⟩, true⟩ : Lexer).Front [] name ('(' :: z) .identifier name false := by
  obtain ⟨-, ⟨hfirst, hall⟩, hk⟩ := h.identifier
  rcases name with _ | ⟨c, cs⟩
  · cases hfirst
  · have hf := @Lexer.front_of_name ⟨⟨n, c :: cs ++ '(' :: z⟩, true⟩ ('(' :: z) c cs (by simpa using hfirst)
      (List.forall_mem_cons.1 hall).2 (by rintro d ⟨⟩; decide +kernel) rfl
    rwa [show Token.kindOfName (String.ofList (c :: cs)) = .identifier by rw [Token.kindOfName, hk]] at hf

/-- **A call fills the text of a name, a parenthesis and its arguments.** -/
theorem fills_call {name w : List Char} {args : List Expr} (h : Lexeme true name .identifier name) (hy : Closer y) (n : Nat)
    (hargs : ∃ bit, Derives false .argumentsRest ⟨⟨n + Text.byteLength name + 1, w ++ y⟩, true⟩ args
      ⟨⟨n + Text.byteLength name + 1 + Text.byteLength w, y⟩, bit⟩) :
    ∃ s s', Fills n (name ++ '(' :: w) y (.call s (.identifier s' (String.ofList name)) args) := by
  obtain ⟨bit, hargs⟩ := hargs
  have hf := front_of_callee h (w ++ y) n
  have ho := takes_sign (c := '(') (k := .lParen) (by decide) (n + Text.byteLength name) false true rfl (hargs.ready_start rfl)
  have hname := takes_of_front hf nofun ho.ready
  have hhand := hand_of_next hf.next rfl
  have hcallee : Derives false .primary _ _ _ := .identifier hname
  rw [hhand] at hcallee
  have hchain : Derives false (.chain true) _ _ _ := .primaryChain (by rw [hhand]; nofun) hcallee
  have hends := hy.endsAssignment (n + Text.byteLength name + 1 + Text.byteLength w) bit
  have hcall := Derives.noPrefix (by rw [hhand]; rfl) (by rw [hhand]; rfl)
    (.noUpdate (.member (.call hchain ho hargs) hends.1.1.1) hends.1.1.2)
  have hlen : n + Text.byteLength (name ++ '(' :: w) = n + Text.byteLength name + 1 + Text.byteLength w := by
    rw [Text.byteLength_append, Text.byteLength_cons, ← Nat.add_assoc, ← Nat.add_assoc]
    rfl
  have hrest : name ++ '(' :: w ++ y = name ++ '(' :: (w ++ y) := by rw [List.append_assoc, List.cons_append]
  exact ⟨_, _, .of_unary (by rw [hlen, hrest]; exact hcall) (by rw [hrest, hhand]; rfl) hy⟩

/-- An expression does not start with what closes one. -/
theorem Derives.ne_of_closes {b : Bool} (h : Derives b .assignment l e l') (hk : closes k = true) : l.hand.kind ≠ k := by
  rintro rfl
  rw [h.led.not_closes] at hk
  cases hk

/-- What stands in front of a closing mark that is taken. -/
theorem Fills.closed {c : Char} (h : Fills n t (c :: y) e) (hc : (c, k) ∈ Lexer.marks) (hy : Closer y) :
    ∃ l₁ bit, Derives false .assignment ⟨⟨n, t ++ c :: y⟩, true⟩ e l₁ ∧
      l₁.Takes k ⟨⟨n + Text.byteLength t + 1, y⟩, bit⟩ := by
  obtain ⟨bit, hd⟩ := h.derives
  exact ⟨_, _, hd, takes_sign hc _ _ _ rfl (hy.hand _ _).1⟩

theorem arguments_one (h : Fills n t (')' :: y) e) (hy : Closer y) :
    ∃ bit, Derives false .argumentsRest ⟨⟨n, t ++ [')'] ++ y⟩, true⟩ [e] ⟨⟨n + Text.byteLength (t ++ [')']), y⟩, bit⟩ := by
  obtain ⟨l₁, bit, hd, hc⟩ := h.closed (k := .rParen) (by decide) hy
  have hlen : n + Text.byteLength (t ++ [')']) = n + Text.byteLength t + 1 := by
    rw [Text.byteLength_append, ← Nat.add_assoc]
    rfl
  rw [hlen, List.append_assoc]
  exact ⟨bit, .lastArgument (hd.ne_of_closes rfl) hd hc⟩

/-- **A group fills the text between its parentheses.** -/
theorem fills_group (h : Fills (n + 1) t (')' :: y) e) (hy : Closer y) :
    ∃ s, Fills n ('(' :: (t ++ [')'])) y (.group s e) := by
  obtain ⟨l₁, bit, hd, hc⟩ := h.closed (k := .rParen) (by decide) hy
  have ho := takes_sign (c := '(') (k := .lParen) (by decide) n true true rfl (hd.ready_start rfl)
  have hg := Derives.group ho (.single hd (by rw [hc.kind]; nofun)) hc
  have hlen : n + Text.byteLength ('(' :: (t ++ [')'])) = n + 1 + Text.byteLength t + 1 := by
    rw [Text.byteLength_cons, Text.byteLength_append, ← Nat.add_assoc, ← Nat.add_assoc]
    rfl
  have hrest : '(' :: (t ++ [')']) ++ y = '(' :: (t ++ ')' :: y) := by
    rw [List.cons_append, List.append_assoc]
    rfl
  exact ⟨_, .of_primary (by rw [hlen, hrest]; exact hg) (start_of_mark (k := .lParen) (by decide) n true _)
    (by rw [hrest, ho.kind]; rfl) hy⟩

/-! ## Texts that are expressions by themselves -/

/-- A text that is an expression from its first byte to its last is read to its end. -/
theorem derives_of_parse {text : String} (hp : parseExpressionAt text 0 = .ok e)
    (hs : e.span = ⟨0, Text.byteLength text.toList⟩) :
    ∃ bit, Derives false .expression (.ofSource text.toList) e ⟨⟨Text.byteLength text.toList, []⟩, bit⟩ := by
  obtain ⟨-, ⟨⟨pos, rest⟩, bit⟩, -, h⟩ := parseExpressionAt_zero.1 hp
  obtain ⟨pre, hsplit, hpos⟩ := h.goes.before.split
  have hspan : e.span = Lexer.upTo _ _ := h.spanned
  rw [hs] at hspan
  obtain rfl : Text.byteLength text.toList = pos := congrArg Span.stop hspan
  obtain rfl : rest = [] := by
    rw [hsplit, Text.byteLength_append] at hpos
    exact Token.byteLength_eq_zero.1 (by dsimp only at hpos; omega)
  exact ⟨bit, h⟩

/-- **What is an expression by itself fills its text**, unless it is a sequence. -/
theorem fills_of_parse {text : String} (hp : parseExpressionAt text 0 = .ok e)
    (hs : e.span = ⟨0, Text.byteLength text.toList⟩) (hne : ∀ s items, e ≠ .sequence s items) (hy : Closer y) (n : Nat) :
    Fills n text.toList y (e.move (.right n)) := by
  obtain ⟨bit, h⟩ := derives_of_parse hp hs
  have hd : Derives false .assignment (.ofSource text.toList) e ⟨⟨Text.byteLength text.toList, []⟩, bit⟩ := by
    cases h with
    | single h _ => exact h
    | sequence => exact absurd rfl (hne _ _)
  obtain ⟨l'', bit', hd, rfl⟩ := hd.in_context rfl hy n
  refine ⟨⟨bit', hd⟩, ?_⟩
  rw [Expr.span_move, hs]
  simp only [Span.move, Move.right, Nat.zero_add, Nat.add_comm n]

/-- **What fills a whole text is what the text is read as.** -/
theorem Fills.parse {text : String} (h : Fills 0 text.toList [] e) :
    parseExpressionAt text 0 = .ok e ∧ e.span = ⟨0, Text.byteLength text.toList⟩ := by
  obtain ⟨bit, hd⟩ := h.derives
  rw [List.append_nil] at hd
  have hend := @ready_of_rest_eq_nil ⟨⟨0 + Text.byteLength text.toList, []⟩, bit⟩ rfl
  refine ⟨parseExpressionAt_zero.2 ⟨hd.ready_start rfl, _, hend.1, .single hd (by rw [hend.2]; nofun)⟩, ?_⟩
  rw [h.span, Nat.zero_add]

/-! ## Behind a blank -/

/-- The texts between a comma or a bracket and an element. -/
def Apart (g : List Char) : Prop := g = [] ∨ g = [' ']

/-- A mark is taken behind a bracket or a comma, and behind a blank. -/
theorem takes_apart {g : List Char} {c : Char} (h : (c, k) ∈ Lexer.marks) (hg : Apart g) (hb : (!k.endsOperand) = bit)
    (hr : Lexer.Ready ⟨⟨n + Text.byteLength g + 1, x⟩, bit⟩) :
    (⟨⟨n, g ++ c :: x⟩, true⟩ : Lexer).Takes k ⟨⟨n + Text.byteLength g + 1, x⟩, bit⟩ := by
  have ht := takes_sign h (n + Text.byteLength g) true bit hb hr
  rcases hg with rfl | rfl
  · exact ht
  · exact takes_of_next (next_blank ht.ready ht.more) ht

/-- **What fills a text is read behind a blank too**, and so is what closes it. -/
theorem Fills.behind {g : List Char} {c : Char} (h : Fills (n + Text.byteLength g) t (c :: y) e) (hg : Apart g)
    (hc : (c, k) ∈ Lexer.marks) (hb : (!k.endsOperand) = bit)
    (hr : Lexer.Ready ⟨⟨n + Text.byteLength g + Text.byteLength t + 1, y⟩, bit⟩) :
    ∃ l₁, Derives false .assignment ⟨⟨n, g ++ (t ++ c :: y)⟩, true⟩ e l₁ ∧
      l₁.Takes k ⟨⟨n + Text.byteLength g + Text.byteLength t + 1, y⟩, bit⟩ := by
  obtain ⟨bit', hd⟩ := h.derives
  have ht := takes_sign hc (n + Text.byteLength g + Text.byteLength t) bit' bit hb hr
  rcases hg with rfl | rfl
  · exact ⟨_, hd, ht⟩
  · have hready := hd.ready_start rfl
    have hk : (⟨⟨n + 1, t ++ c :: y⟩, true⟩ : Lexer).hand.kind ≠ .eof := fun hk => by
      have := hd.led.not_closes
      rw [show Text.byteLength [' '] = 1 from rfl, hk] at this
      cases this
    obtain ⟨l₁, hd₁, hs⟩ := hd.of_next hready (next_blank hready hk)
    exact ⟨l₁, hd₁, (alike_of_state hs).symm.takes (hd₁.ready (ready_of_next (next_blank hready hk) hready)) ht⟩

end Readback.Grammar
