import Readback.Proofs.Grammar.Context
import Readback.Proofs.Grammar.Layer
/-!
# Tokens that are written

A place before tokens with blanks between them: what is in hand there, and what is taken.  A tree is read from its tokens
(`Layer.Reads`) when what is behind them does not go on with it.  What that is depends on the layer of the tree
(`Layer.Ends`), and so does what a tree can start with (`Layer.opens`).  This is shown here for the trees of one token.
-/
namespace Readback

namespace Grammar

open Token (Kind Gap Lexeme Fence)

variable {b bit newline : Bool} {g v : List Char} {t : String} {ts us : List String} {k : Kind} {n : Nat}
variable {P Q : Token → Prop}

/-! ## Places between written tokens -/

/-- Tokens, each with a blank before it. -/
def blanked (ts : List String) : List Char := ts.flatMap (fun t => ' ' :: t.toList)

/-- Tokens, with a gap before the first and a blank before each other. -/
def spaced (g : List Char) : List String → List Char
  | []      => []
  | t :: ts => g ++ (t.toList ++ blanked ts)

/-- The place before tokens. -/
def spot (g : List Char) (n : Nat) (bit : Bool) (ts : List String) : Lexer := ⟨⟨n, spaced g ts⟩, bit⟩

theorem blanked_eq (ts : List String) : blanked ts = spaced [' '] ts := by
  cases ts with
  | nil => rfl
  | cons t ts => rfl

theorem spot_blank (n : Nat) (bit : Bool) (ts : List String) : spot [' '] n bit ts = ⟨⟨n, blanked ts⟩, bit⟩ := by
  rw [spot, blanked_eq]

theorem gap_blank : Gap [' '] false := .space (by decide) .none

/-- There is a token in hand, and it does not start behind a place. -/
def Near (l : Lexer) (limit : Nat) : Prop := l.Ready ∧ l.hand.span.start ≤ limit

/-- Wherever the tokens stand, there is one in hand right behind the gap, and it is as asked for. -/
def Faces (g : List Char) (bit : Bool) (ts : List String) (P : Token → Prop) : Prop :=
  ∀ n, Near (spot g n bit ts) (n + Text.byteLength g) ∧ P (spot g n bit ts).hand

theorem Faces.mono (h : Faces g bit ts P) (hq : ∀ t, P t → Q t) : Faces g bit ts Q := fun n => ⟨(h n).1, hq _ (h n).2⟩

theorem front_of_lexeme (h : Lexeme bit t.toList k v) (hg : Gap g newline) (ts : List String) (n : Nat) :
    (spot g n bit (t :: ts)).Front g t.toList (blanked ts) k v newline := by
  refine h.front hg ?_ ?_ n
  · cases ts with
    | nil => exact .nil _
    | cons t ts => exact .of_mem (by decide) _ _
  · cases ts with
    | nil => nofun
    | cons t ts => exact fun h => absurd (Option.some.inj h) (by decide)

/-- The first token is in hand. -/
theorem faces_of_lexeme (h : Lexeme bit t.toList k v) (hg : Gap g newline) (ts : List String) :
    Faces g bit (t :: ts) (fun u => u.kind = k ∧ u.text = String.ofList v ∧ u.newlineBefore = newline) := by
  intro n
  have ho := congrArg Lexer.Step.outcome (front_of_lexeme h hg ts n).next
  have hh := Lexer.hand_of_outcome ho
  exact ⟨⟨⟨_, ho⟩, by rw [hh]; exact Nat.le_refl _⟩, by rw [hh]; exact ⟨rfl, rfl, rfl⟩⟩

/-- **The first token is taken.** -/
theorem takes_of_lexeme (h : Lexeme bit t.toList k v) (hg : Gap g newline) {next : Bool} (hn : Faces [' '] next ts P)
    (hb : k.endsOperand = !next) (n : Nat) : ∃ n', (spot g n bit (t :: ts)).Takes k (spot [' '] n' next ts) := by
  have hf := front_of_lexeme h hg ts n
  have hh := faces_of_lexeme h hg ts n
  refine ⟨n + Text.byteLength g + Text.byteLength t.toList, ⟨hh.1.1, hh.2.1 ▸ h.kind_ne_eof, ?_, (hn _).1.1⟩, hh.2.1⟩
  have ha : Lexer.allowsRegex bit k = next := by
    have := h.kind_ne_eof
    unfold Lexer.allowsRegex
    split
    · exact absurd rfl this
    · rw [hb, Bool.not_not]
  rw [hf.next, spot_blank]
  simp only [spot, ha]

/-! ## Texts of single tokens -/

theorem lexeme_mark {c : Char} (h : (c, k) ∈ Lexer.marks) (bit : Bool) : Lexeme bit (String.singleton c).toList k [c] := by
  have hf := @Lexer.front_of_mark ⟨⟨0, [c]⟩, bit⟩ [] [] false c k h rfl .none
  rw [String.toList_singleton]
  exact .of_front hf

/-- The operators in front of an operand. -/
theorem lexeme_unary (op : UnaryOp) (bit : Bool) :
    ∃ k, Lexeme bit op.text.toList k op.text.toList ∧ unaryOp? k = some op ∧ k.endsOperand = false ∧ closes k = false := by
  cases op
  case negate => exact ⟨.minus, Token.lexeme_punctuator (by decide) nofun, rfl, rfl, rfl⟩
  case plus => exact ⟨.plus, Token.lexeme_punctuator (by decide) nofun, rfl, rfl, rfl⟩
  case not => exact ⟨.bang, Token.lexeme_punctuator (by decide) nofun, rfl, rfl, rfl⟩
  case bitNot => exact ⟨.tilde, Token.lexeme_punctuator (by decide) nofun, rfl, rfl, rfl⟩
  case typeof => exact ⟨.keyword .typeof, Token.lexeme_keyword (by decide) bit, rfl, rfl, rfl⟩
  case void => exact ⟨.keyword .void, Token.lexeme_keyword (by decide) bit, rfl, rfl, rfl⟩
  case delete => exact ⟨.keyword .delete, Token.lexeme_keyword (by decide) bit, rfl, rfl, rfl⟩

theorem lexeme_update (op : UpdateOp) (bit : Bool) : ∃ k, Lexeme bit op.text.toList k op.text.toList ∧
    updateOp? k = some op ∧ unaryOp? k = none ∧ k.endsOperand = true ∧ closes k = false := by
  cases op
  case increment => exact ⟨.plusPlus, Token.lexeme_punctuator (by decide) nofun, rfl, rfl, rfl, rfl⟩
  case decrement => exact ⟨.minusMinus, Token.lexeme_punctuator (by decide) nofun, rfl, rfl, rfl, rfl⟩

/-- The kinds of the tokens of binary operators. -/
def kindOfBinary : BinaryOp → Kind
  | .add => .plus | .sub => .minus | .mul => .star | .div => .slash | .mod => .percent | .pow => .starStar
  | .equal => .equalEqual | .notEqual => .bangEqual | .strictEqual => .strictEqual | .strictNotEqual => .strictNotEqual
  | .less => .less | .lessEqual => .lessEqual | .greater => .greater | .greaterEqual => .greaterEqual
  | .shiftLeft => .shiftLeft | .shiftRight => .shiftRight | .unsignedShiftRight => .unsignedShiftRight
  | .bitAnd => .ampersand | .bitOr => .pipe | .bitXor => .caret
  | .and => .doubleAmpersand | .or => .doublePipe | .nullish => .doubleQuestion
  | .in => .keyword .in | .instanceof => .keyword .instanceof

/-- The operators between operands, where a slash divides. -/
theorem lexeme_binary (op : BinaryOp) : ∃ k, Lexeme false op.text.toList k op.text.toList ∧ binaryOp? k = some op ∧
    k.endsOperand = false ∧ extendsChain true k = false ∧ updateOp? k = none := by
  have hp : op ≠ .in → op ≠ .instanceof → (op.text.toList, kindOfBinary op) ∈ Token.punctuators := by
    cases op <;> first | exact fun h _ => absurd rfl h | exact fun _ h => absurd rfl h | exact fun _ _ => by decide
  refine ⟨kindOfBinary op, ?_, by cases op <;> exact ⟨rfl, rfl, rfl, rfl⟩⟩
  by_cases hin : op = .in
  · subst hin
    exact Token.lexeme_keyword (by decide) _
  by_cases hof : op = .instanceof
  · subst hof
    exact Token.lexeme_keyword (by decide) _
  · exact Token.lexeme_punctuator (hp hin hof) (fun _ => rfl)

/-- The signs of assignments, where a slash divides. -/
theorem lexeme_assign {op : Option BinaryOp} (h : ∀ o, op = some o → compoundOp? (assignText op) = some o) :
    ∃ k, Lexeme false (assignText op).toList k (assignText op).toList ∧
      (∀ u : Token, u.kind = k → u.text = assignText op → assignOp? u = some op) ∧
      k.endsOperand = false ∧ extendsChain true k = false ∧ updateOp? k = none ∧ binaryOp? k = none ∧ k ≠ .question := by
  cases op with
  | none =>
    refine ⟨.assign, Token.lexeme_punctuator (by decide) (fun _ => rfl), fun u hk _ => ?_, rfl, rfl, rfl, rfl, by decide⟩
    simp [assignOp?, hk]
  | some o =>
    have hall : ∀ p ∈ compoundOps, (p.1.toList, Kind.compoundAssign) ∈ Token.punctuators := by decide +kernel
    have hc := h o rfl
    have hp : ((assignText (some o)).toList, Kind.compoundAssign) ∈ Token.punctuators := by
      unfold compoundOp? at hc
      obtain ⟨p, hp, -⟩ := Option.map_eq_some_iff.1 hc
      have ht : p.1 = assignText (some o) := by simpa using List.find?_some hp
      exact ht ▸ hall p (List.mem_of_find?_eq_some hp)
    refine ⟨.compoundAssign, Token.lexeme_punctuator hp (fun _ => rfl), fun u hk ht => ?_, rfl, rfl, rfl, rfl, by decide⟩
    simp [assignOp?, hk, ht, hc]

end Grammar

/-! ## What a layer asks for -/

namespace Layer

open Grammar
open Token (Kind)

/-- What may be in hand behind an expression of a layer. -/
def Ends : Layer → Token → Prop
  | .expression, t                  => endsExpression t
  | .assignment, t | .conditional, t => endsAssignment t
  | .binary least, t                => endsUnary t ∧ ∀ op, binaryOp? t.kind = some op → op.leftPrecedence ≤ least
  | .unary, t | .update, t          => endsUnary t
  | .chain _, _ | .primary, _       => True

/-- What may be in hand in front of an expression of a layer. -/
def opens : Layer → Kind → Bool
  | .primary, k            => opensPrimary k && !closes k
  | .chain _, k | .update, k => (unaryOp? k).isNone && (updateOp? k).isNone && !closes k
  | _, k                   => !closes k

/-- There is an expression of a layer from one place to another.  Operators of a layer are read by every looser one too. -/
def Derives (b : Bool) : Layer → Lexer → Expr → Lexer → Prop
  | .expression, l, e, l'   => Grammar.Derives b .expression l e l'
  | .assignment, l, e, l'   => Grammar.Derives b .assignment l e l'
  | .conditional, l, e, l'  => Grammar.Derives b .conditional l e l'
  | .binary least, l, e, l' => ∀ m ≤ least, Grammar.Derives b (.operators m) l e l'
  | .unary, l, e, l'        => Grammar.Derives b .unary l e l'
  | .update, l, e, l'       => Grammar.Derives b .update l e l'
  | .chain calls, l, e, l'  => Grammar.Derives b (.chain calls) l e l'
  | .primary, l, e, l'      => Grammar.Derives b .primary l e l'

theorem ne_of_opens {layer : Layer} {j k : Kind} (h : layer.opens j = true) (hk : closes k = true) : j ≠ k := by
  rintro rfl
  cases layer <;> simp_all [opens]

/-- **The tokens of a tree are read as the tree**, wherever they stand, when what is behind them lets it end. -/
def Reads (layer : Layer) (e : Expr) : Prop :=
  ∀ (b bit : Bool) (g : List Char) (ts : List String), Token.Gap g false → Faces [' '] false ts layer.Ends →
    Faces g bit (e.tokens ++ ts) (layer.opens ·.kind = true) ∧
    ∀ n, ∃ e' n', layer.Derives b (spot g n bit (e.tokens ++ ts)) e' (spot [' '] n' false ts) ∧ e'.bare = e.bare

/-- An expression of a tighter layer is one of a looser layer. -/
theorem Reads.loosen {tight loose : Layer} {e : Expr} (h : tight.Reads e)
    (hends : ∀ t, loose.Ends t → tight.Ends t) (hopens : ∀ k, tight.opens k = true → loose.opens k = true)
    (hd : ∀ b l e l', tight.opens l.hand.kind = true → loose.Ends l'.hand → tight.Derives b l e l' → loose.Derives b l e l') :
    loose.Reads e := by
  intro b bit g ts hg hy
  obtain ⟨hf, hr⟩ := h b bit g ts hg (hy.mono hends)
  refine ⟨hf.mono fun t => hopens t.kind, fun n => ?_⟩
  obtain ⟨e', n', he, hb⟩ := hr n
  exact ⟨e', n', hd b _ _ _ (hf n).2 (hy n').2 he, hb⟩

end Layer

namespace Grammar

open Token (Kind Gap Lexeme Fence)

variable {b bit newline : Bool} {g v : List Char} {t : String} {ts us : List String} {k : Kind} {n : Nat}
variable {P Q : Token → Prop}

/-! ## Looser layers -/

theorem reads_chain {e : Expr} {calls : Bool} (h : Layer.primary.Reads e) : (Layer.chain calls).Reads e := by
  refine h.loosen (fun _ _ => trivial) (fun k hk => ?_) (fun b l e l' ho _ hd => .primaryChain ?_ hd)
  · simp only [Layer.opens, opensPrimary, Bool.and_eq_true] at hk ⊢
    exact ⟨⟨hk.1.1.2, hk.1.2⟩, hk.2⟩
  · simp only [Layer.opens, opensPrimary, Bool.and_eq_true, bne_iff_ne] at ho
    exact ho.1.1.1

theorem reads_update {e : Expr} (h : (Layer.chain true).Reads e) : Layer.update.Reads e :=
  h.loosen (fun _ _ => trivial) (fun _ hk => hk) (fun _ _ _ _ _ he hd => .noUpdate (.member hd he.1) he.2)

theorem reads_unary {e : Expr} (h : Layer.update.Reads e) : Layer.unary.Reads e := by
  refine h.loosen (fun _ he => he) (fun k hk => by simp_all [Layer.opens]) (fun b l e l' ho _ hd => ?_)
  simp only [Layer.opens, Bool.and_eq_true, Option.isNone_iff_eq_none] at ho
  exact .noPrefix ho.1.1 ho.1.2 hd

theorem reads_binary {e : Expr} {least : Nat} (h : Layer.unary.Reads e) : (Layer.binary least).Reads e :=
  h.loosen (fun _ he => he.1) (fun _ hk => hk) (fun _ _ _ _ _ _ hd _ _ => .operators hd)

/-- Behind an assignment there is no operator of any layer. -/
theorem binaryOp_of_endsAssignment {t : Token} (h : endsAssignment t) : binaryOp? t.kind = none := by
  have := h.1.2
  unfold operatorHere? at this
  cases ho : binaryOp? t.kind with
  | none => rfl
  | some op => rw [ho] at this; simp at this

theorem ends_binary_of_endsAssignment {t : Token} {least : Nat} (h : endsAssignment t) : (Layer.binary least).Ends t :=
  ⟨h.1.1, fun op ho => by rw [binaryOp_of_endsAssignment h] at ho; cases ho⟩

theorem reads_conditional {e : Expr} (h : (Layer.binary 0).Reads e) : Layer.conditional.Reads e :=
  h.loosen (fun _ he => ends_binary_of_endsAssignment he) (fun _ hk => hk)
    (fun _ _ _ _ _ he hd => .noChoice (.binary (hd 0 (Nat.le_refl 0)) he.1.2) he.2.1)

theorem reads_assignment {e : Expr} (h : Layer.conditional.Reads e) : Layer.assignment.Reads e :=
  h.loosen (fun _ he => he) (fun _ hk => hk) (fun _ _ _ _ _ he hd => .noAssign hd he.2.2)

theorem reads_expression {e : Expr} (h : Layer.assignment.Reads e) : Layer.expression.Reads e :=
  h.loosen (fun _ he => he.1) (fun _ hk => hk) (fun _ _ _ _ _ he hd => .single hd he.2)

/-! ## Single tokens -/

/-- A tree of one token. -/
theorem reads_token {e : Expr} (ht : e.tokens = [t]) (hl : ∀ bit, Lexeme bit t.toList k v)
    (hk : opensPrimary k = true ∧ closes k = false ∧ k.endsOperand = true)
    (hd : ∀ b l l', l.Takes k l' → l.hand.text = String.ofList v → ∃ e', Derives b .primary l e' l' ∧ e'.bare = e.bare) :
    Layer.primary.Reads e := by
  obtain ⟨ho, hc, hb⟩ := hk
  intro b bit g ts hg hy
  rw [ht]
  have hf := faces_of_lexeme (hl bit) hg ts
  refine ⟨hf.mono fun u hu => ?_, fun n => ?_⟩
  · simp [Layer.opens, hu.1, ho, hc]
  · obtain ⟨n', ht⟩ := takes_of_lexeme (hl bit) hg hy hb n
    obtain ⟨e', he, hb⟩ := hd b _ _ ht (hf n).2.2.1
    exact ⟨e', n', he, hb⟩

theorem reads_word {s : Span} {w : String} (word : Keyword) {v : Literal} (hw : (w, word) ∈ Keyword.table)
    (ht : (Expr.literal s v).tokens = [w]) (hv : wordLiteral? (.keyword word) = some v) :
    Layer.primary.Reads (.literal s v) := by
  refine reads_token ht (Token.lexeme_keyword hw) ?_ (fun b l l' hl _ => ⟨_, .word hl.toSteps (hl.kind ▸ hv), rfl⟩)
  cases word <;> first | exact ⟨rfl, rfl, rfl⟩ | exact nomatch hv

theorem reads_number {s : Span} (size : Magnitude) : Layer.primary.Reads (.literal s (.number (.finite false size))) := by
  obtain ⟨-, -, -, -, -, -, hr⟩ := Number.spells_sizeText size
  refine reads_token rfl (v := Number.sizeText size) (fun bit => ?_) ⟨rfl, rfl, rfl⟩
    (fun b l l' hl ht => ⟨_, .number hl (by rw [ht, String.toList_ofList]; exact hr), rfl⟩)
  rw [Number.source, String.toList_ofList]
  exact Token.lexeme_number size bit

theorem reads_text {s : Span} (value : String) : Layer.primary.Reads (.literal s (.text value)) := by
  refine reads_token rfl (v := value.toList) (fun bit => ?_) ⟨rfl, rfl, rfl⟩ (fun b l l' hl ht => ⟨_, .text hl, ?_⟩)
  · rw [Text.quote, String.toList_ofList]
    exact Token.lexeme_quote _ bit
  · rw [ht, String.ofList_toList]
    rfl

theorem reads_identifier {s : Span} {name : String} (h : Token.IsToken .identifier name) :
    Layer.primary.Reads (.identifier s name) := by
  refine reads_token rfl h.identifier ⟨rfl, rfl, rfl⟩ (fun b l l' hl ht => ⟨_, .identifier hl, ?_⟩)
  rw [ht, String.ofList_toList]
  rfl

theorem reads_this {s : Span} : Layer.primary.Reads (.this s) :=
  reads_token rfl (Token.lexeme_keyword (by decide)) ⟨rfl, rfl, rfl⟩ (fun _ _ _ hl _ => ⟨_, .this hl, rfl⟩)

/-! ## Regular expressions -/

theorem toList_regexp (pattern flags : String) :
    ("/" ++ pattern ++ "/" ++ flags).toList = '/' :: (pattern.toList ++ '/' :: flags.toList) := by
  simp

/-- Where the flags have no slash, the text of a regular expression is split where it was joined. -/
theorem splitRegex_joined (pattern : String) {flags : String} (hf : '/' ∉ flags.toList) :
    splitRegex ("/" ++ pattern ++ "/" ++ flags).toList = (pattern, flags) := by
  have hrun : ((pattern.toList ++ '/' :: flags.toList).reverse ++ ['/']).takeWhile (· != '/') = flags.toList.reverse := by
    rw [List.reverse_append, List.reverse_cons, List.append_assoc, List.append_assoc,
      List.takeWhile_append_of_pos (fun c hc => ?_)]
    · simp
    · have : c ≠ '/' := fun h => hf (by rw [← h]; exact List.mem_reverse.1 hc)
      simpa using this
  have htake : ('/' :: (pattern.toList ++ '/' :: flags.toList)).length - flags.toList.length - 2 = pattern.toList.length := by
    simp only [List.length_cons, List.length_append]
    omega
  rw [toList_regexp]
  unfold splitRegex
  rw [List.reverse_cons, hrun, List.reverse_reverse]
  dsimp only
  rw [htake, List.drop_one, List.tail_cons, List.take_left, String.ofList_toList, String.ofList_toList]

/-- What begins with a slash begins with a punctuator where no regular expression is allowed. -/
theorem front_of_slash {x : List Char} (hx : Token.trivia ('/' :: x) = .none) (hg : Gap g newline) (n : Nat) :
    ∃ w y k, Lexer.Front ⟨⟨n, g ++ '/' :: x⟩, false⟩ g w y k w newline ∧ w ++ y = '/' :: x ∧
      (k = .slash ∨ k = .compoundAssign ∧ w.head? = some '/') := by
  have hs := Token.scan_slash x
  by_cases he : x.head? = some '='
  · rw [if_pos he] at hs
    obtain ⟨y, rfl⟩ := List.head?_eq_some_iff.1 he
    exact ⟨['/', '='], y, .compoundAssign, ⟨rfl, hg, hx, nofun, hs⟩, rfl, .inr ⟨rfl, rfl⟩⟩
  · rw [if_neg he] at hs
    exact ⟨['/'], x, .slash, ⟨rfl, hg, hx, nofun, hs⟩, rfl, .inl rfl⟩

/-- **A regular expression is read once more** where the bit said that a slash would divide. -/
theorem rereads_of_lexeme (h : Lexeme true t.toList .regex t.toList) (hg : Gap g newline) (hy : Faces [' '] false ts P)
    (n : Nat) :
    Near (spot g n false (t :: ts)) (n + Text.byteLength g) ∧
      ((spot g n false (t :: ts)).hand.kind = .slash ∨ (spot g n false (t :: ts)).hand.kind = .compoundAssign) ∧
      ∃ u n', (spot g n false (t :: ts)).Rereads u (spot [' '] n' false ts) ∧ u.text = t := by
  obtain ⟨-, -, hhead, hr⟩ := h.regex
  have hf := front_of_lexeme h hg ts n
  obtain ⟨x, hx⟩ : ∃ x, t.toList ++ blanked ts = '/' :: x := by
    obtain ⟨x, hx⟩ := List.head?_eq_some_iff.1 hhead
    exact ⟨x ++ blanked ts, by rw [hx, List.cons_append]⟩
  obtain ⟨w, y, k, hw, hwy, hk⟩ := front_of_slash (hx ▸ hf.bare) hg n
  rw [← hx] at hw hwy
  change (spot g n false (t :: ts)).Front g w y k w newline at hw
  have ho := congrArg Lexer.Step.outcome hw.next
  have hh := Lexer.hand_of_outcome ho
  have hfence : Fence [] (blanked ts) := by
    cases ts with
    | nil => exact .nil _
    | cons t ts => exact .of_mem (by decide) _ _
  have hregex : Token.regex (t.toList ++ blanked ts) = ⟨t.toList.length, .ok ()⟩ :=
    Token.regex_fence (x := []) (by rw [List.append_nil]; exact hr) hfence
  obtain ⟨span, c, hagain⟩ : ∃ span c, (spot g n false (t :: ts)).again =
      ⟨.ok ⟨.regex, t, span, newline⟩, c, spot [' '] (n + Text.byteLength g + Text.byteLength t.toList) false ts⟩ := by
    unfold Lexer.again
    rw [hh, hw.next, spot_blank]
    exact ⟨_, _, (Lexer.regexAt_of_regex hwy hregex _ _).trans (by rw [String.ofList_toList]; rfl)⟩
  refine ⟨⟨⟨_, ho⟩, by rw [hh]; exact Nat.le_refl _⟩, ?_, _, _,
    ⟨⟨_, ho⟩, ?_, by rw [hagain], by rw [hagain], (hy _).1.1⟩, rfl⟩
  · rw [hh]
    exact hk.imp id And.left
  · rw [hh]
    exact hk.imp id fun h => ⟨h.1, by rw [String.toList_ofList]; exact h.2⟩

theorem reads_regex {s : Span} {pattern flags : String} (h : IsRegexp pattern flags) (hf : '/' ∉ flags.toList) :
    Layer.primary.Reads (.regex s pattern flags) := by
  obtain ⟨v, hv⟩ := h.lexeme nofun
  obtain ⟨-, rfl, -⟩ := hv.regex
  have hsplit := splitRegex_joined pattern hf
  intro b bit g ts hg hy
  rw [show (Expr.regex s pattern flags).tokens ++ ts = ("/" ++ pattern ++ "/" ++ flags) :: ts from rfl]
  cases bit with
  | true =>
    have hh := faces_of_lexeme hv hg ts
    refine ⟨hh.mono fun u hu => by rw [hu.1]; rfl, fun n => ?_⟩
    obtain ⟨n', ht⟩ := takes_of_lexeme hv hg hy rfl n
    refine ⟨_, n', .regex ht, ?_⟩
    rw [(hh n).2.2.1, String.toList_ofList, hsplit]
    rfl
  | false =>
    refine ⟨fun n => ?_, fun n => ?_⟩
    · obtain ⟨hr, hk, -⟩ := rereads_of_lexeme hv hg hy n
      refine ⟨hr, ?_⟩
      rcases hk with hk | hk <;> exact hk ▸ rfl
    · obtain ⟨-, -, u, n', ht, hu⟩ := rereads_of_lexeme hv hg hy n
      refine ⟨_, n', .slash ht, ?_⟩
      rw [hu, hsplit]
      rfl

/-! ## Marks -/

/-- A mark is in hand. -/
theorem faces_mark {c : Char} (h : (c, k) ∈ Lexer.marks) (ts : List String) (bit : Bool) :
    Faces [' '] bit (String.singleton c :: ts) (·.kind = k) :=
  (faces_of_lexeme (lexeme_mark h bit) gap_blank ts).mono fun _ hu => hu.1

/-- A mark that closes ends an assignment. -/
theorem faces_closer {c : Char} (h : (c, k) ∈ Lexer.marks) (hc : closes k = true) (ts : List String) :
    Faces [' '] false (String.singleton c :: ts) endsAssignment :=
  (faces_mark h ts false).mono fun _ hu => endsAssignment_of_kind hu hc

/-- A mark is taken. -/
theorem takes_mark {c : Char} (h : (c, k) ∈ Lexer.marks) (hg : Gap g newline) (bit : Bool) {next : Bool}
    (hn : Faces [' '] next ts P) (hb : k.endsOperand = !next) (n : Nat) :
    ∃ n', (spot g n bit (String.singleton c :: ts)).Takes k (spot [' '] n' next ts) :=
  takes_of_lexeme (lexeme_mark h bit) hg hn hb n

end Grammar

end Readback
