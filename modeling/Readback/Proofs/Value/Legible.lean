import Readback.Proofs.Date.Text
import Readback.Proofs.Grammar.Fill
import Readback.Proofs.Value.Match
import Readback.Value.Evaluate
/-!
# Texts that spell values

A text is legible with a meaning when, wherever something closes it, it is filled by an expression, and that expression has a
value as the meaning says, in whatever heap it is evaluated.  So legible texts can be put together: there is one lemma for
each way in which a value is written.
-/
namespace Readback

open Grammar
open Token (Lexeme)

/-! ## Meanings -/

/-- What may be said of a value and the heap it is in, and stays true when the heap grows. -/
structure Meaning (α : Type) where
  Holds : Heap → α → Prop
  grows : ∀ {h h' : Heap} {a : α}, h.Grows h' → Holds h a → Holds h' a

namespace Meaning

/-- It is this value. -/
def exactly (v : Value) : Meaning Value := ⟨fun _ w => w = v, fun _ hw => hw⟩

/-- It is an object, and made like this one. -/
def object (o : Object) : Meaning Value where
  Holds h v := ∃ id, v = .object id ∧ h.object? id = some o
  grows     := fun hg ⟨id, hv, ho⟩ => ⟨id, hv, hg id o ho⟩

theorem object_newObject (h : Heap) (o : Object) : (object o).Holds (h.newObject o).2 (h.newObject o).1 :=
  ⟨_, rfl, Heap.object?_newObject h o⟩

end Meaning

/-! ## Evaluating -/

namespace Evaluator

-- The equations of the evaluator are derived at this place, once for all the lemmas below that unfold it.
attribute [local simp] evaluate evaluateCall evaluateElements

variable {α β : Type} {x : Evaluation α} {f : α → Evaluation β} {a : α} {h₁ h₂ : Heap} {m m' : Meaning α}

theorem run_bind (hx : x.run h₁ = .ok (a, h₂)) : (x >>= f).run h₁ = (f a).run h₂ := by
  rw [StateT.run_bind, hx]
  rfl

/-- In whatever heap it begins, the evaluation has a result as the meaning says. -/
def Gives (x : Evaluation α) (m : Meaning α) : Prop :=
  ∀ h₁, ∃ a h₂, x.run h₁ = .ok (a, h₂) ∧ h₁.Grows h₂ ∧ m.Holds h₂ a

theorem Gives.imp (hx : Gives x m) (hm : ∀ h a, m.Holds h a → m'.Holds h a) : Gives x m' := by
  intro h₁
  obtain ⟨a, h₂, hrun, hg, ha⟩ := hx h₁
  exact ⟨a, h₂, hrun, hg, hm h₂ a ha⟩

/-- An evaluation that does nothing to the heap. -/
theorem Gives.of_exactly {x : Evaluation Value} {v : Value} (hx : ∀ h₁, x.run h₁ = .ok (v, h₁)) : Gives x (.exactly v) :=
  fun h₁ => ⟨v, h₁, hx h₁, .refl _, rfl⟩

/-- An evaluation that makes a new object. -/
theorem Gives.of_newObject {x : Evaluation Value} {o : Object} (hx : ∀ h₁, x.run h₁ = .ok (h₁.newObject o)) :
    Gives x (.object o) :=
  fun h₁ => ⟨_, _, hx h₁, h₁.grows_newObject o, Meaning.object_newObject h₁ o⟩

end Evaluator

open Evaluator (Gives)

/-! ## Legible texts -/

/-- The text is legible with a meaning, for readers who have the registry. -/
def Legible (m : Meaning Value) (reg : Registry) (t : List Char) : Prop :=
  ∀ (n : Nat) (y : List Char), Closer y → ∃ e, Fills n t y e ∧
    ∀ pre, Text.byteLength pre = n → Gives (Evaluator.evaluate ⟨pre ++ (t ++ y), reg⟩ e) m

variable {m m' : Meaning Value} {reg : Registry} {t w : List Char} {k : Token.Kind} {v : Value} {o : Object}

theorem Legible.imp (ht : Legible m reg t) (hm : ∀ h v, m.Holds h v → m'.Holds h v) : Legible m' reg t := by
  intro n y hy
  obtain ⟨e, hf, he⟩ := ht n y hy
  exact ⟨e, hf, fun pre hpre => (he pre hpre).imp hm⟩

/-- A token that is an operand. -/
theorem legible_token (make : Span → Expr) (hl : Lexeme true t k w) (ho : opensPrimary k = true)
    (hd : ∀ l l', l.Takes k l' → l.hand.text = String.ofList w → Derives false .primary l (make (l.upTo l')) l')
    (he : ∀ (ev : Evaluator) s, Gives (ev.evaluate (make s)) m) : Legible m reg t :=
  fun n _ hy => ⟨_, fills_token make hl ho hd hy n, fun _ _ => he _ _⟩

/-! ## Primitives -/

theorem derives_identifier (name : String) (l l' : Lexer) (ht : l.Takes .identifier l')
    (hw : l.hand.text = String.ofList name.toList) : Derives false .primary l (.identifier (l.upTo l') name) l' := by
  rw [← String.ofList_toList (s := name), ← hw]
  exact .identifier ht

/-- The names that are values themselves. -/
def wordValues : List (String × Value) :=
  [("undefined", .undefined), ("NaN", .number .nan), ("Infinity", .number (.infinite false))]

theorem lexeme_wordValue {name : String} (hp : (name, v) ∈ wordValues) :
    Lexeme true name.toList .identifier name.toList := by
  have hall : wordValues.all (fun p => p.1.toList.head?.any Token.startsName && p.1.toList.all Token.continuesName &&
      (Keyword.ofText? p.1).isNone) = true := by decide +kernel
  have := List.all_eq_true.1 hall _ hp
  simp only [Bool.and_eq_true, List.all_eq_true, Option.isNone_iff_eq_none] at this
  exact Token.lexeme_identifier this.1 (by rw [String.ofList_toList]; exact this.2) true

theorem evaluate_wordValue {name : String} (hp : (name, v) ∈ wordValues) (ev : Evaluator) (s : Span) (h₁ : Heap) :
    (ev.evaluate (.identifier s name)).run h₁ = .ok (v, h₁) := by
  rw [Evaluator.evaluate, Evaluator.name]
  simp only [wordValues, List.mem_cons, List.not_mem_nil, or_false, Prod.mk.injEq] at hp
  rcases hp with ⟨rfl, rfl⟩ | ⟨rfl, rfl⟩ | ⟨rfl, rfl⟩ <;> rfl

theorem legible_wordValue (name : String) (hp : (name, v) ∈ wordValues) : Legible (.exactly v) reg name.toList :=
  legible_token (.identifier · name) (lexeme_wordValue hp) rfl (derives_identifier name) fun ev s =>
    .of_exactly (evaluate_wordValue hp ev s)

theorem evaluate_literal (ev : Evaluator) (s : Span) (value : Literal) (h₁ : Heap) :
    (ev.evaluate (.literal s value)).run h₁ = .ok (Evaluator.literal value, h₁) := by
  rw [Evaluator.evaluate]
  rfl

theorem gives_literal (ev : Evaluator) (s : Span) (value : Literal) :
    Gives (ev.evaluate (.literal s value)) (.exactly (Evaluator.literal value)) :=
  .of_exactly (evaluate_literal ev s value)

theorem legible_word (name : String) (word : Keyword) (value : Literal) (hw : (name, word) ∈ Keyword.table)
    (hv : wordLiteral? (.keyword word) = some value) : Legible (.exactly (Evaluator.literal value)) reg name.toList := by
  refine legible_token (.literal · value) (Token.lexeme_keyword hw true) ?_
    (fun l l' hl _ => .word hl.toSteps (hl.kind ▸ hv)) fun ev s => gives_literal ev s value
  cases word <;> first | rfl | exact nomatch hv

theorem derives_number (x : Magnitude) (l l' : Lexer) (hl : l.Takes .number l')
    (hw : l.hand.text = String.ofList (Number.sizeText x)) :
    Derives false .primary l (.literal (l.upTo l') (.number (.finite false x))) l' := by
  obtain ⟨-, -, -, -, -, -, hr⟩ := Number.spells_sizeText x
  exact .number hl (by rw [hw, String.toList_ofList]; exact hr)

/-- What is negated has the opposite value. -/
theorem gives_negated {ev : Evaluator} {s : Span} {e : Expr} {x : Number}
    (he : ∀ h₁, (ev.evaluate e).run h₁ = .ok (.number x, h₁)) :
    Gives (ev.evaluate (.unary s .negate e)) (.exactly (.number x.negate)) := by
  refine .of_exactly fun h₁ => ?_
  rw [Evaluator.evaluate, Evaluator.run_bind (he h₁)]
  rfl

theorem legible_negated (make : Span → Expr) {x : Number} (hl : Lexeme true t k w) (ho : opensPrimary k = true)
    (hd : ∀ l l', l.Takes k l' → l.hand.text = String.ofList w → Derives false .primary l (make (l.upTo l')) l')
    (hc : ∃ c, t.head? = some c ∧ c ≠ '-' ∧ c ≠ '=')
    (he : ∀ (ev : Evaluator) s h₁, (ev.evaluate (make s)).run h₁ = .ok (.number x, h₁)) :
    Legible (.exactly (.number x.negate)) reg ('-' :: t) := by
  intro n y hy
  obtain ⟨s, hf⟩ := fills_negated make hl ho hd hc hy n
  exact ⟨_, hf, fun _ _ => gives_negated (he _ _)⟩

theorem head?_sizeText (x : Magnitude) : ∃ c, (Number.sizeText x).head? = some c ∧ c ≠ '-' ∧ c ≠ '=' := by
  obtain ⟨whole, part, power, ht, hw, hd, -⟩ := Number.spells_sizeText x
  rcases whole with _ | ⟨c, whole⟩
  · exact absurd rfl hw
  · have hc : Text.isDigit c = true := hd c List.mem_cons_self
    refine ⟨c, by rw [ht]; rfl, ?_, ?_⟩ <;> rintro rfl <;> cases hc

/-- **A number is legible**, with its sign. -/
theorem legible_number (x : Number) : Legible (.exactly (.number x)) reg x.source.toList := by
  rw [Number.source, String.toList_ofList]
  cases x with
  | nan => exact legible_wordValue "NaN" (by decide)
  | infinite negative =>
    have hp : ("Infinity", Value.number (.infinite false)) ∈ wordValues := by decide
    cases negative with
    | false => exact legible_wordValue "Infinity" hp
    | true =>
      exact legible_negated _ (lexeme_wordValue hp) rfl (derives_identifier "Infinity") ⟨'I', rfl, by decide, by decide⟩
        (evaluate_wordValue hp)
  | finite negative m =>
    cases negative with
    | false =>
      exact legible_token (.literal · (.number (.finite false m))) (Token.lexeme_number m true) rfl (derives_number m)
        fun ev s => gives_literal ev s _
    | true =>
      exact legible_negated (.literal · (.number (.finite false m))) (Token.lexeme_number m true) rfl (derives_number m)
        (head?_sizeText m) fun ev s h₁ => evaluate_literal ev s _ h₁

theorem derives_text (value : String) (l l' : Lexer) (hl : l.Takes .string l')
    (hw : l.hand.text = String.ofList value.toList) : Derives false .primary l (.literal (l.upTo l') (.text value)) l' := by
  rw [← String.ofList_toList (s := value), ← hw]
  exact .text hl

/-- **A text is legible** in quotes. -/
theorem legible_text (s : String) : Legible (.exactly (.text s)) reg (Text.quote s).toList := by
  rw [Text.quote, String.toList_ofList]
  exact legible_token _ (Token.lexeme_quote _ true) rfl (derives_text s) fun ev span => gives_literal ev span (.text s)

/-! ## Names, functions and regular expressions -/

theorem path?_move (m : Move) : ∀ e : Expr, (e.move m).path? = e.path?
  | .identifier _ _  => rfl
  | .field _ target name => by rw [Expr.move, Expr.path?, Expr.path?, path?_move m target]
  | .group _ inner => by rw [Expr.move, Expr.path?, Expr.path?, path?_move m inner]
  | .literal _ _ | .this _ | .regex _ _ _ | .array _ _ | .object _ _ | .function _ _ _ _ | .unary _ _ _ | .update _ _ _ _
  | .binary _ _ _ _ | .assign _ _ _ _ | .conditional _ _ _ _ | .call _ _ _ | .new _ _ _ | .index _ _ _ | .sequence _ _ => rfl

/-- The names that no value can be found by. -/
def reservedNames : List String := ["undefined", "NaN", "Infinity"]

/-- **A path leads to its value**, if its name is no value by itself. -/
theorem evaluate_path {ev : Evaluator} {path : String} (hl : ev.registry.lookup? path = some v)
    (hr : path ∉ reservedNames) (e : Expr) (he : e.path? = some path) (h₁ : Heap) :
    (ev.evaluate e).run h₁ = .ok (v, h₁) := by
  cases e with
  | identifier s name =>
    cases he
    simp only [reservedNames, List.mem_cons, List.not_mem_nil, or_false, not_or] at hr
    rw [Evaluator.evaluate, Evaluator.name, if_neg hr.1, if_neg hr.2.1, if_neg hr.2.2, Evaluator.lookup]
    simp only [Expr.path?, hl]
    rfl
  | field s target name =>
    rw [Evaluator.evaluate, Evaluator.lookup, he]
    simp only [hl]
    rfl
  | group s inner =>
    rw [Evaluator.evaluate]
    exact evaluate_path hl hr inner he h₁
  | _ => cases he

/-- The text is read as names and members, and as nothing else, and the path they make is the text. -/
def IsPath (path : String) : Prop :=
  path ∉ reservedNames ∧ ∃ e, parseExpressionAt path 0 = .ok e ∧ e.span = ⟨0, Text.byteLength path.toList⟩ ∧ e.path? = some path

/-- **A value is legible by its name.** -/
theorem legible_path {path : String} (hp : IsPath path) (hl : reg.lookup? path = some v) :
    Legible (.exactly v) reg path.toList := by
  obtain ⟨hr, e, he, hs, hpath⟩ := hp
  have hne : ∀ s items, e ≠ .sequence s items := by
    rintro s items rfl
    cases hpath
  exact fun n y hy => ⟨_, fills_of_parse he hs hne hy n, fun pre _ =>
    .of_exactly (evaluate_path hl hr _ (by rw [path?_move, hpath]))⟩

/-- The text is read as one function. -/
def IsFunctionText (source : String) : Prop :=
  ∃ name params body, parseExpressionAt source 0 = .ok (.function ⟨0, Text.byteLength source.toList⟩ name params body)

/-- **A function is legible by its definition.** -/
theorem legible_function {source : String} (hf : IsFunctionText source) :
    Legible (.object (.function source)) reg source.toList := by
  obtain ⟨name, params, body, hp⟩ := hf
  intro n y hy
  refine ⟨_, fills_of_parse hp rfl nofun hy n, ?_⟩
  rintro pre rfl
  have ht : Evaluator.text ⟨pre ++ (source.toList ++ y), reg⟩
      ((Expr.function ⟨0, Text.byteLength source.toList⟩ name params body).move (.right (Text.byteLength pre))) = source := by
    unfold Evaluator.text
    simp only [Expr.move, Expr.span, Span.move, Move.right, Nat.zero_add]
    rw [Nat.add_comm, Text.slice_piece, Option.getD_some, String.ofList_toList]
  refine .of_newObject fun h₁ => ?_
  rw [Expr.move, Evaluator.evaluate]
  exact congrArg (fun t => Except.ok (h₁.newObject (.function t))) ht

theorem derives_regex (pattern : String) {flags : String} (hf : '/' ∉ flags.toList) (l l' : Lexer) (hl : l.Takes .regex l')
    (hw : l.hand.text = String.ofList ("/" ++ pattern ++ "/" ++ flags).toList) :
    Derives false .primary l (.regex (l.upTo l') pattern flags) l' := by
  have hd : Derives false .primary l _ l' := .regex hl
  rwa [hw, String.toList_ofList, splitRegex_joined pattern hf] at hd

/-- **A regular expression is legible** when its flags have no slash in them. -/
theorem legible_regexp {pattern flags : String} (hr : IsRegexp (writtenPattern pattern) flags) (hf : '/' ∉ flags.toList) :
    Legible (.object (.regexp (writtenPattern pattern) flags)) reg (Renderer.regexpText pattern flags).toList := by
  obtain ⟨w, hw⟩ := hr.lexeme nofun
  obtain ⟨-, rfl, -⟩ := hw.regex
  rw [regexpText_eq]
  refine legible_token (.regex · (writtenPattern pattern) flags) hw rfl (derives_regex _ hf) fun ev s => ?_
  refine .of_newObject fun h₁ => ?_
  rw [Evaluator.evaluate]
  rfl

/-! ## What is made by a constructor -/

/-- **A call of a constructor is legible** when its argument is, and names the value that the constructor makes. -/
theorem legible_construct {name : String} {x : Value} (made : Object)
    (hname : Lexeme true name.toList .identifier name.toList) (ht : Legible (.exactly x) reg t)
    (hc : ∀ (ev : Evaluator) e, ev.construct e name (some x) = Evaluator.newObject made) :
    Legible (.object made) reg (name.toList ++ '(' :: (t ++ [')'])) := by
  intro n y hy
  obtain ⟨e, hf, he⟩ := ht (n + Text.byteLength name.toList + 1) (')' :: y) (.cons (k := .rParen) (by decide) y)
  obtain ⟨s, s', hcall⟩ := fills_call hname hy n (arguments_one hf hy)
  rw [String.ofList_toList] at hcall
  refine ⟨_, hcall, ?_⟩
  rintro pre rfl h₁
  obtain ⟨x', h₂, hrun, hg, rfl⟩ := he (pre ++ (name.toList ++ ['('])) (by
    rw [Text.byteLength_append, Text.byteLength_append, ← Nat.add_assoc]
    rfl) h₁
  have hsource : pre ++ (name.toList ++ ['(']) ++ (t ++ ')' :: y) = pre ++ (name.toList ++ '(' :: (t ++ [')']) ++ y) := by
    simp only [List.append_assoc, List.cons_append, List.nil_append]
  rw [hsource] at hrun
  refine ⟨_, _, ?_, hg.trans (h₂.grows_newObject made), Meaning.object_newObject h₂ made⟩
  rw [Evaluator.evaluate, Evaluator.evaluateCall, Evaluator.run_bind hrun, hc]
  rfl

theorem lexeme_constructor {name : String} (hn : name ∈ "Date" :: ErrorKind.all.map ErrorKind.name) :
    Lexeme true name.toList .identifier name.toList := by
  have hall : ("Date" :: ErrorKind.all.map ErrorKind.name).all (fun name => name.toList.head?.any Token.startsName &&
      name.toList.all Token.continuesName && (Keyword.ofText? name).isNone) = true := by decide +kernel
  have := List.all_eq_true.1 hall _ hn
  simp only [Bool.and_eq_true, List.all_eq_true, Option.isNone_iff_eq_none] at this
  exact Token.lexeme_identifier this.1 (by rw [String.ofList_toList]; exact this.2) true

/-- A text of plain characters is legible in single quotes. -/
theorem legible_plain {s : String} (hs : ∀ c ∈ s.toList, c ≠ '\'' ∧ c ≠ '\n' ∧ c ≠ '\r' ∧ c ≠ '\\') :
    Legible (.exactly (.text s)) reg ('\'' :: (s.toList ++ ['\''])) :=
  legible_token (.literal · (.text s))
    (.of_front (Lexer.front_of_string (.inr rfl) (Token.stringBody_plain hs) (List.append_nil _).symm)) rfl (derives_text s)
    fun ev span => gives_literal ev span (.text s)

theorem plain_dateText (time : Number) {c : Char} (hc : c ∈ ((Date.text? time).getD "null").toList) :
    c ≠ '\'' ∧ c ≠ '\n' ∧ c ≠ '\r' ∧ c ≠ '\\' := by
  have hmark : ∀ c ∈ ['+', '-', ':', '.', 'T', 'Z'] ++ ['n', 'u', 'l', 'l'],
      c ≠ '\'' ∧ c ≠ '\n' ∧ c ≠ '\r' ∧ c ≠ '\\' := by simp
  unfold Date.text? at hc
  cases hm : Date.millis? time with
  | none =>
    rw [hm] at hc
    exact hmark c (List.mem_append_right _ hc)
  | some m =>
    rw [hm, Option.map_some, Option.getD_some, String.toList_ofList] at hc
    rcases Date.mem_millisText hc with hd | hm
    · refine ⟨?_, ?_, ?_, ?_⟩ <;> rintro rfl <;> cases hd
    · exact hmark c (List.mem_append_left _ hm)

/-- **A date is legible.** -/
theorem legible_date (time : Number) : Legible (.object (.date (Date.timeOf ((Date.text? time).getD "null")))) reg
    (Renderer.dateText time).toList := by
  have htext : (Renderer.dateText time).toList =
      "Date".toList ++ '(' :: ('\'' :: (((Date.text? time).getD "null").toList ++ ['\'']) ++ [')']) := by
    simp [Renderer.dateText]
  rw [htext]
  exact legible_construct _ (lexeme_constructor (by decide)) (legible_plain fun c => plain_dateText time) fun _ _ => rfl

theorem construct_error (ev : Evaluator) (e : Expr) (sort : ErrorKind) (message : String) :
    ev.construct e sort.name (some (.text message)) = Evaluator.newObject (.error sort (some (.text message))) := by
  cases sort <;> rfl

/-- **An error is legible** when its message is a text. -/
theorem legible_error {sort : ErrorKind} {message : String} (ht : Legible (.exactly (.text message)) reg t) :
    Legible (.object (.error sort (some (.text message)))) reg (sort.name.toList ++ '(' :: (t ++ [')'])) := by
  have hname : sort.name ∈ "Date" :: ErrorKind.all.map ErrorKind.name := by cases sort <;> decide
  exact legible_construct _ (lexeme_constructor hname) ht fun ev e => construct_error ev e sort message

/-! ## Arrays -/

/-- The texts of elements are legible, and what they mean together is as the meaning says.  A hole has the empty text. -/
inductive LegibleItems (reg : Registry) : Meaning (List (Option Value)) → List (Option Value) → List String → Prop where
  | nil {ms : Meaning (List (Option Value))} (hm : ∀ h, ms.Holds h []) : LegibleItems reg ms [] []
  | hole {ms ms' : Meaning (List (Option Value))} {xs : List (Option Value)} {texts : List String}
      (hr : LegibleItems reg ms xs texts) (hm : ∀ h ys, ms.Holds h ys → ms'.Holds h (none :: ys)) :
      LegibleItems reg ms' (none :: xs) ("" :: texts)
  | item {m : Meaning Value} {ms ms' : Meaning (List (Option Value))} {v : Value} {xs : List (Option Value)} {text : String}
      {texts : List String} (ht : Legible m reg text.toList) (hr : LegibleItems reg ms xs texts)
      (hm : ∀ h v' ys, m.Holds h v' → ms.Holds h ys → ms'.Holds h (some v' :: ys)) :
      LegibleItems reg ms' (some v :: xs) (text :: texts)

/-- The texts of elements, with commas and blanks between them, and the bracket behind them. -/
def rowText : List (Option Value) → List String → List Char
  | [], _                  => [']']
  | [none], _              => [',', ']']
  | [some _], texts        => (texts.headD "").toList ++ [']']
  | _ :: x :: xs, texts    => (texts.headD "").toList ++ ',' :: ' ' :: rowText (x :: xs) texts.tail

variable {ms ms' : Meaning (List (Option Value))}

theorem rowText_eq {xs : List (Option Value)} {texts : List String} (hf : LegibleItems reg ms xs texts) :
    [',', ' '].intercalate (texts.map String.toList) ++ (if xs.getLast? = some none then [',', ']'] else [']']) =
      rowText xs texts := by
  induction hf with
  | nil => rfl
  | hole hr _ ih | item _ hr _ ih =>
    cases hr with
    | nil => simp [rowText, List.intercalate]
    | hole | item =>
      rw [List.map_cons] at ih
      rw [List.map_cons, List.map_cons, List.intercalate_cons_cons, List.getLast?_cons_cons, rowText, List.append_assoc,
        List.append_assoc, ih]
      rfl

theorem arrayText_eq {xs : List (Option Value)} {texts : List String} (hf : LegibleItems reg ms xs texts) :
    (Renderer.arrayText xs texts).toList = '[' :: rowText xs texts := by
  unfold Renderer.arrayText
  rw [← rowText_eq hf, String.toList_append, String.toList_append, String.toList_intercalate]
  split <;> rfl

namespace Evaluator

variable {ev : Evaluator} {e : Expr} {items : List (Option Expr)}

theorem gives_noElements (hm : ∀ h, ms.Holds h []) : Gives (ev.evaluateElements []) ms :=
  fun h₁ => ⟨[], h₁, by rw [evaluateElements]; rfl, .refl _, hm h₁⟩

theorem gives_hole (hr : Gives (ev.evaluateElements items) ms) (hm : ∀ h ys, ms.Holds h ys → ms'.Holds h (none :: ys)) :
    Gives (ev.evaluateElements (none :: items)) ms' := by
  intro h₁
  obtain ⟨ys, h₂, hrun, hg, hys⟩ := hr h₁
  exact ⟨none :: ys, h₂, by rw [evaluateElements, run_bind hrun]; rfl, hg, hm h₂ ys hys⟩

theorem gives_item (hv : Gives (ev.evaluate e) m) (hr : Gives (ev.evaluateElements items) ms)
    (hm : ∀ h v ys, m.Holds h v → ms.Holds h ys → ms'.Holds h (some v :: ys)) :
    Gives (ev.evaluateElements (some e :: items)) ms' := by
  intro h₁
  obtain ⟨v, h₂, hrun, hg, hv⟩ := hv h₁
  obtain ⟨ys, h₃, hruns, hgs, hys⟩ := hr h₂
  exact ⟨some v :: ys, h₃, by rw [evaluateElements, run_bind hrun, run_bind hruns]; rfl, hg.trans hgs,
    hm h₃ v ys (m.grows hgs hv) hys⟩

end Evaluator

/-- The text is read as elements, behind a bracket or a comma and a blank, and they are legible. -/
def LegibleRow (ms : Meaning (List (Option Value))) (reg : Registry) (w : List Char) : Prop :=
  ∀ (g y : List Char), Apart g → Closer y → ∀ n, ∃ items bit,
    Derives false .elementsRest ⟨⟨n, g ++ (w ++ y)⟩, true⟩ items ⟨⟨n + Text.byteLength g + Text.byteLength w, y⟩, bit⟩ ∧
    ∀ pre, Text.byteLength pre = n → Gives (Evaluator.evaluateElements ⟨pre ++ (g ++ (w ++ y)), reg⟩ items) ms

section

variable {g' : List Char}

theorem comma_size : (',').utf8Size = 1 := rfl

theorem legibleRow_nil (hm : ∀ h, ms.Holds h []) : LegibleRow ms reg [']'] :=
  fun _ _ hg hy _ => ⟨[], _, .elementsEnd (takes_apart (k := .rBracket) (by decide) hg rfl (hy.hand _ _).1),
    fun _ _ => Evaluator.gives_noElements hm⟩

theorem LegibleRow.hole (hr : LegibleRow ms reg w) (hg' : Apart g') (hm : ∀ h ys, ms.Holds h ys → ms'.Holds h (none :: ys)) :
    LegibleRow ms' reg (',' :: (g' ++ w)) := by
  intro g y hg hy n
  obtain ⟨items, bit, hd, he⟩ := hr g' y hg' hy (n + Text.byteLength g + 1)
  have hlen : n + Text.byteLength g + Text.byteLength (',' :: (g' ++ w)) =
      n + Text.byteLength g + 1 + Text.byteLength g' + Text.byteLength w := by
    rw [Text.byteLength_cons, Text.byteLength_append, comma_size]
    omega
  have hrest : ',' :: (g' ++ w) ++ y = ',' :: (g' ++ (w ++ y)) := by simp
  rw [hlen, hrest]
  refine ⟨none :: items, bit, .hole (takes_apart (k := .comma) (by decide) hg rfl (hd.ready_start rfl)) hd, ?_⟩
  rintro pre rfl
  have := he (pre ++ (g ++ [','])) (by simp [Nat.add_assoc, comma_size])
  simp only [List.append_assoc, List.singleton_append] at this
  exact Evaluator.gives_hole this hm

theorem LegibleRow.item (ht : Legible m reg t) (hr : LegibleRow ms reg w) (hg' : Apart g')
    (hm : ∀ h v ys, m.Holds h v → ms.Holds h ys → ms'.Holds h (some v :: ys)) :
    LegibleRow ms' reg (t ++ ',' :: (g' ++ w)) := by
  intro g y hg hy n
  obtain ⟨items, bit, hds, hes⟩ := hr g' y hg' hy (n + Text.byteLength g + Text.byteLength t + 1)
  obtain ⟨e, hf, he⟩ := ht (n + Text.byteLength g) (',' :: (g' ++ (w ++ y))) (.cons (k := .comma) (by decide) _)
  obtain ⟨l₁, hd, hc⟩ := hf.behind (k := .comma) hg (by decide) rfl (hds.ready_start rfl)
  have hlen : n + Text.byteLength g + Text.byteLength (t ++ ',' :: (g' ++ w)) =
      n + Text.byteLength g + Text.byteLength t + 1 + Text.byteLength g' + Text.byteLength w := by
    rw [Text.byteLength_append, Text.byteLength_cons, Text.byteLength_append, comma_size]
    omega
  have hrest : t ++ ',' :: (g' ++ w) ++ y = t ++ ',' :: (g' ++ (w ++ y)) := by simp
  rw [hlen, hrest]
  refine ⟨some e :: items, bit, .element (hd.ne_of_closes rfl) (hd.ne_of_closes rfl) hd hc hds, ?_⟩
  rintro pre rfl
  have first := he (pre ++ g) (Text.byteLength_append _ _)
  have rest := hes (pre ++ (g ++ (t ++ [',']))) (by simp [Nat.add_assoc, comma_size])
  simp only [List.append_assoc, List.singleton_append] at first rest
  exact Evaluator.gives_item first rest hm

theorem legibleRow_last (ht : Legible m reg t) (hn : ∀ h, ms.Holds h [])
    (hm : ∀ h v ys, m.Holds h v → ms.Holds h ys → ms'.Holds h (some v :: ys)) : LegibleRow ms' reg (t ++ [']']) := by
  intro g y hg hy n
  obtain ⟨e, hf, he⟩ := ht (n + Text.byteLength g) (']' :: y) (.cons (k := .rBracket) (by decide) y)
  obtain ⟨l₁, hd, hc⟩ := hf.behind (k := .rBracket) hg (by decide) rfl (hy.hand _ _).1
  have hlen : n + Text.byteLength g + Text.byteLength (t ++ [']']) = n + Text.byteLength g + Text.byteLength t + 1 := by
    rw [Text.byteLength_append, ← Nat.add_assoc]
    rfl
  have hrest : t ++ [']'] ++ y = t ++ ']' :: y := by simp
  rw [hlen, hrest]
  refine ⟨[some e], _, .lastElement (hd.ne_of_closes rfl) (hd.ne_of_closes rfl) hd hc, ?_⟩
  rintro pre rfl
  have first := he (pre ++ g) (Text.byteLength_append _ _)
  rw [List.append_assoc] at first
  exact Evaluator.gives_item first (Evaluator.gives_noElements hn) hm

end

/-- **Legible texts make a legible row.** -/
theorem legibleRow_rowText {xs : List (Option Value)} {texts : List String} (hf : LegibleItems reg ms xs texts) :
    LegibleRow ms reg (rowText xs texts) := by
  induction hf with
  | nil hm => exact legibleRow_nil hm
  | hole hr hm ih =>
    cases hr with
    | nil hn => exact (legibleRow_nil hn).hole (.inl (Eq.refl [])) hm
    | hole | item => exact ih.hole (.inr rfl) hm
  | item ht hr hm ih =>
    cases hr with
    | nil hn => exact legibleRow_last ht hn hm
    | hole | item => exact .item ht ih (.inr rfl) hm

/-- **An array is legible** when its elements are. -/
theorem legible_array {xs : List (Option Value)} {texts : List String} (hf : LegibleItems reg ms xs texts)
    (hm : ∀ h v ys, (Meaning.object (.array ys)).Holds h v → ms.Holds h ys → m.Holds h v) :
    Legible m reg (Renderer.arrayText xs texts).toList := by
  rw [arrayText_eq hf]
  intro n y hy
  obtain ⟨items, bit, hd, he⟩ := legibleRow_rowText hf [] y (.inl rfl) hy (n + 1)
  simp only [List.nil_append, Text.byteLength_nil, Nat.add_zero] at hd he
  have ho := takes_sign (c := '[') (k := .lBracket) (by decide) n true true rfl (hd.ready_start rfl)
  have hlen : n + Text.byteLength ('[' :: rowText xs texts) = n + 1 + Text.byteLength (rowText xs texts) := by
    rw [Text.byteLength_cons, ← Nat.add_assoc]
    rfl
  have ha := Derives.array ho hd
  refine ⟨_, .of_primary (by rw [hlen]; exact ha) (start_of_mark (k := .lBracket) (by decide) n true _)
    (by rw [List.cons_append, ho.kind]; rfl) hy, ?_⟩
  rintro pre rfl h₁
  obtain ⟨ys, h₂, hrun, hg, hys⟩ := he (pre ++ ['[']) (Text.byteLength_append _ _) h₁
  rw [List.append_assoc, List.singleton_append, ← List.cons_append] at hrun
  have hnew := h₂.grows_newObject (.array ys)
  refine ⟨_, _, ?_, hg.trans hnew, hm _ _ ys (Meaning.object_newObject h₂ _) (ms.grows hnew hys)⟩
  rw [Evaluator.evaluate, Evaluator.run_bind hrun]
  rfl

end Readback
