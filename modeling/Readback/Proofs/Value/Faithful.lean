import Readback.Proofs.Grammar.Piece
import Readback.Proofs.Value.Recall
/-!
# Trees that are true to their text

A value is made of the values of parts of a tree, and of what the tree copies from its text: functions word for word, regular
expressions as the text was split.  A tree that was read from the text copies nothing but what can be read again
(`Derives.faithful`).
-/
namespace Readback

open Grammar

/-- The parts whose values the value of an expression is made of. -/
def Expr.parts : Expr → List Expr
  | .group _ e | .unary _ _ e     => [e]
  | .array _ items                => items.filterMap id
  | .object _ items               => items.map Property.value
  | .call _ _ args | .new _ _ args => args
  | _                             => []

namespace Evaluator

variable {ev : Evaluator} {e : Expr}

/-- What an expression copies can be read again. -/
def Copies (ev : Evaluator) : Expr → Prop
  | .regex _ pattern flags         => IsSplit pattern flags
  | .function s name params body   => IsFunctionText (ev.text (.function s name params body))
  | _                              => True

/-- Whatever the value of an expression is made of can be read again. -/
inductive Faithful (ev : Evaluator) : Expr → Prop
  | mk {e : Expr} (own : ev.Copies e) (parts : ∀ x ∈ e.parts, Faithful ev x) : Faithful ev e

/-- The same of the trees of a phrase. -/
def AllFaithful (ev : Evaluator) : (p : Phrase) → p.Result → Prop
  | .expression, e | .assignment, e | .conditional, e | .binary _, e | .operators _, e | .unary, e | .update, e
  | .member _, e | .chain _, e | .construct, e | .primary, e => ev.Faithful e
  | .itemsRest, items | .newArguments, items | .argumentsRest, items => ∀ e ∈ items, ev.Faithful e
  | .elementsRest, items => ∀ e, some e ∈ items → ev.Faithful e
  | .propertiesRest, items => ∀ p ∈ items, ev.Faithful p.value
  | .property, p => ev.Faithful p.value
  | _, _ => True

end Evaluator

open Evaluator

theorem before_goes {s l l' : Lexer} (h : s.Before l) (hg : l.Goes l') : s.Before l' := h.trans hg.before

/-- A function that was read from the text is copied as one. -/
theorem copies_function {ev : Evaluator} {s : Span} {name : Option String} {params : List String} {body : List Stmt}
    {l l' : Lexer} (h : Derives false .primary l (.function s name params body) l')
    (hl : (Lexer.ofSource ev.source).Before l) : ev.Copies (.function s name params body) := by
  obtain ⟨t, start, hnext, rfl, hp⟩ := h.parse_function
  have hslice := (hl.trans (Lexer.before_next l)).slice (congrArg Cursor.rest hnext)
  have ht : ev.text (.function ⟨start, start + Text.byteLength t⟩ name params body) = String.ofList t := by
    rw [hnext] at hslice
    unfold Evaluator.text
    rw [Expr.span, hslice, Option.getD_some]
  have hspan : (⟨start, start + Text.byteLength t⟩ : Span).move (.left start) = ⟨0, Text.byteLength t⟩ := by
    simp [Span.move, Move.left]
  rw [Expr.move, hspan] at hp
  exact ⟨name, params, _, by rw [ht, hp, String.toList_ofList]⟩

/-- **A tree that was read from the text copies nothing but what can be read again.** -/
theorem Grammar.Derives.faithful {ev : Evaluator} {b : Bool} {p : Phrase} {l l' : Lexer} {a : p.Result}
    (h : Derives b p l a l') : b = false → (Lexer.ofSource ev.source).Before l → ev.AllFaithful p a := by
  induction h with
  | regex h₁ => exact fun _ _ => ⟨IsRegexAt.of_text (isRegexAt_of_next h₁.ready.outcome h₁.kind), nofun⟩
  | slash h₁ =>
    obtain ⟨t, x, ht, -, hu, -⟩ := isRegexAt_of_again h₁.holdsSlash h₁.outcome
    exact fun _ _ => ⟨IsRegexAt.of_text ⟨t, x, ht, hu⟩, nofun⟩
  | function h₁ h₂ h₃ =>
    rintro rfl hl
    exact ⟨copies_function (.function h₁ h₂ h₃) hl, nofun⟩
  -- trees that copy nothing, and that no value is made of
  | number | text | word | identifier | this | field | index | update | updateFirst | operator | choice | assign | sequence
  | shorthand => exact fun _ _ => ⟨trivial, nofun⟩
  | primaryChain _ _ c | constructChain _ _ c | member _ _ c | noUpdate _ _ c | noPrefix _ _ _ c | operators _ c
  | binary _ _ c | noChoice _ _ c | noAssign _ _ c | single _ _ c => exact c
  | group h₁ _ _ c | unary h₁ _ _ c =>
    exact fun hb hl => ⟨trivial, List.forall_mem_singleton.2 (c hb (before_goes hl h₁.goes))⟩
  | array h₁ _ c =>
    refine fun hb hl => ⟨trivial, fun x hx => c hb (before_goes hl h₁.goes) x ?_⟩
    obtain ⟨_, hm, rfl⟩ := List.mem_filterMap.1 hx
    exact hm
  | object h₁ _ c => exact fun hb hl => ⟨trivial, List.forall_mem_map.2 (c hb (before_goes hl h₁.goes))⟩
  | call h₁ h₂ _ _ c₃ => exact fun hb hl => ⟨trivial, c₃ hb (before_goes (before_goes hl h₁.goes) h₂.goes)⟩
  | construct h₁ h₂ _ _ c₃ => exact fun hb hl => ⟨trivial, c₃ hb (before_goes (before_goes hl h₁.goes) h₂.goes)⟩
  -- items, arguments, elements and properties
  | newArguments h₁ _ c => exact fun hb hl => c hb (before_goes hl h₁.goes)
  | noArguments | noItem | argumentsEnd | elementsEnd | propertiesEnd => exact fun _ _ => nofun
  | item h₁ h₂ _ c₂ c₃ =>
    intro hb hl
    have hl₁ := before_goes hl h₁.goes
    exact List.forall_mem_cons.2 ⟨c₂ hb hl₁, c₃ hb (before_goes hl₁ h₂.goes)⟩
  | lastArgument _ _ _ c => exact fun hb hl => List.forall_mem_singleton.2 (c hb hl)
  | argument _ h₂ h₃ _ c₂ c₄ =>
    exact fun hb hl => List.forall_mem_cons.2 ⟨c₂ hb hl, c₄ hb (before_goes (before_goes hl h₂.goes) h₃.goes)⟩
  | hole h₁ _ c =>
    intro hb hl e he
    exact c hb (before_goes hl h₁.goes) e ((List.mem_cons.1 he).resolve_left nofun)
  | lastElement _ _ _ _ c =>
    intro hb hl e he
    cases List.mem_singleton.1 he
    exact c hb hl
  | element _ _ h₃ h₄ _ c₃ c₅ =>
    intro hb hl e he
    rcases List.mem_cons.1 he with he | he
    · cases he
      exact c₃ hb hl
    · exact c₅ hb (before_goes (before_goes hl h₃.goes) h₄.goes) e he
  | lastProperty _ _ _ c => exact fun hb hl => List.forall_mem_singleton.2 (c hb hl)
  | moreProperties _ h₂ h₃ _ c₂ c₄ =>
    exact fun hb hl => List.forall_mem_cons.2 ⟨c₂ hb hl, c₄ hb (before_goes (before_goes hl h₂.goes) h₃.goes)⟩
  | pair h₁ h₂ _ _ c₃ => exact fun hb hl => c₃ hb (before_goes (before_goes hl h₁.goes) h₂.goes)
  -- names, keys and statements are no trees of expressions
  | _ => exact fun _ _ => trivial

theorem faithful_of_parse {source : String} {reg : Registry} {e : Expr} (h : parseExpressionAt source 0 = .ok e) :
    Faithful ⟨source.toList, reg⟩ e := by
  obtain ⟨-, l', -, hd⟩ := parseExpressionAt_zero.1 h
  exact hd.faithful rfl (.refl _)

end Readback
