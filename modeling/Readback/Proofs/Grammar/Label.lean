import Readback.Proofs.Grammar.Start
/-!
# Labels and properties

In braces, a name with a colon behind it is a label, or the key of a property.  Which of the two depends on what is around
the braces.  What is behind the colon may then be read both ways, unless a semicolon is behind it or it has items that are
not names.
-/
namespace Readback.Grammar

open Token (Kind)
open Lexer (swap)

variable {b : Bool} {l l₁ l₂ l₃ l₄ l₅ l' x y : Lexer} {e : Expr}

/-! ## Keys -/

/-- **A key that an expression starts with is the expression**, if a colon is behind the key. -/
theorem primary_of_key {key : PropertyKey} (hk : Derives b .propertyKey l key l₁) (hc : l₁.hand.kind = .colon)
    (h : Leads b l) : ∃ e, Derives b .primary l e l₁ := by
  have hcloses : ¬ Leads b l₁ := fun h => by
    have := h.not_closes
    rw [hc] at this
    cases this
  cases hk with
  | textKey h₁ => exact ⟨_, .text h₁⟩
  | numberKey h₁ h₂ => exact ⟨_, .number h₁ h₂⟩
  | computedKey h₁ h₂ h₃ =>
    have ho := h₂.led.not_closes
    exact ⟨_, .array h₁ (.lastElement (fun hk => by rw [hk] at ho; cases ho) (fun hk => by rw [hk] at ho; cases ho) h₂ h₃)⟩
  | nameKey h₁ hn =>
    have hkind : ∀ {k : Kind} {l₂ : Lexer}, l.Takes k l₂ → isName k = true := fun ht => ht.kind ▸ hn
    cases h with
    | construct h₂ h₃ =>
      cases h₂.toSteps.unique h₁
      exact absurd h₃.led hcloses
    | unary h₂ _ h₃ =>
      cases h₂.unique h₁
      exact absurd h₃.led hcloses
    | primary h =>
      cases h with
      | word h₂ h₃ => exact ⟨_, .word h₁ h₃⟩
      | identifier h₂ => exact ⟨_, .identifier ⟨h₁, h₂.kind⟩⟩
      | this h₂ => exact ⟨_, .this ⟨h₁, h₂.kind⟩⟩
      | function h₂ h₃ h₄ =>
        cases h₂.toSteps.unique h₁
        cases h₃ with
        | named h₅ => cases h₅.kind.symm.trans hc
        | nameless =>
          cases h₄ with
          | signature h₅ => cases h₅.kind.symm.trans hc
      | slash h₂ =>
        rcases h₂.slash with hk | ⟨hk, -⟩ <;> rw [hk] at hn <;> cases hn
      | number h₂ => cases hkind h₂
      | text h₂ => cases hkind h₂
      | regex h₂ => cases hkind h₂
      | group h₂ => cases hkind h₂
      | array h₂ => cases hkind h₂
      | object h₂ => cases hkind h₂

/-- An expression that starts with a key ends with it. -/
theorem hand_of_key {key : PropertyKey} (hk : Derives b .propertyKey l key l₁) (hc : l₁.hand.kind = .colon)
    (h : Derives b .assignment l e l') : l'.hand.kind = .colon := by
  obtain ⟨e', he'⟩ := primary_of_key hk hc h.led
  have ha := he'.assignment_of_primary (opensPrimary_of_primary he').1 (endsAssignment_of_kind hc rfl)
  rw [← (ha.unique_assignment h).2.hand, hc]

/-! ## Names with commas between them -/

/-- Behind a property an object literal ends, or it goes on. -/
def Continues (b : Bool) (l l' : Lexer) : Prop :=
  l.Takes .rBrace l' ∨ ∃ l₁ props, l.Takes .comma l₁ ∧ Derives b .propertiesRest l₁ props l'

theorem Continues.properties {p : Property} (h : Continues b l₁ l') (hk : l.hand.kind ≠ .rBrace)
    (hp : Derives b .property l p l₁) : ∃ props, Derives b .propertiesRest l props l' := by
  rcases h with h | ⟨l₂, props, h₁, h₂⟩
  · exact ⟨_, .lastProperty hk hp h⟩
  · exact ⟨_, .moreProperties hk hp h₁ h₂⟩

theorem continues_of_properties {props : List Property} (h : Derives b .propertiesRest l props l')
    (hk : l.hand.kind ≠ .rBrace) : ∃ p l₁, Derives b .property l p l₁ ∧ Continues b l₁ l' := by
  cases h with
  | propertiesEnd h₁ => exact absurd h₁.kind hk
  | lastProperty _ h₁ h₂ => exact ⟨_, _, h₁, .inl h₂⟩
  | moreProperties _ h₁ h₂ h₃ => exact ⟨_, _, h₁, .inr ⟨_, _, h₂, h₃⟩⟩

theorem Continues.kind (h : Continues b l l') : l.hand.kind = .comma ∨ l.hand.kind = .rBrace := by
  rcases h with h | ⟨_, _, h, -⟩
  · exact .inr h.kind
  · exact .inl h.kind

/-- **Items that go on as properties are names**, and a brace is behind them. -/
theorem names_of_continues {items : List Expr} (h : Derives b .itemsRest y items l₄) (hl : l₄.hand.kind ≠ .colon)
    (hx : Continues b x l') (hxy : Alike x y) :
    l₄.hand.kind = .rBrace ∧ ∀ i ∈ items, isIdentifier i = true := by
  induction items generalizing x y with
  | nil =>
    cases h with
    | noItem hn =>
      refine ⟨?_, nofun⟩
      rw [← hxy.hand] at hn ⊢
      exact hx.kind.resolve_left hn
  | cons i items ih =>
    cases h with
    | item h₁ h₂ h₃ =>
      rename_i y₁ y₂
      have hy := h₁.ready
      rcases hx with hx | ⟨x₁, props, hx, hprops⟩
      · have := hx.kind.symm.trans ((congrArg Token.kind hxy.hand).trans h₁.kind)
        cases this
      · cases (hxy.takes hy hx).toSteps.unique h₁.toSteps
        have hbrace : y₁.hand.kind ≠ .rBrace := fun hk => by
          have := h₂.led.not_closes
          rw [hk] at this
          cases this
        obtain ⟨p, x₂, hp, hx₂⟩ := continues_of_properties hprops hbrace
        cases hp with
        | shorthand h₄ hk =>
          have hends : endsAssignment x₂.hand := hk.elim (endsAssignment_of_kind · rfl) (endsAssignment_of_kind · rfl)
          have ha := (Derives.identifier (b := b) h₄).assignment_of_primary (by rw [h₄.kind]; rfl) hends
          obtain ⟨rfl, hal⟩ := ha.unique_assignment h₂
          obtain ⟨hl₄, hi⟩ := ih h₃ hx₂ hal
          exact ⟨hl₄, List.forall_mem_cons.2 ⟨rfl, hi⟩⟩
        | pair h₄ h₅ h₆ =>
          -- The item would be the key, and end in front of the colon.
          have hc := hand_of_key h₄ h₅.kind h₂
          cases h₃ with
          | noItem => exact absurd hc hl
          | item h₇ => cases h₇.kind.symm.trans hc

/-- **Names with commas between them are properties**, if a brace is behind them. -/
theorem continues_of_names {items : List Expr} (h : Derives b .itemsRest y items l₄)
    (hi : ∀ i ∈ items, isIdentifier i = true) (hl : l₄.Takes .rBrace l') : Continues b y l' := by
  induction items generalizing y with
  | nil =>
    cases h with
    | noItem => exact .inl hl
  | cons i items ih =>
    cases h with
    | item h₁ h₂ h₃ =>
      obtain ⟨hi₁, hi⟩ := List.forall_mem_cons.1 hi
      have ht := h₂.plain.1 hi₁
      have hc := ih h₃ hi
      obtain ⟨props, hp⟩ := hc.properties (by rw [ht.kind]; nofun) (.shorthand ht hc.kind)
      exact .inr ⟨_, props, h₁, hp⟩

/-! ## The statement behind a label -/

/-- The expression is a sequence, and not all items behind the first are names. -/
def hasLooseItem : Expr → Bool
  | .sequence _ (_ :: items) => items.any fun i => !isIdentifier i
  | _                        => false

@[simp] theorem hasLooseItem_move (m : Move) (e : Expr) : hasLooseItem (e.move m) = hasLooseItem e := by
  cases e with
  | sequence s items =>
    rcases items with _ | ⟨i, items⟩
    · rfl
    · simp only [Expr.move, moveItems, hasLooseItem]
      induction items with
      | nil => rfl
      | cons i items ih => rw [moveItems, List.any_cons, List.any_cons, ih, isIdentifier_move]
  | _ => rfl

/-- A label and an expression in braces, and the places between them. -/
structure Label (b : Bool) (l l₁ l₂ l₃ l₄ l₅ l' : Lexer) (e : Expr) : Prop where
  opens  : l.Takes .lBrace l₁
  name   : l₁.Takes .identifier l₂
  colon  : l₂.Takes .colon l₃
  body   : Derives b .expression l₃ e l₄
  ending : Derives b .ending l₄ () l₅
  closes : l₅.Takes .rBrace l'

theorem label_of_block {s₁ s₂ : Span} {name : String} (h : Derives b .block l [.labeled s₁ name (.expression s₂ e)] l') :
    ∃ l₁ l₂ l₃ l₄ l₅, Label b l l₁ l₂ l₃ l₄ l₅ l' e ∧ s₂ = l₃.upTo l₅ := by
  cases h with
  | block h₁ h =>
    cases h with
    | blockItem _ _ h h' =>
      cases h' with
      | blockEnd h₆ =>
        cases h with
        | labeled _ h₂ h₃ h =>
          cases h with
          | expressionStatement _ h₄ _ h₅ => exact ⟨_, _, _, _, _, ⟨h₁, h₂.plain rfl, h₃, h₄, h₅, h₆⟩, rfl⟩

namespace Label

/-- Behind the expression there is a semicolon, or the brace. -/
theorem kind (h : Label b l l₁ l₂ l₃ l₄ l₅ l' e) :
    l₄.Takes .semicolon l₅ ∨ (l₄ = l₅ ∧ l₄.Takes .rBrace l') := by
  cases h.ending with
  | semicolon h₁ => exact .inl h₁
  | lineEnd => exact .inr ⟨rfl, h.closes⟩

/-- **What is an object literal has no semicolon**, and no items but names. -/
theorem of_leads (h : Label b l l₁ l₂ l₃ l₄ l₅ l' e) (ho : Leads b l) :
    l₄.hand.kind = .rBrace ∧ hasLooseItem e = false := by
  have hcolon : l₄.hand.kind ≠ .colon := by
    rcases h.kind with h₁ | ⟨-, h₁⟩ <;> rw [h₁.kind] <;> nofun
  obtain ⟨props, m, hprops⟩ := (ho.bracket h.opens).2 rfl
  obtain ⟨p, x, hp, hx⟩ := continues_of_properties hprops (by rw [h.name.kind]; nofun)
  cases hp with
  | shorthand h₁ hk =>
    cases h₁.toSteps.unique h.name.toSteps
    rw [h.colon.kind] at hk
    rcases hk with hk | hk <;> cases hk
  | pair h₁ h₂ h₃ =>
    -- The key is the label, and so the value starts where the expression does.
    have hkey : ∀ {k : Kind} {l₂ : Lexer}, l₁.Takes k l₂ → k = .identifier := fun ht => ht.kind.symm.trans h.name.kind
    cases h₁ with
    | textKey h₄ => cases hkey h₄
    | numberKey h₄ => cases hkey h₄
    | computedKey h₄ => cases hkey h₄
    | nameKey h₄ =>
      cases h₄.unique h.name.toSteps
      cases h₂.toSteps.unique h.colon.toSteps
      cases h.body with
      | single h₅ hn =>
        have hal := (h₃.unique_assignment h₅).2
        rw [← hal.hand] at hn ⊢
        refine ⟨hx.kind.resolve_left hn, ?_⟩
        have := h₅.plain.2
        cases e <;> first | rfl | exact absurd rfl (this _ _)
      | sequence h₅ hk h₆ =>
        obtain ⟨hl₄, hi⟩ := names_of_continues h₆ hcolon hx (h₃.unique_assignment h₅).2
        refine ⟨hl₄, ?_⟩
        simpa [hasLooseItem] using hi

/-- **What has no semicolon and no items but names is an object literal** too. -/
theorem object (h : Label b l l₁ l₂ l₃ l₄ l₅ l' e) (hl : l₄.hand.kind = .rBrace) (he : hasLooseItem e = false) :
    ∃ s props, Derives b .primary l (.object s props) l' := by
  have hclose : l₄.Takes .rBrace l' := by
    rcases h.kind with h₁ | ⟨-, h₁⟩
    · cases h₁.kind.symm.trans hl
    · exact h₁
  have hvalue : ∃ e' y, Derives b .assignment l₃ e' y ∧ Continues b y l' := by
    cases h.body with
    | single h₁ => exact ⟨_, _, h₁, .inl hclose⟩
    | sequence h₁ _ h₂ => exact ⟨_, _, h₁, continues_of_names h₂ (by simpa [hasLooseItem] using he) hclose⟩
  obtain ⟨e', y, h₁, hy⟩ := hvalue
  obtain ⟨props, hp⟩ := hy.properties (by rw [h.name.kind]; nofun)
    (.pair (.nameKey h.name.toSteps (by rw [h.name.kind]; rfl)) h.colon h₁)
  exact ⟨_, props, .object h.opens hp⟩

/-- A label in braces in front of a cut is one of the other text. -/
theorem cut {front : Nat} {x y : List Char} (h : Label b l l₁ l₂ l₃ l₄ l₅ l' e) (c : Cut front x y l') :
    Label b (swap front x y l) (swap front x y l₁) (swap front x y l₂) (swap front x y l₃) (swap front x y l₄)
        (swap front x y l₅) (swap front x y l') (e.move (.right front)) ∧
      (swap front x y l₄).hand.kind = l₄.hand.kind := by
  have T := c.transport
  have i₅ : l₅.Goes l' := h.closes.goes
  have i₄ : l₄.Goes l' := h.ending.goes.trans i₅
  have i₃ : l₃.Goes l' := h.body.goes.trans i₄
  have i₂ : l₂.Goes l' := h.colon.goes.trans i₃
  have i₁ : l₁.Goes l' := h.name.goes.trans i₂
  have inner₅ := T.inner h.closes.toSteps .stay
  have inner₄ : Inner (.right front) (·.Goes l') (swap front x y) l₄ := by
    rcases h.kind with h₁ | ⟨-, h₁⟩
    · exact T.inner h₁.toSteps i₅
    · exact T.inner h₁.toSteps .stay
  exact ⟨⟨T.takes h.opens i₁, T.takes h.name i₂, T.takes h.colon i₃, h.body.moved T inner₄.stands,
    h.ending.moved T inner₅.stands, T.takes h.closes .stay⟩, inner₄.same.kind⟩

end Label

/-! ## Blocks -/

theorem block_of_statement {s : Span} {body : List Stmt} (h : Derives b .statement l (.block s body) l') :
    Derives b .block l body l' := by
  cases h with
  | blockStatement h => exact h

/-- **A block that starts as an object literal is one**, if there is nothing in it or a label and an expression. -/
theorem object_of_block {body : List Stmt} (h : Derives b .block l body l') (ho : Leads b l)
    (hb : body = [] ∨ ∃ s₁ name s₂ e, body = [.labeled s₁ name (.expression s₂ e)]) :
    ∃ s props, Derives b .primary l (.object s props) l' := by
  rcases hb with rfl | ⟨s₁, name, s₂, e, rfl⟩
  · cases h with
    | block h₁ h =>
      cases h with
      | blockEnd h₂ => exact ⟨_, _, .object h₁ (.propertiesEnd h₂)⟩
  · obtain ⟨l₁, l₂, l₃, l₄, l₅, hl, -⟩ := label_of_block h
    obtain ⟨hk, hi⟩ := hl.of_leads ho
    exact hl.object hk hi

/-- A program that is one block. -/
theorem block_of_derivesAll {s : Span} {body : List Stmt} (h : DerivesAll l [.block s body] l') :
    Derives false .block l body l' ∧ l'.hand.kind = .eof := by
  cases h with
  | more _ h₁ h₂ =>
    cases h₂ with
    | done hk => exact ⟨block_of_statement h₁, hk⟩

end Readback.Grammar
