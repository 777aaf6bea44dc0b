import Readback.Proofs.Grammar.Climb
import Readback.Proofs.Grammar.Unique
/-!
# How an expression starts

An expression starts with an operand, or with an operator in front of one.
-/
namespace Readback.Grammar

open Token (Kind)

variable {b : Bool} {p : Phrase} {l l₁ l' : Lexer} {e : Expr}

/-- What stands at the start of an expression. -/
inductive Leads (b : Bool) (l : Lexer) : Prop
  | primary {e : Expr} {l' : Lexer} (h : Derives b .primary l e l')
  | construct {l₁ l' : Lexer} {e : Expr} (h₁ : l.Takes (.keyword .new) l₁) (h₂ : Derives b (.member false) l₁ e l')
  | unary {l₁ l' : Lexer} {e : Expr} (h₁ : l.Steps l₁) (hk : (unaryOp? l.hand.kind).isSome ∨ (updateOp? l.hand.kind).isSome)
      (h₂ : Derives b .unary l₁ e l')

/-- What a phrase starts with, if it starts with an operand that is no primary expression itself. -/
def Led (b : Bool) : Phrase → Lexer → Prop
  | .expression, l | .assignment, l | .conditional, l | .binary _, l | .operators _, l | .unary, l | .update, l
  | .member _, l | .chain _, l | .construct, l => Leads b l
  | _, _ => True

/-- **An expression starts with an operand.** -/
theorem Derives.led {a : p.Result} (h : Derives b p l a l') : Led b p l := by
  induction h <;> simp only [Led] at * <;> grind [Leads]

/-! ## The token at the start -/

/-- The tokens that an operand can start with, when no operator is in front of it. -/
def beginsOperand : Kind → Bool
  | .number | .string | .regex | .identifier | .slash | .compoundAssign | .lParen | .lBracket | .lBrace => true
  | .keyword .true | .keyword .false | .keyword .null | .keyword .this | .keyword .function | .keyword .new => true
  | _ => false

/-- The tokens that an expression can start with. -/
def begins (k : Kind) : Bool := beginsOperand k || (unaryOp? k).isSome || (updateOp? k).isSome

theorem begins_of_primary (h : Derives b .primary l e l') : begins l.hand.kind = true ∧ opensPrimary l.hand.kind = true := by
  cases h with
  | word h₁ h₂ =>
    unfold wordLiteral? at h₂
    split at h₂ <;> first | (rename_i hk; rw [hk]; decide) | cases h₂
  | slash h₁ => rcases h₁.slash with hk | ⟨hk, -⟩ <;> rw [hk] <;> decide
  | number h₁ _ => rw [h₁.kind]; decide
  | text h₁ => rw [h₁.kind]; decide
  | regex h₁ => rw [h₁.kind]; decide
  | identifier h₁ => rw [h₁.kind]; decide
  | this h₁ => rw [h₁.kind]; decide
  | function h₁ _ _ => rw [h₁.kind]; decide
  | group h₁ _ _ => rw [h₁.kind]; decide
  | array h₁ _ => rw [h₁.kind]; decide
  | object h₁ _ => rw [h₁.kind]; decide

theorem closes_of_begins {k : Kind} (h : begins k = true) : closes k = false := by
  revert h
  cases k <;> first | exact fun _ => rfl | exact fun h => absurd h (by decide)

theorem opensPrimary_of_primary (h : Derives b .primary l e l') :
    opensPrimary l.hand.kind = true ∧ closes l.hand.kind = false :=
  ⟨(begins_of_primary h).2, closes_of_begins (begins_of_primary h).1⟩

theorem begins_of_leads (h : Leads b l) : begins l.hand.kind = true := by
  cases h with
  | primary h => exact (begins_of_primary h).1
  | construct h₁ _ => rw [h₁.kind]; rfl
  | unary _ hk _ => rcases hk with hk | hk <;> simp [begins, hk]

theorem Leads.not_closes (h : Leads b l) : closes l.hand.kind = false := closes_of_begins (begins_of_leads h)

theorem Leads.ne_else (h : Leads b l) : l.hand.kind ≠ .keyword .else := fun hk => by
  have := begins_of_leads h
  rw [hk] at this
  cases this

/-- What starts with a parenthesis has an expression in it, and what starts with a brace has properties. -/
theorem Leads.bracket {k : Kind} (h : Leads b l) (ht : l.Takes k l₁) :
    (k = .lParen → ∃ e m, Derives b .expression l₁ e m) ∧
      (k = .lBrace → ∃ props m, Derives b .propertiesRest l₁ props m) := by
  have hkind : ∀ {k' : Kind} {l₂ : Lexer}, l.Takes k' l₂ → k = k' := fun h => ht.kind.symm.trans h.kind
  cases h with
  | construct h₁ =>
    cases hkind h₁
    exact ⟨nofun, nofun⟩
  | unary _ ho =>
    rw [ht.kind] at ho
    constructor <;> rintro rfl <;> rcases ho with ho | ho <;> cases ho
  | primary h =>
    cases h with
    | group h₁ h₂ =>
      cases hkind h₁
      cases h₁.toSteps.unique ht.toSteps
      exact ⟨fun _ => ⟨_, _, h₂⟩, nofun⟩
    | object h₁ h₂ =>
      cases hkind h₁
      cases h₁.toSteps.unique ht.toSteps
      exact ⟨nofun, fun _ => ⟨_, _, h₂⟩⟩
    | word _ hw =>
      rw [ht.kind] at hw
      constructor <;> rintro rfl <;> cases hw
    | slash h₁ =>
      constructor <;> rintro rfl <;> rcases h₁.slash with hs | ⟨hs, -⟩ <;> cases hs.symm.trans ht.kind
    | number h₁ => cases hkind h₁; exact ⟨nofun, nofun⟩
    | text h₁ => cases hkind h₁; exact ⟨nofun, nofun⟩
    | regex h₁ => cases hkind h₁; exact ⟨nofun, nofun⟩
    | identifier h₁ => cases hkind h₁; exact ⟨nofun, nofun⟩
    | this h₁ => cases hkind h₁; exact ⟨nofun, nofun⟩
    | function h₁ => cases hkind h₁; exact ⟨nofun, nofun⟩
    | array h₁ => cases hkind h₁; exact ⟨nofun, nofun⟩

/-! ## Statements -/

theorem opensStatement_of_declKind {k : Kind} (h : (declKind? k).isSome = true) : opensStatement k = true := by
  unfold opensStatement
  split <;> first | rfl | exact h

/-- Where no statement of a sort of its own starts, every statement starts with an expression. -/
theorem expression_of_statement {s : Stmt} (h : Derives b .statement l s l') (hk : opensStatement l.hand.kind = false) :
    ∃ e m, Derives b .expression l e m := by
  have hkind : ∀ {k : Kind} {l₁ : Lexer}, l.Takes k l₁ → opensStatement k = false := fun ht => ht.kind ▸ hk
  cases h with
  | labeled _ h₁ => exact ⟨_, _, h₁⟩
  | expressionStatement _ h₁ => exact ⟨_, _, h₁⟩
  | blockStatement h =>
    cases h with
    | block h₁ => cases hkind h₁
  | declare _ h₁ =>
    rw [opensStatement_of_declKind (Option.isSome_of_eq_some h₁)] at hk
    cases hk
  | empty h₁ => cases hkind h₁
  | functionStatement h₁ => cases hkind h₁
  | choose h₁ => cases hkind h₁
  | whileLoop h₁ => cases hkind h₁
  | doLoop h₁ => cases hkind h₁
  | forLoop h₁ => cases hkind h₁
  | returns h₁ => cases hkind h₁
  | breaks h₁ => cases hkind h₁
  | continues h₁ => cases hkind h₁
  | throws h₁ => cases hkind h₁

/-- Of what starts an expression, only a brace and a function start a statement of a sort of its own. -/
theorem opensStatement_of_leads (h : Leads b l) (hb : l.hand.kind ≠ .lBrace) (hf : l.hand.kind ≠ .keyword .function) :
    opensStatement l.hand.kind = false := by
  have hk := begins_of_leads h
  revert hk hb hf
  generalize l.hand.kind = k
  intro hb hf hk
  cases k with
  | lBrace => exact absurd rfl hb
  | keyword w => cases w <;> first | rfl | exact absurd rfl hf | cases hk
  | _ => first | rfl | cases hk

/-! ## Names -/

/-- A name is an expression of one token; and a list of expressions is no operand. -/
def Plain : (p : Phrase) → Lexer → p.Result → Lexer → Prop
  | .expression, l, e, l' => isIdentifier e = true → l.Takes .identifier l'
  | .assignment, l, e, l' | .conditional, l, e, l' | .binary _, l, e, l' | .operators _, l, e, l' | .unary, l, e, l'
  | .update, l, e, l' | .member _, l, e, l' | .chain _, l, e, l' | .construct, l, e, l' | .primary, l, e, l' =>
    (isIdentifier e = true → l.Takes .identifier l') ∧ ∀ s items, e ≠ .sequence s items
  | _, _, _, _ => True

theorem Derives.plain {a : p.Result} (h : Derives b p l a l') : Plain p l a l' := by
  induction h <;> simp only [Plain, isIdentifier] at * <;> grind

end Readback.Grammar
