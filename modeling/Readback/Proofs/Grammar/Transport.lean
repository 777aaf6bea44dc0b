import Readback.Proofs.Grammar.Extent
import Readback.Proofs.Tree.Move
/-!
# The same phrase in another text

A phrase is made of its tokens, and of one token more behind it, which must not go on with it.  So where another text has
tokens of the same kinds and texts, it has the same phrase, if what is behind it there may stand behind it too.
-/
namespace Readback.Grammar

open Token (Kind)

/-! ## What may stand behind a phrase -/

def endsCall (t : Token) : Prop := extendsChain true t.kind = false

def endsUnary (t : Token) : Prop := endsCall t ∧ updateHere? t = none

def endsBinary (least : Nat) (t : Token) : Prop := endsUnary t ∧ operatorHere? least t.kind = none

def endsAssignment (t : Token) : Prop := endsBinary 0 t ∧ t.kind ≠ .question ∧ isAssign t.kind = false

def endsExpression (t : Token) : Prop := endsAssignment t ∧ t.kind ≠ .comma

/-- The token may stand behind any phrase of the sort.  It is asked of expressions, of what may end with one in a statement,
and of what ends by itself. -/
def Phrase.endsAt : Phrase → Token → Prop
  | .primary, _ | .block, _ | .blockRest, _ | .argumentsRest, _ | .elementsRest, _ | .propertiesRest, _
  | .signature, _ | .condition, _ | .propertyKey, _ => True
  | .member _, t | .chain _, t | .construct, t | .newArguments, t => endsCall t
  | .update, t | .unary, t => endsUnary t
  | .binary least, t | .operators least, t => endsBinary least t
  | .conditional, t | .assignment, t => endsAssignment t
  | .expression, t | .itemsRest, t | .declarators _, t => endsExpression t
  | .initializer _, t => endsAssignment t
  | .returned, t => endsExpression t ∧ endsStatement t = true
  | .jumpLabel, t => t.kind ≠ .identifier
  | _, _ => False

/-- The tree of a phrase, moved. -/
def Phrase.move (m : Move) : (p : Phrase) → p.Result → p.Result
  | .statement, a => a.move m
  | .ending, a | .whileEnd, a => a
  | .block, a | .blockRest, a => moveBody m a
  | .declarators _, a => moveDeclarators m a
  | .alternative, a | .forInit, a => moveBranch m a
  | .initializer _, a | .expressionUnless _, a | .returned, a => moveValue m a
  | .jumpLabel, a | .functionName, a => a
  | .parameters, a | .params, a => a
  | .signature, a => (a.1, moveBody m a.2)
  | .condition, a | .expression, a | .assignment, a | .conditional, a | .binary _, a | .operators _, a | .unary, a
  | .update, a | .member _, a | .chain _, a | .construct, a | .primary, a => a.move m
  | .itemsRest, a | .newArguments, a | .argumentsRest, a => moveItems m a
  | .elementsRest, a => moveElements m a
  | .propertiesRest, a => moveProperties m a
  | .property, a => a.move m
  | .propertyKey, a => a.move m

@[simp] theorem Phrase.move_stay (p : Phrase) (a : p.Result) : p.move .stay a = a := by
  cases p <;> simp only [Phrase.move, Expr.move_stay, Stmt.move_stay, Property.move_stay, PropertyKey.move_stay,
    moveItems_stay, moveElements_stay, moveProperties_stay, moveBody_stay, moveBranch_stay, moveValue_stay,
    moveDeclarators_stay]

/-! ## Another text -/

/-- The same token in another place. -/
structure Same (m : Move) (t u : Token) : Prop where
  kind    : u.kind = t.kind
  text    : u.text = t.text
  newline : u.newlineBefore = t.newlineBefore
  span    : u.span = t.span.move m

/-- Places of a text and the places that correspond to them in another one, where the same tokens are taken. -/
structure Transport (m : Move) (inside : Lexer → Prop) (φ : Lexer → Lexer) : Prop where
  back  : ∀ {l l'}, l.Goes l' → inside l' → inside l
  stop  : ∀ {l}, inside l → (φ l).cursor.pos = m.stop l.cursor.pos
  steps : ∀ {l l'}, l.Steps l' → inside l' → (φ l).Steps (φ l')
  same  : ∀ {l l'}, l.Steps l' → inside l' → Same m l.hand (φ l).hand
  again : ∀ {l u l'}, l.Rereads u l' → inside l' → Same m l.hand (φ l).hand ∧
    ∃ u', (φ l).Rereads u' (φ l') ∧ Same m u u'

/-- The corresponding place has the same token in hand. -/
structure Inner (m : Move) (inside : Lexer → Prop) (φ : Lexer → Lexer) (l : Lexer) : Prop where
  inside : inside l
  same   : Same m l.hand (φ l).hand

/-- What is in hand at the corresponding place may stand behind the phrase. -/
def Stands (m : Move) (inside : Lexer → Prop) (φ : Lexer → Lexer) (p : Phrase) (l : Lexer) : Prop :=
  inside l ∧ (Same m l.hand (φ l).hand ∨ p.endsAt (φ l).hand)

section

variable {m : Move} {inside : Lexer → Prop} {φ : Lexer → Lexer} {b : Bool} {p : Phrase} {l l' : Lexer} {k : Kind} {a : p.Result}

theorem Inner.stands (h : Inner m inside φ l) : Stands m inside φ p l := ⟨h.inside, .inl h.same⟩

theorem extendsChain_of_endsCall {calls : Bool} {t : Token} (h : endsCall t) : extendsChain calls t.kind = false := by
  simp only [endsCall, extendsChain, Bool.or_eq_false_iff, Bool.and_eq_false_iff] at h ⊢
  simp_all

theorem ne_lParen_of_endsCall {t : Token} (h : endsCall t) : t.kind ≠ .lParen := by
  intro hk
  simp [endsCall, extendsChain, hk] at h

/-- What may stand behind operators may stand behind the operand of one of them. -/
theorem endsBinary_of_operatorHere {least : Nat} {op : BinaryOp} {t : Token} (hk : operatorHere? least k = some op)
    (h : endsBinary least t) : endsBinary op.rightPrecedence t := by
  refine ⟨h.1, ?_⟩
  have hp : least ≤ op.precedence := by simpa using (Option.filter_eq_some_iff.1 hk).2
  have hr : op.precedence ≤ op.rightPrecedence := by
    unfold BinaryOp.rightPrecedence
    split <;> omega
  have ht := h.2
  unfold operatorHere? at ht ⊢
  rw [Option.filter_eq_none_iff] at ht ⊢
  intro op' hop'
  have := ht op' hop'
  simp only [decide_eq_true_eq] at this ⊢
  omega

/-- Items are taken where a comma is in hand. -/
theorem opens_of_itemsRest {items : List Expr} (h : Derives b .itemsRest l items l') (hk : l.hand.kind = .comma) :
    Opens l l' := by
  cases h with
  | noItem hn => exact absurd hk hn
  | item h₁ h₂ h₃ => exact (Opens.of_takes h₁).trans (h₂.goes.trans h₃.goes)

@[simp] theorem isTarget_move (e : Expr) : (e.move m).isTarget = e.isTarget := by cases e <;> rfl

@[simp] theorem isIdentifier_move (e : Expr) : isIdentifier (e.move m) = isIdentifier e := by cases e <;> rfl

theorem Transport.takes (T : Transport m inside φ) (h : l.Takes k l') (hi : inside l') : (φ l).Takes k (φ l') :=
  ⟨T.steps h.toSteps hi, (T.same h.toSteps hi).kind.trans h.kind⟩

theorem Transport.inner (T : Transport m inside φ) (h : l.Steps l') (hi : inside l') : Inner m inside φ l :=
  ⟨T.back h.goes hi, T.same h hi⟩

/-- Where the token in hand is taken, the other text has the same one in hand. -/
theorem Transport.inner_of_opens (T : Transport m inside φ) (h : Opens l l') (hi : inside l') : Inner m inside φ l := by
  obtain ⟨l₁, h₁ | ⟨u, h₁⟩, hb⟩ := h
  · exact T.inner h₁ (T.back hb hi)
  · exact ⟨T.back (h₁.goes.trans hb) hi, (T.again h₁ (T.back hb hi)).1⟩

/-- **A phrase that takes a token takes the same one in the other text.** -/
theorem Derives.inner (h : Derives b p l a l') (T : Transport m inside φ) (hp : p.least = 1) (hi : inside l') :
    Inner m inside φ l :=
  T.inner_of_opens (h.opens_of_least hp) hi

/-- A phrase in front of a token that is taken. -/
theorem Derives.inner_of_inner (h : Derives b p l a l') (T : Transport m inside φ) (hi : Inner m inside φ l') :
    Inner m inside φ l := by
  rcases h.opens with ho | ⟨-, rfl⟩
  · exact T.inner_of_opens ho hi.inside
  · exact hi

end

end Readback.Grammar
