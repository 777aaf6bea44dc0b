import Readback.Proofs.Grammar.Cut
/-!
# Operands on their own

An operand that nothing goes on with is an expression of every sort.
-/
namespace Readback.Grammar

open Token (Kind)

variable {b : Bool} {l l' : Lexer} {e : Expr}

/-- The token can start an operand that has no operator in front of it. -/
def opensPrimary (k : Kind) : Bool := k != .keyword .new && (unaryOp? k).isNone && (updateOp? k).isNone

theorem Derives.assignment_of_unary (h : Derives b .unary l e l') (he : endsAssignment l'.hand) :
    Derives b .assignment l e l' :=
  .noAssign (.noChoice (.binary (.operators h) he.1.2) he.2.1) he.2.2

theorem Derives.unary_of_primary (h : Derives b .primary l e l') (ho : opensPrimary l.hand.kind = true)
    (he : endsUnary l'.hand) : Derives b .unary l e l' := by
  simp only [opensPrimary, Bool.and_eq_true, bne_iff_ne, Option.isNone_iff_eq_none] at ho
  exact .noPrefix ho.1.2 ho.2 (.noUpdate (.member (.primaryChain ho.1.1 h) he.1) he.2)

theorem Derives.assignment_of_primary (h : Derives b .primary l e l') (ho : opensPrimary l.hand.kind = true)
    (he : endsAssignment l'.hand) : Derives b .assignment l e l' :=
  (h.unary_of_primary ho he.1.1).assignment_of_unary he

/-- **An operand is an expression** when nothing goes on with it. -/
theorem Derives.expression_of_primary (h : Derives b .primary l e l') (ho : opensPrimary l.hand.kind = true)
    (he : endsExpression l'.hand) : Derives b .expression l e l' :=
  .single (h.assignment_of_primary ho he.1) he.2

/-- The token ends what is in front of it. -/
def closes : Kind → Bool
  | .colon | .rBrace | .rParen | .rBracket | .comma | .semicolon | .eof => true
  | _ => false

/-- Every assignment may stand in front of what closes it. -/
theorem endsAssignment_of_kind {t : Token} {k : Kind} (ht : t.kind = k) (hk : closes k = true) : endsAssignment t := by
  have hall : extendsChain true k = false ∧ updateOp? k = none ∧ operatorHere? 0 k = none ∧ k ≠ .question ∧
      isAssign k = false := by
    revert hk
    cases k <;> first | exact fun _ => by decide | exact fun h => nomatch h
  obtain ⟨hcall, hupdate, hbinary, hquestion, hassign⟩ := hall
  rw [← ht] at hcall hupdate hbinary hquestion hassign
  refine ⟨⟨⟨hcall, ?_⟩, hbinary⟩, hquestion, hassign⟩
  unfold updateHere?
  rw [hupdate, ite_self]

/-- Every expression may stand in front of what closes it, which a comma does not. -/
theorem endsExpression_of_kind {t : Token} {k : Kind} (ht : t.kind = k) (hk : closes k = true) (hc : k ≠ .comma) :
    endsExpression t :=
  ⟨endsAssignment_of_kind ht hk, ht ▸ hc⟩

end Readback.Grammar
