import Readback.Grammar.Reading
import Readback.Tree.Basic
/-!
# The rules of the grammar

The rules that others refer to, each with the type of tree it reads.  A rule is written as a reading that is given all
rules to refer to, and refers to one only after it has taken a token.  So the rules can be tied together with an
allowance of steps, and every step has less text before it.
-/
namespace Readback.Grammar

inductive Rule where
  | statement
  /-- The statements of a block, and the brace behind them. -/
  | blockRest
  /-- The declarators from a name on. -/
  | declarators (kind : DeclKind)
  /-- The parameters from a name on. -/
  | params
  | expression
  /-- The items of a sequence behind a comma. -/
  | itemsRest
  | assignment
  | binary (least : Nat)
  /-- What follows a left operand. -/
  | binaryRest (least : Nat) (left : Expr)
  | unary
  /-- What follows a callee or the target of a member. -/
  | callRest (callee : Expr)
  /-- What follows `new`. -/
  | construct
  /-- What follows the target of a member in `new`. -/
  | memberRest (target : Expr)
  /-- The arguments of a call, and the parenthesis behind them. -/
  | argumentsRest
  /-- The elements of an array, and the bracket behind them. -/
  | elementsRest
  /-- The properties of an object, and the brace behind them. -/
  | propertiesRest

abbrev Rule.Result : Rule → Type
  | .statement      => Stmt
  | .blockRest      => List Stmt
  | .declarators _  => List Declarator
  | .params         => List String
  | .expression     => Expr
  | .itemsRest      => List Expr
  | .assignment     => Expr
  | .binary _       => Expr
  | .binaryRest _ _ => Expr
  | .unary          => Expr
  | .callRest _     => Expr
  | .construct      => Expr
  | .memberRest _   => Expr
  | .argumentsRest  => List Expr
  | .elementsRest   => List (Option Expr)
  | .propertiesRest => List Property

/-- All rules, as others refer to them. -/
abbrev Rules : Type := (r : Rule) → Reading r.Result

end Readback.Grammar
