/-!
# Operators

The operators of expressions.  `Pow` alone among the binary ones groups to the right; the others group to the left, and
`precedence` says which of two binds more tightly.
-/
namespace Readback

inductive BinaryOp where
  | add | sub | mul | div | mod | pow
  | equal | notEqual | strictEqual | strictNotEqual
  | less | lessEqual | greater | greaterEqual
  | shiftLeft | shiftRight | unsignedShiftRight
  | bitAnd | bitOr | bitXor
  | and | or | nullish
  | in | instanceof
deriving DecidableEq, Inhabited, Repr

def BinaryOp.precedence : BinaryOp → Nat
  | .nullish | .or => 1
  | .and => 2
  | .bitOr => 3
  | .bitXor => 4
  | .bitAnd => 5
  | .equal | .notEqual | .strictEqual | .strictNotEqual => 6
  | .less | .lessEqual | .greater | .greaterEqual | .in | .instanceof => 7
  | .shiftLeft | .shiftRight | .unsignedShiftRight => 8
  | .add | .sub => 9
  | .mul | .div | .mod => 10
  | .pow => 11

/-- The least precedence that an operator takes on its right. -/
def BinaryOp.rightPrecedence (op : BinaryOp) : Nat := if op = .pow then op.precedence else op.precedence + 1

inductive UnaryOp where
  | negate | plus | not | bitNot | typeof | void | delete
deriving DecidableEq, Inhabited, Repr

inductive UpdateOp where
  | increment | decrement
deriving DecidableEq, Inhabited, Repr

end Readback
