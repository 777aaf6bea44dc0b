import Readback.Diagnostic
/-!
# Failures

What keeps the library from an answer: a snippet that was refused, a value that cannot be written, or a file that cannot
be read.
-/
namespace Readback

inductive Failure where
  /-- A snippet was refused. -/
  | diagnostic (d : Diagnostic)
  /-- An object was entered before. -/
  | recursion
  /-- Nothing selects a value that has to be named; the text says whether it is an object or a symbol. -/
  | noSelector (kind : String)
  /-- A value of this type can neither be written out nor be named. -/
  | unsupported (type : String)
  | unreadable (reason : String)
deriving DecidableEq, Inhabited, Repr

namespace Failure

def display : Failure → String
  | .diagnostic d      => d.display
  | .recursion         => "[Recursive data structure]"
  | .noSelector kind   => "[" ++ kind ++ " with no known selector]"
  | .unsupported type  => "[" ++ type ++ "]"
  | .unreadable reason => "I/O error: " ++ reason

/-- The form of the text is at fault. -/
def rejectsForm : Failure → Bool
  | .diagnostic d => d.rejectsForm
  | _             => false

end Failure

end Readback
