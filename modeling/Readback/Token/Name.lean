import Readback.Text.Alphabetic
import Readback.Text.Numeric
import Readback.Token.Basic
/-!
# Names

A name starts with a letter, an underscore or a dollar sign, and goes on with these and with numeric characters.  A name
that is a keyword is no identifier.
-/
namespace Readback.Token

open Text (isAlphabetic isNumeric)

def startsName (c : Char) : Bool := isAlphabetic c || c == '_' || c == '$'

def continuesName (c : Char) : Bool := isAlphabetic c || isNumeric c || c == '_' || c == '$'

/-- The longest piece of a name that a text begins with. -/
def nameRun (cs : List Char) : List Char := cs.takeWhile continuesName

def kindOfName (name : String) : Kind :=
  match Keyword.ofText? name with
  | some word => .keyword word
  | none      => .identifier

theorem continuesName_of_startsName {c : Char} (h : startsName c = true) : continuesName c = true := by
  simp only [startsName, continuesName, Bool.or_eq_true] at *
  rcases h with (h | h) | h <;> simp [h]

end Readback.Token
