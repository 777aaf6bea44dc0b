import Readback.Text.Blank
import Readback.Token.Name
/-!
# Regular expression tokens

A regular expression stands between two slashes, on one line, and has its flags behind the second.  A slash between
brackets or behind a backslash does not close it.
-/
namespace Readback.Token

open Text (endsLine)

/-- How many characters follow the opening slash up to the closing one, and whether there is one; `inside` says whether
a bracket is open. -/
def regexBody (inside : Bool) : List Char → Nat × Bool
  | []              => (0, false)
  | '\\' :: []      => (1, false)
  | '\\' :: c :: cs => if endsLine c then (2, false) else ((regexBody inside cs).1 + 2, (regexBody inside cs).2)
  | c :: cs =>
    if c == '/' && !inside then (1, true)
    else if endsLine c then (1, false)
    else
      let body := regexBody (c == '[' || (c != ']' && inside)) cs
      (body.1 + 1, body.2)

/-- A slash, the body, a slash, and flags. -/
def regex (cs : List Char) : Scan Unit :=
  let (n, closed) := regexBody false (cs.drop 1)
  if closed then ⟨n + 1 + (nameRun (cs.drop (n + 1))).length, .ok ()⟩ else ⟨n + 1, .error .openRegex⟩

end Readback.Token
