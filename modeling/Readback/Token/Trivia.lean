import Readback.Text.Blank
/-!
# Trivia

What stands between tokens and is skipped: blanks, the byte order mark, comments to the end of a line, and comments
between `/*` and `*/`.  Of all this a grammar sees only whether a line ends in it, inside a comment of the second form
too.
-/
namespace Readback.Token

open Text (isBlank endsLine)

/-- A character that is skipped on its own. -/
def isSpace (c : Char) : Bool := isBlank c || c == '\uFEFF'

/-- The body of a comment, when `*/` closes it. -/
def commentBody? : List Char → Option (List Char)
  | '*' :: '/' :: _ => some []
  | c :: cs         => (commentBody? cs).map (c :: ·)
  | []              => none

/-- How much trivia a text begins with, whether a line ends in it, and whether a comment is open behind it. -/
structure Trivia where
  size        : Nat
  newline     : Bool
  openComment : Bool
deriving DecidableEq, Inhabited

namespace Trivia

/-- The trivia with `n` characters more in front, among them perhaps the end of a line. -/
def after (n : Nat) (newline : Bool) (t : Trivia) : Trivia := ⟨n + t.size, newline || t.newline, t.openComment⟩

def none : Trivia := ⟨0, false, false⟩

end Trivia

/-- The body of a comment that ends with its line. -/
def lineBody (cs : List Char) : List Char := cs.takeWhile (fun c => !endsLine c)

/-- Nothing else than trivia is skipped, and all of it. -/
def trivia : List Char → Trivia
  | '/' :: '/' :: cs =>
    let n := (lineBody cs).length
    (trivia (cs.drop n)).after (n + 2) false
  | '/' :: '*' :: cs =>
    match commentBody? cs with
    | some body => (trivia (cs.drop (body.length + 2))).after (body.length + 4) (body.any endsLine)
    | none      => ⟨0, false, true⟩
  | c :: cs => if isSpace c then (trivia cs).after 1 (endsLine c) else .none
  | []      => .none
termination_by cs => cs.length
decreasing_by all_goals (simp only [List.length_drop, List.length_cons]; omega)

end Readback.Token
