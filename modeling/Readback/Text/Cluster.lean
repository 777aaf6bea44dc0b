import Readback.Text.Joint
/-!
# Clusters of characters

The clusters of a text are what a person takes for its characters: the extended grapheme clusters of Unicode.  `joins` has
the rules: whether there is no boundary between a text and the character behind it.  The clusters are what stands between
boundaries.
-/
namespace Readback.Text

/-- The text, last character first, ends in a picture and marks. -/
def endsInPicture (before : List Char) : Bool :=
  (before.dropWhile (fun c => joint c == .mark)).head?.any (fun c => joint c == .picture)

/-- The text, last character first, ends in a consonant with a linker among the marks behind it. -/
def endsInLinkedConsonant (before : List Char) : Bool :=
  (before.takeWhile isWithinConsonants).any isLinker &&
    (before.dropWhile isWithinConsonants).head?.any (fun c => joint c == .consonant)

/-- The text, last character first, ends in a letter of a flag that has none to pair with. -/
def endsInHalfFlag (before : List Char) : Bool := (before.takeWhile (fun c => joint c == .flag)).length % 2 == 1

/-- A character joins the text before it, which is given last character first. -/
def joins (before : List Char) (c : Char) : Bool :=
  match before with
  | []        => false
  | last :: _ =>
    match joint last, joint c with
    | .carriageReturn, .lineFeed => true
    | .carriageReturn, _ | .lineFeed, _ | .control, _ => false
    | _, .carriageReturn | _, .lineFeed | _, .control => false
    | .lead, .lead | .lead, .vowel | .lead, .openSyllable | .lead, .closedSyllable => true
    | .openSyllable, .vowel | .openSyllable, .trail | .vowel, .vowel | .vowel, .trail => true
    | .closedSyllable, .trail | .trail, .trail => true
    | _, .mark | _, .joiner | _, .spacing => true
    | .prepended, _ => true
    | _, .consonant => endsInLinkedConsonant before
    | .joiner, .picture => endsInPicture (before.drop 1)
    | .flag, .flag => endsInHalfFlag before
    | _, _ => false

/-- A character in front of the first cluster. -/
def consFirst (c : Char) : List (List Char) → List (List Char)
  | []            => [[c]]
  | first :: rest => (c :: first) :: rest

/-- The clusters of a text that follows a text, which is given last character first. -/
def clustersAfter (before : List Char) : List Char → List (List Char)
  | []      => []
  | c :: cs =>
    let rest := clustersAfter (c :: before) cs
    if cs.head?.any (joins (c :: before)) then consFirst c rest else [c] :: rest

def clusters (cs : List Char) : List (List Char) := clustersAfter [] cs

end Readback.Text
