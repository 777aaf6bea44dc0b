import Readback.Session
import Readback.Text.Backspace
/-!
# The console

A console reads lines and answers each with a line of output or of errors.  Blank lines are passed over; `:quit` and
`:exit` end it, and `:bindings` lists what is bound.  Every other line is a snippet to be inspected.
-/
namespace Readback.Console

/-- A line of what the console prints. -/
inductive Print where
  | output (text : String)
  | complaint (text : String)
deriving DecidableEq, Inhabited, Repr

def Print.text : Print → String
  | .output t | .complaint t => t

inductive Line where
  | quit
  | blank
  | bindings
  | snippet (text : String)
deriving DecidableEq, Inhabited, Repr

/-- What a line asks for, once its backspaces have taken effect, blanks at its ends aside. -/
def Line.ofText (line : List Char) : Line :=
  let text := String.ofList (Text.trim (Text.typed line))
  if text = ":quit" ∨ text = ":exit" then .quit
  else if text = "" then .blank
  else if text = ":bindings" then .bindings
  else .snippet text

/-- The pieces of a text between line feeds.  A carriage return in front of a line feed goes with it. -/
def lines : List Char → List (List Char)
  | []                 => [[]]
  | '\n' :: cs         => [] :: lines cs
  | '\r' :: '\n' :: cs => [] :: lines cs
  | c :: cs            => Text.consFirst c (lines cs)

/-- A binding and what it is bound to; a value whose text is the path itself, or that has none, is shown by its type. -/
def bindingLine (s : Session) (path : String) (value : Value) : String :=
  let shown := match s.renderer.source value with
    | .ok text => if text = path then none else some text
    | .error _ => none
  path ++ " = " ++ shown.getD ("<" ++ value.typeOf s.heap ++ ">")

def answer : Except Failure String → Print
  | .ok text               => .output text
  | .error (.diagnostic d) => .complaint d.headline
  | .error other           => .complaint ("error: " ++ other.display)

/-- What the console prints for one line, and the session behind it; nothing, when the line ends it. -/
def step (s : Session) : Line → Option (List Print × Session)
  | .quit         => none
  | .blank        => some ([], s)
  | .bindings     => some (s.registry.entries.map (fun e => .output (bindingLine s e.1 e.2)), s)
  | .snippet text =>
    let (result, s') := s.inspect text
    some ([answer result], s')

/-- What the console prints for its lines, and the session at the end. -/
def run (s : Session) : List Line → List Print × Session
  | []           => ([], s)
  | line :: rest =>
    match step s line with
    | none              => ([], s)
    | some (prints, s') =>
      let (more, last) := run s' rest
      (prints ++ more, last)

/-- What a console with nothing bound prints for all of its input. -/
def transcript (input : String) : List Print := (run {} ((lines input.toList).map Line.ofText)).1

end Readback.Console
