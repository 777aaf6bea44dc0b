import Readback.Span
import Readback.Text.Digits
/-!
# Diagnostics

What a user is told when a snippet is refused: the stage that refused it, the message, the text it points at, and
notes.  A stage is either about the form of the text (tokens, grammar, normalizing) or about the value that well-formed
text would build (evaluation).
-/
namespace Readback

/-- The stage of reading a snippet that refused it. -/
inductive Stage where
  | lexer
  | parser
  | normalize
  | evaluate
deriving DecidableEq, Inhabited, Repr

namespace Stage

def name : Stage → String
  | .lexer     => "Lexer"
  | .parser    => "Parser"
  | .normalize => "Normalize"
  | .evaluate  => "Evaluate"

def ofName? : String → Option Stage
  | "Lexer"     => some .lexer
  | "Parser"    => some .parser
  | "Normalize" => some .normalize
  | "Evaluate"  => some .evaluate
  | _           => none

/-- The text itself is at fault, not the value it would build. -/
def rejectsForm : Stage → Bool
  | .evaluate => false
  | _         => true

theorem ofName?_name (s : Stage) : ofName? s.name = some s := by cases s <;> rfl

end Stage

structure Diagnostic where
  stage   : Stage
  message : String
  span    : Option Span := none
  notes   : List String := []
deriving DecidableEq, Inhabited, Repr

namespace Diagnostic

def rejectsForm (d : Diagnostic) : Bool := d.stage.rejectsForm

/-- The stage and the message on one line, without the place. -/
def headline (d : Diagnostic) : String := d.stage.name ++ ": " ++ d.message

def place : Option Span → String
  | none   => ""
  | some s => " (" ++ Text.decimal s.start ++ ".." ++ Text.decimal s.stop ++ ")"

def noteLines : List String → String
  | []    => ""
  | notes => "\n" ++ String.join (notes.map (fun n => "  note: " ++ n ++ "\n"))

/-- The whole report: headline, place, and each note on a line of its own. -/
def display (d : Diagnostic) : String := d.headline ++ place d.span ++ noteLines d.notes

end Diagnostic

end Readback
