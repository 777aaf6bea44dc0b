import Readback.Console
/-!
# Commands

What the program does for each of its commands, up to the printing.  A command that cannot answer prints nothing and
exits with a status of one.
-/
namespace Readback

inductive Command where
  /-- Normalizes a snippet. -/
  | normalize (source : String) (oneExpression : Bool)
  /-- Normalizes the contents of a file, when it can be read. -/
  | check (contents : Option String) (oneExpression : Bool)
  /-- Evaluates a snippet and writes the value. -/
  | inspect (source : String)
  /-- Answers lines of input. -/
  | console (input : String)
deriving DecidableEq, Inhabited, Repr

/-- What is printed, and the status of the exit. -/
structure Answer where
  prints : List Console.Print
  status : Nat
deriving DecidableEq, Inhabited, Repr

namespace Answer

def failed : Answer := ⟨[], 1⟩

def line : Option String → Answer
  | some text => ⟨[.output text], 0⟩
  | none      => failed

/-- What goes to the standard output. -/
def output (a : Answer) : String :=
  String.join (a.prints.map (fun
    | .output text  => text ++ "\n"
    | .complaint _  => ""))

/-- What goes to the standard output and to the standard error, in order. -/
def everything (a : Answer) : String := String.join (a.prints.map (fun p => p.text ++ "\n"))

end Answer

def Command.run : Command → Answer
  | .normalize source oneExpression       => .line (Readback.normalize source oneExpression).toOption
  | .check (some contents) oneExpression  => .line (Readback.normalize contents oneExpression).toOption
  | .check none _                         => .failed
  | .inspect source                       => .line (({} : Session).inspect source).1.toOption
  | .console input                        => ⟨Console.transcript input, 0⟩

end Readback
