import Readback.Command
/-!
# The program

Reads the command line, runs the command, and prints the answer.  Without a command it is a console on the standard
input, which answers each line as it comes.
-/
namespace Readback.CommandLine

/-- What a command line asks for. -/
inductive Request where
  | normalize (oneExpression : Bool) (source : String)
  | check (oneExpression : Bool) (file : String)
  | inspect (source : String)
  | console
deriving DecidableEq, Inhabited, Repr

/-- The option that asks for one expression, and the one argument; behind `--` all is argument. -/
def options : Bool → List String → Option (Bool × String)
  | one, ["--", argument]         => some (one, argument)
  | _, "--expression" :: rest     => options true rest
  | _, "-e" :: rest               => options true rest
  | one, [argument]               => some (one, argument)
  | _, [argument, "--expression"] => some (true, argument)
  | _, [argument, "-e"]           => some (true, argument)
  | _, _                          => none

def Request.ofArguments? : List String → Option Request
  | []                        => some .console
  | ["repl"]                  => some .console
  | "normalize" :: rest       => (options false rest).map (fun (one, source) => .normalize one source)
  | "check" :: rest           => (options false rest).map (fun (one, file) => .check one file)
  | ["inspect", "--", source] => some (.inspect source)
  | ["inspect", source]       => some (.inspect source)
  | _                         => none

def usage : String := "usage: readback [normalize [-e] SOURCE | check [-e] FILE | inspect SOURCE | repl]"

def printLine : Console.Print → IO Unit
  | .output text    => IO.println text
  | .complaint text => IO.eprintln text

/-- Prints what a command comes to, and gives the status of the exit. -/
def answer (c : Command) : IO UInt32 := do
  c.run.prints.forM printLine
  return c.run.status.toUInt32

/-- Answers line after line until one ends the console or no more come. -/
partial def converse (input : IO.FS.Stream) (s : Session) : IO Unit := do
  let line ← input.getLine
  if line.isEmpty then return ()
  match Console.step s (.ofText line.toList) with
  | none              => return ()
  | some (prints, s') =>
    prints.forM printLine
    converse input s'

end Readback.CommandLine

open Readback Readback.CommandLine in
def main (arguments : List String) : IO UInt32 := do
  match Request.ofArguments? arguments with
  | some (.normalize one source) => answer (.normalize source one)
  | some (.check one file)       =>
    let contents ← (some <$> IO.FS.readFile file) <|> pure none
    answer (.check contents one)
  | some (.inspect source)       => answer (.inspect source)
  | some .console                =>
    converse (← IO.getStdin) {}
    return 0
  | none                         =>
    IO.eprintln usage
    return 2
