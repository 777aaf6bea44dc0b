import Readback.Grammar.Program
import Readback.Text.Blank
/-!
# Snippets

What is typed at a console is made to mean what its author meant.  As a program, `{}` is an empty block, and
`{a: 1}` a block with a label in it; these are put in parentheses, and so become object literals.  Any other program is
left alone.  What is no program, or is asked to be one expression, is read as an expression; then nothing may follow it
but semicolons, blanks and comments, which are cut off.

The text is read by two readers that are handed in, so that a reader of another grammar, or one that keeps a record, can
take the place of the grammar's own.
-/
namespace Readback

/-- How programs and expressions are read. -/
structure Readers (m : Type → Type) where
  program    : String → m (Except Diagnostic Program)
  expression : String → Nat → m (Except Diagnostic Expr)

/-- The readers of the grammar itself. -/
def Readers.plain : Readers Id := ⟨parseProgram, parseExpressionAt⟩

namespace Snippet

/-- What is wrong with the text behind an expression. -/
inductive Fault where
  | malformed
  | otherSource
  | secondExpression
deriving DecidableEq, Inhabited, Repr

def Fault.message : Fault → String
  | .malformed        => "Syntax error beyond expression"
  | .otherSource      => "Unexpected code beyond expression"
  | .secondExpression => "Only one expression expected"

/-- A program that was meant as an object literal, in parentheses; any other as it is.  The line break keeps a comment at
the end off the parenthesis. -/
def programText (source : String) (body : List Stmt) : String :=
  match body with
  | [.block _ []]                               => "(\x7b\x7d)"
  | [.block _ [.labeled _ _ (.expression _ _)]] => "(" ++ source ++ "\n)"
  | _                                           => source

/-- Why the text behind an expression, as it was read, may not be there. -/
def remainderFault? : Except Diagnostic Program → Option (Fault × List String)
  | .error d => some (.malformed, [d.message])
  | .ok p    =>
    if p.sourceType ≠ .script then some (.otherSource, [])
    else if p.body.dropWhile Stmt.isEmpty ≠ [] then some (.secondExpression, [])
    else none

/-- An expression on its own: in parentheses if it would mean something else as a statement. -/
def wrap (e : Expr) (text : String) : String := if e.needsParens then "(" ++ text ++ ")" else text

variable {m : Type → Type} [Monad m]

/-- Reads a snippet as one expression, and gives its text without what follows it. -/
def normalizeExpression (r : Readers m) (source : String) : m (Except Diagnostic String) := do
  match ← r.expression source 0 with
  | .error d => return .error d
  | .ok e    =>
    let text := (Text.takeBytes e.span.stop source.toList).getD source.toList
    let tail := (Text.dropBytes e.span.stop source.toList).getD []
    let remainder := Text.trim tail
    let result := wrap e (String.ofList text)
    if remainder = [] then return .ok result
    else
      let start := Text.byteLength text + Text.byteLength (tail.takeWhile Text.isBlank)
      match remainderFault? (← r.program (String.ofList remainder)) with
      | none                => return .ok result
      | some (fault, notes) =>
        return .error ⟨.normalize, fault.message, some ⟨start, start + Text.byteLength remainder⟩, notes⟩

/-- Normalizes a snippet, which may be asked to be one expression. -/
def normalize (r : Readers m) (source : String) (oneExpression : Bool) : m (Except Diagnostic String) := do
  if oneExpression then normalizeExpression r source
  else
    match ← r.program source with
    | .ok p    => return .ok (programText source p.body)
    | .error _ => normalizeExpression r source

end Snippet

/-- Normalizes a snippet, read by the grammar itself. -/
def normalize (source : String) (oneExpression : Bool) : Except Diagnostic String :=
  Id.run (Snippet.normalize .plain source oneExpression)

end Readback
