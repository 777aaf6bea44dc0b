import Readback.Date.Reader
import Readback.Diagnostic
import Readback.Number.Text
import Readback.Text.Bytes
import Readback.Tree.Basic
import Readback.Value.Registry
/-!
# The value that an expression spells

An expression of literals is turned into the value it spells, without running code: literals, arrays, objects, signs,
regular expressions and functions, the constructors of dates, symbols and errors, and paths, which are looked up.  Any
other expression is refused.  New objects and symbols are added to the heap.
-/
namespace Readback

/-- Why an expression has no value. -/
inductive EvaluateFault where
  | unbound (path : String)
  | notLiteral (text : String)
deriving DecidableEq, Inhabited, Repr

def EvaluateFault.message : EvaluateFault → String
  | .unbound path    => "`" ++ path ++ "` is not bound"
  | .notLiteral text => "`" ++ text ++ "` is not a literal value"

/-- The names and members that an expression goes through, if it is nothing else. -/
def Expr.path? : Expr → Option String
  | .identifier _ name   => some name
  | .field _ target name => target.path?.map (· ++ "." ++ name)
  | .group _ inner       => inner.path?
  | _                    => none

/-- What an expression was read from, and what its paths lead to. -/
structure Evaluator where
  source   : List Char
  registry : Registry

/-- A value and a heap to look it up in, or what is wrong. -/
abbrev Evaluation (α : Type) : Type := StateT Heap (Except Diagnostic) α

namespace Evaluator

/-- The text that an expression was read from. -/
def text (ev : Evaluator) (e : Expr) : String :=
  String.ofList ((Text.slice e.span.start e.span.stop ev.source).getD [])

def refuse {α : Type} (fault : EvaluateFault) (span : Span) : Evaluation α :=
  throw ⟨.evaluate, fault.message, some span, []⟩

def notLiteral {α : Type} (ev : Evaluator) (e : Expr) : Evaluation α := refuse (.notLiteral (ev.text e)) e.span

def lookup (ev : Evaluator) (e : Expr) : Evaluation Value :=
  match e.path? with
  | none      => ev.notLiteral e
  | some path =>
    match ev.registry.lookup? path with
    | some value => pure value
    | none       => refuse (.unbound path) e.span

def newObject (o : Object) : Evaluation Value := modifyGet (·.newObject o)

def newSymbol (description : Option String) : Evaluation Value := modifyGet (·.newSymbol description)

/-- The value of a name: three names are values themselves. -/
def name (ev : Evaluator) (e : Expr) (name : String) : Evaluation Value :=
  if name = "undefined" then pure .undefined
  else if name = "NaN" then pure (.number .nan)
  else if name = "Infinity" then pure (.number (.infinite false))
  else ev.lookup e

def literal : Literal → Value
  | .number x => .number x
  | .text s   => .text s
  | .bool b   => .bool b
  | .null     => .null

/-- The value of a prefix operator, for the operands that it has a literal meaning with. -/
def applyUnary? : UnaryOp → Value → Option Value
  | .negate, .number x => some (.number x.negate)
  | .plus, .number x   => some (.number x)
  | .not, .bool b      => some (.bool (!b))
  | .void, _           => some .undefined
  | _, _               => none

/-- The message that an argument gives to an error: none, a text, or a number written out. -/
def errorMessage? : Option Value → Option (Option Value)
  | none | some .undefined => some none
  | some (.text s)         => some (some (.text s))
  | some (.number x)       => some (some (.text x.text))
  | some _                 => none

/-- What the constructors of dates, symbols and errors make of their first argument. -/
def construct (ev : Evaluator) (e : Expr) (constructor : String) (argument : Option Value) : Evaluation Value :=
  match constructor, argument with
  | "Date", some (.text s)                 => newObject (.date (((Date.read? s).map Number.ofInt).getD .nan))
  | "Date", some (.number time)            => newObject (.date time)
  | "Symbol", none | "Symbol", some .undefined => newSymbol none
  | "Symbol", some (.text s)               => newSymbol (some s)
  | constructor, argument =>
    match ErrorKind.ofName? constructor, errorMessage? argument with
    | some sort, some message => newObject (.error sort message)
    | _, _                    => ev.notLiteral e

mutual

def evaluate (ev : Evaluator) (e : Expr) : Evaluation Value :=
  match e with
  | .literal _ value        => pure (literal value)
  | .identifier _ n         => ev.name e n
  | .field _ _ _            => ev.lookup e
  | .group _ inner          => ev.evaluate inner
  | .unary _ op operand     => do
    let value ← ev.evaluate operand
    match applyUnary? op value with
    | some result => pure result
    | none        => ev.notLiteral e
  | .array _ elements       => do
    let items ← ev.evaluateElements elements
    newObject (.array items)
  | .object _ properties    => do
    let entries ← ev.evaluateProperties properties
    newObject (.ofEntries entries)
  | .regex _ pattern flags  => newObject (.regexp pattern flags)
  | .function _ _ _ _       => newObject (.function (ev.text e))
  | .call _ callee args     => ev.evaluateCall e callee args
  | .new _ callee args      => ev.evaluateCall e callee args
  | _                       => ev.notLiteral e

/-- Only the first argument counts. -/
def evaluateCall (ev : Evaluator) (e callee : Expr) (args : List Expr) : Evaluation Value :=
  match callee with
  | .identifier _ constructor =>
    match args with
    | []         => ev.construct e constructor none
    | first :: _ => do
      let argument ← ev.evaluate first
      ev.construct e constructor (some argument)
  | _ => ev.notLiteral e

def evaluateElements (ev : Evaluator) (elements : List (Option Expr)) : Evaluation (List (Option Value)) :=
  match elements with
  | []              => pure []
  | none :: rest    => do
    let items ← ev.evaluateElements rest
    pure (none :: items)
  | some e :: rest  => do
    let value ← ev.evaluate e
    let items ← ev.evaluateElements rest
    pure (some value :: items)

def evaluateProperties (ev : Evaluator) (properties : List Property) : Evaluation (List (String × Value)) :=
  match properties with
  | []                       => pure []
  | .shorthand s n :: rest   => do
    let value ← ev.name (.identifier s n) n
    let entries ← ev.evaluateProperties rest
    pure ((n, value) :: entries)
  | .pair _ key e :: rest    => do
    let key ← (match key with
      | .name n     => pure n
      | .text s     => pure s
      | .number x   => pure x.text
      | .computed _ => ev.notLiteral e)
    let value ← ev.evaluate e
    let entries ← ev.evaluateProperties rest
    pure ((key, value) :: entries)

end

end Evaluator

/-- The value of an expression that was read from a source, and the heap with all that is new in it. -/
def Heap.evaluate (h : Heap) (registry : Registry) (source : String) (e : Expr) : Except Diagnostic (Value × Heap) :=
  (Evaluator.evaluate ⟨source.toList, registry⟩ e).run h

end Readback
