import Readback.Grammar.Function
import Readback.Number.Literal
/-!
# The rules of expressions

From the loosest to the tightest: sequences, assignments, conditionals, binary operators by precedence, prefix operators,
postfix updates, calls and members, and primary expressions.
-/
namespace Readback.Grammar

open Reading
open Token (Kind)

/-! ## Primary expressions -/

/-- The pattern and the flags of a regular expression token. -/
def splitRegex (text : List Char) : String × String :=
  let flags := (text.reverse.takeWhile (· != '/')).reverse
  (String.ofList ((text.drop 1).take (text.length - flags.length - 2)), String.ofList flags)

def regexLiteral (start : Nat) : Reading Expr := do
  let t ← advance
  let (pattern, flags) := splitRegex t.text.toList
  finish start (.regex · pattern flags)

def literal (start : Nat) (value : Literal) : Reading Expr := do
  let _ ← advance
  finish start (.literal · value)

def number (start : Nat) : Reading Expr := do
  let t ← advance
  match Number.Literal.read? t.text.toList with
  | some x => finish start (.literal · (.number x))
  | none   => refuseAt t .badNumber

/-- The name of a function in an expression, if it has one. -/
def functionName : Reading (Option String) := do
  if ← at? .identifier then return some (← advance).text else return none

def functionLiteral (rules : Rules) (start : Nat) : Reading Expr := do
  let _ ← advance
  let name ← functionName
  let (params, body) ← signatureAndBody rules
  finish start (.function · name params body)

def group (rules : Rules) (start : Nat) : Reading Expr := do
  let _ ← advance
  let inner ← rules .expression
  let _ ← expect .rParen .noGroupEnd
  finish start (.group · inner)

/-- A slash where an operand should be opens a regular expression, alone or with the equals sign behind it. -/
def primary (rules : Rules) : Reading Expr := do
  let t ← token
  let start := t.span.start
  match t.kind with
  | .number            => number start
  | .string            => literal start (.text t.text)
  | .regex             => regexLiteral start
  | .identifier        => do
    let _ ← advance
    finish start (.identifier · t.text)
  | .keyword .true     => literal start (.bool true)
  | .keyword .false    => literal start (.bool false)
  | .keyword .null     => literal start .null
  | .keyword .this     => do
    let _ ← advance
    finish start .this
  | .keyword .function => functionLiteral rules start
  | .lParen            => group rules start
  | .lBracket          => do
    let _ ← advance
    let elements ← rules .elementsRest
    finish start (.array · elements)
  | .lBrace            => do
    let _ ← advance
    let properties ← rules .propertiesRest
    finish start (.object · properties)
  | .slash             => do
    rereadRegex
    regexLiteral start
  | .eof               => refuse .unexpectedEnd
  | _                  =>
    if t.kind = .compoundAssign ∧ t.text.toList.head? = some '/' then do
      rereadRegex
      regexLiteral start
    else refuseToken

/-! ## Members, calls and `new` -/

/-- A point and a name, or brackets and an expression, behind a target. -/
def memberSuffix (rules : Rules) (target : Expr) : Reading Expr := do
  if ← accept .dot then
    match ← kind with
    | .identifier | .keyword _ => do
      let name ← advance
      finish target.span.start (.field · target name.text)
    | _ => refuse .noFieldName
  else
    let _ ← advance
    let place ← rules .expression
    let _ ← expect .rBracket .noIndexEnd
    finish target.span.start (.index · target place)

def callRest (rules : Rules) (callee : Expr) : Reading Expr := do
  match ← kind with
  | .lParen => do
    let _ ← advance
    let args ← rules .argumentsRest
    let call ← finish callee.span.start (.call · callee args)
    rules (.callRest call)
  | .dot | .lBracket => do
    let member ← memberSuffix rules callee
    rules (.callRest member)
  | _ => return callee

def memberRest (rules : Rules) (target : Expr) : Reading Expr := do
  match ← kind with
  | .dot | .lBracket => do
    let member ← memberSuffix rules target
    rules (.memberRest member)
  | _ => return target

/-- What is constructed, before its members. -/
def newTarget (rules : Rules) : Reading Expr := do
  if ← at? (.keyword .new) then rules .construct else primary rules

def newArguments (rules : Rules) : Reading (List Expr) := do
  if ← accept .lParen then rules .argumentsRest else return []

/-- The word `new`, a callee that is no call, and arguments, if any. -/
def construct (rules : Rules) : Reading Expr := do
  let start ← place
  let _ ← advance
  let target ← newTarget rules
  let callee ← rules (.memberRest target)
  let args ← newArguments rules
  finish start (.new · callee args)

/-- What is called, before its members and arguments. -/
def operand (rules : Rules) : Reading Expr := do
  if ← at? (.keyword .new) then construct rules else primary rules

def call (rules : Rules) : Reading Expr := do
  let first ← operand rules
  rules (.callRest first)

/-! ## Operators -/

def updateOp? : Kind → Option UpdateOp
  | .plusPlus   => some .increment
  | .minusMinus => some .decrement
  | _           => none

def unaryOp? : Kind → Option UnaryOp
  | .bang            => some .not
  | .tilde           => some .bitNot
  | .minus           => some .negate
  | .plus            => some .plus
  | .keyword .typeof => some .typeof
  | .keyword .void   => some .void
  | .keyword .delete => some .delete
  | _                => none

def binaryOp? : Kind → Option BinaryOp
  | .doubleQuestion      => some .nullish
  | .doublePipe          => some .or
  | .doubleAmpersand     => some .and
  | .pipe                => some .bitOr
  | .caret               => some .bitXor
  | .ampersand           => some .bitAnd
  | .equalEqual          => some .equal
  | .bangEqual           => some .notEqual
  | .strictEqual         => some .strictEqual
  | .strictNotEqual      => some .strictNotEqual
  | .less                => some .less
  | .lessEqual           => some .lessEqual
  | .greater             => some .greater
  | .greaterEqual        => some .greaterEqual
  | .keyword .in         => some .in
  | .keyword .instanceof => some .instanceof
  | .shiftLeft           => some .shiftLeft
  | .shiftRight          => some .shiftRight
  | .unsignedShiftRight  => some .unsignedShiftRight
  | .plus                => some .add
  | .minus               => some .sub
  | .star                => some .mul
  | .slash               => some .div
  | .percent             => some .mod
  | .starStar            => some .pow
  | _                    => none

/-- The operators that may be joined with assignment, in the spelling they then have. -/
def compoundOps : List (String × BinaryOp) :=
  [("+=", .add), ("-=", .sub), ("*=", .mul), ("/=", .div), ("%=", .mod), ("**=", .pow), ("<<=", .shiftLeft),
   (">>=", .shiftRight), (">>>=", .unsignedShiftRight), ("&=", .bitAnd), ("|=", .bitOr), ("^=", .bitXor),
   ("&&=", .and), ("||=", .or), ("??=", .nullish)]

def compoundOp? (text : String) : Option BinaryOp := (compoundOps.find? (·.1 == text)).map (·.2)

/-- An update behind its target, on the same line. -/
def update (rules : Rules) : Reading Expr := do
  let target ← call rules
  let t ← token
  match updateOp? t.kind with
  | some op =>
    if t.newlineBefore then return target
    else do
      let _ ← advance
      return .update (target.span.through t.span) op false target
  | none => return target

def unary (rules : Rules) : Reading Expr := do
  let t ← token
  match unaryOp? t.kind, updateOp? t.kind with
  | some op, _ => do
    let _ ← advance
    let operand ← rules .unary
    return .unary (t.span.through operand.span) op operand
  | none, some op => do
    let _ ← advance
    let target ← rules .unary
    return .update (t.span.through target.span) op true target
  | none, none => update rules

def binaryRest (rules : Rules) (least : Nat) (left : Expr) : Reading Expr := do
  match binaryOp? (← kind) with
  | some op =>
    if op.precedence < least then return left
    else do
      let _ ← advance
      let right ← rules (.binary op.rightPrecedence)
      rules (.binaryRest least (.binary (left.span.through right.span) op left right))
  | none => return left

def binary (rules : Rules) (least : Nat) : Reading Expr := do
  let left ← unary rules
  rules (.binaryRest least left)

def conditional (rules : Rules) : Reading Expr := do
  let test ← binary rules 0
  if ← accept .question then
    let yes ← rules .assignment
    let _ ← expect .colon .noAlternative
    let no ← rules .assignment
    return .conditional (test.span.through no.span) test yes no
  else
    return test

/-- What is behind the target of an assignment, whose operator is in hand. -/
def assignmentRest (rules : Rules) (target : Expr) (op : Option BinaryOp) : Reading Expr := do
  let operator ← advance
  if target.isTarget then
    let value ← rules .assignment
    return .assign (target.span.through value.span) op target value
  else
    refuseAt operator .badTarget

def assignment (rules : Rules) : Reading Expr := do
  let target ← conditional rules
  let t ← token
  match t.kind with
  | .assign => assignmentRest rules target none
  | .compoundAssign =>
    match compoundOp? t.text with
    | some op => assignmentRest rules target (some op)
    | none    => refuse .badCompound
  | _ => return target

def itemsRest (rules : Rules) : Reading (List Expr) := do
  if ← accept .comma then
    let first ← rules .assignment
    let rest ← rules .itemsRest
    return first :: rest
  else
    return []

def expression (rules : Rules) : Reading Expr := do
  let first ← assignment rules
  if ← at? .comma then
    let rest ← rules .itemsRest
    finish first.span.start (.sequence · (first :: rest))
  else
    return first

/-! ## Elements, arguments and properties -/

def elementsRest (rules : Rules) : Reading (List (Option Expr)) := do
  if ← accept .rBracket then
    return []
  else if ← accept .comma then
    let rest ← rules .elementsRest
    return none :: rest
  else
    let item ← assignment rules
    if !(← at? .rBracket) then
      let _ ← expect .comma .noElementEnd
    let rest ← rules .elementsRest
    return some item :: rest

def argumentsRest (rules : Rules) : Reading (List Expr) := do
  if ← accept .rParen then
    return []
  else
    let first ← assignment rules
    if ← accept .comma then
      let rest ← rules .argumentsRest
      return first :: rest
    else
      let _ ← expect .rParen .noArgumentsEnd
      return [first]

/-- The key of a property, whose first token is given. -/
def propertyKey (rules : Rules) (first : Token) : Reading PropertyKey :=
  match first.kind with
  | .identifier | .keyword _ => do
    let _ ← advance
    return .name first.text
  | .string => do
    let _ ← advance
    return .text first.text
  | .number => do
    let _ ← advance
    match Number.Literal.read? first.text.toList with
    | some x => return .number x
    | none   => refuseAt first .badNumber
  | .lBracket => do
    let _ ← advance
    let value ← rules .assignment
    let _ ← expect .rBracket .noKeyEnd
    return .computed value
  | _ => refuseAt first .noPropertyName

/-- One property: a name that stands for itself, or a key, a colon and a value. -/
def property (rules : Rules) : Reading Property := do
  let first ← token
  let key ← propertyKey rules first
  let next ← kind
  if first.kind = .identifier ∧ (next = .comma ∨ next = .rBrace) then
    finish first.span.start (.shorthand · first.text)
  else
    let _ ← expect .colon .noPropertyValue
    let value ← rules .assignment
    finish first.span.start (.pair · key value)

def propertiesRest (rules : Rules) : Reading (List Property) := do
  if ← accept .rBrace then
    return []
  else
    let first ← property rules
    if ← accept .comma then
      let rest ← rules .propertiesRest
      return first :: rest
    else
      let _ ← expect .rBrace .noObjectEnd
      return [first]

end Readback.Grammar
