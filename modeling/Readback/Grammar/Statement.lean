import Readback.Grammar.Expression
/-!
# The rules of statements
-/
namespace Readback.Grammar

open Reading

def declKind? : Token.Kind → Option DeclKind
  | .keyword .var   => some .var
  | .keyword .let   => some .let
  | .keyword .const => some .const
  | _               => none

/-- What a name starts as.  A constant has to start as something. -/
def initializer (rules : Rules) (kind : DeclKind) : Reading (Option Expr) := do
  if ← accept .assign then return some (← rules .assignment)
  else if kind = .const then refuse .noInitializer
  else return none

/-- A name with what it starts as, and those behind a comma. -/
def declarators (rules : Rules) (kind : DeclKind) : Reading (List Declarator) := do
  let name ← expect .identifier .noVariableName
  let init ← initializer rules kind
  if ← accept .comma then
    let rest ← rules (.declarators kind)
    return .mk name.text init :: rest
  else
    return [.mk name.text init]

/-- A declaration up to the end of its last declarator; its first word is in hand. -/
def declaration (rules : Rules) (kind : DeclKind) : Reading (List Declarator) := do
  let _ ← advance
  rules (.declarators kind)

/-- An expression between parentheses. -/
def condition (rules : Rules) : Reading Expr := do
  let _ ← expect .lParen .noConditionStart
  let value ← rules .expression
  let _ ← expect .rParen .noConditionEnd
  return value

def functionStatement (rules : Rules) (start : Nat) : Reading Stmt := do
  let _ ← advance
  let name ← expect .identifier .noFunctionName
  let (params, body) ← signatureAndBody rules
  finish start (.function · name.text params body)

/-- The other branch, if there is one. -/
def alternative (rules : Rules) : Reading (Option Stmt) := do
  if ← accept (.keyword .else) then return some (← rules .statement) else return none

def chooseStatement (rules : Rules) (start : Nat) : Reading Stmt := do
  let _ ← advance
  let test ← condition rules
  let yes ← rules .statement
  let no ← alternative rules
  finish start (.choose · test yes no)

def whileStatement (rules : Rules) (start : Nat) : Reading Stmt := do
  let _ ← advance
  let test ← condition rules
  let body ← rules .statement
  finish start (.whileLoop · test body)

def doStatement (rules : Rules) (start : Nat) : Reading Stmt := do
  let _ ← advance
  let body ← rules .statement
  let _ ← expect (.keyword .while) .noLoopWhile
  let test ← condition rules
  let _ ← accept .semicolon
  finish start (.doLoop · body test)

/-- What a loop starts with: nothing, a declaration or an expression. -/
def forInit (rules : Rules) : Reading (Option Stmt) := do
  if ← at? .semicolon then
    return none
  else
    let t ← token
    match declKind? t.kind with
    | some kind => do
      let items ← declaration rules kind
      return some (← finish t.span.start (.declare · kind items))
    | none => do
      let value ← rules .expression
      return some (← finish t.span.start (.expression · value))

/-- An expression, unless the token that would follow it is in hand. -/
def expressionUnless (rules : Rules) (k : Token.Kind) : Reading (Option Expr) := do
  if ← at? k then return none else return some (← rules .expression)

def forStatement (rules : Rules) (start : Nat) : Reading Stmt := do
  let _ ← advance
  let _ ← expect .lParen .noForStart
  let init ← forInit rules
  let _ ← expect .semicolon .noForInitEnd
  let test ← expressionUnless rules .semicolon
  let _ ← expect .semicolon .noForTestEnd
  let step ← expressionUnless rules .rParen
  let _ ← expect .rParen .noForEnd
  let body ← rules .statement
  finish start (.forLoop · init test step body)

/-- What is returned, unless the statement ends before it. -/
def returned (rules : Rules) : Reading (Option Expr) := do
  if ← atStatementEnd then return none else return some (← rules .expression)

/-- A value is returned from a function only. -/
def returnStatement (rules : Rules) : Reading Stmt := do
  let word ← advance
  if ← inFunction then
    let value ← returned rules
    endStatement
    finish word.span.start (.returns · value)
  else
    refuseAt word .returnOutside

/-- The label of a jump, which stands on the same line. -/
def jumpLabel : Reading (Option String) := do
  let t ← token
  if t.kind = .identifier ∧ t.newlineBefore = false then return some (← advance).text else return none

def jumpStatement (start : Nat) (make : Span → Option String → Stmt) : Reading Stmt := do
  let _ ← advance
  let label ← jumpLabel
  endStatement
  finish start (make · label)

/-- No line ends between the word and the value. -/
def throwStatement (rules : Rules) (start : Nat) : Reading Stmt := do
  let word ← advance
  let t ← token
  if t.newlineBefore then
    refuseAt word .newlineAfterThrow
  else
    let value ← rules .expression
    endStatement
    finish start (.throws · value)

/-- An expression; or a label, when that is a name and a colon follows. -/
def expressionStatement (rules : Rules) (start : Nat) : Reading Stmt := do
  let value ← expression rules
  match value, ← at? .colon with
  | .identifier _ label, true => do
    let _ ← advance
    let body ← rules .statement
    finish start (.labeled · label body)
  | value, _ => do
    endStatement
    finish start (.expression · value)

def statement (rules : Rules) : Reading Stmt := do
  let t ← token
  let start := t.span.start
  match t.kind with
  | .semicolon => do
    let _ ← advance
    finish start .empty
  | .lBrace => do
    let body ← block rules
    finish start (.block · body)
  | .keyword .function => functionStatement rules start
  | .keyword .if       => chooseStatement rules start
  | .keyword .while    => whileStatement rules start
  | .keyword .do       => doStatement rules start
  | .keyword .for      => forStatement rules start
  | .keyword .return   => returnStatement rules
  | .keyword .break    => jumpStatement start .breaks
  | .keyword .continue => jumpStatement start .continues
  | .keyword .throw    => throwStatement rules start
  | k =>
    match declKind? k with
    | some kind => do
      let items ← declaration rules kind
      endStatement
      finish start (.declare · kind items)
    | none => expressionStatement rules start

/-- The statements of a block, and the brace behind them. -/
def blockRest (rules : Rules) : Reading (List Stmt) := do
  if ← at? .rBrace then
    let _ ← advance
    return []
  else if ← at? .eof then
    refuse .noBlockEnd
  else
    let first ← statement rules
    let rest ← rules .blockRest
    return first :: rest

end Readback.Grammar
