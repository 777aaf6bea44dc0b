import Readback.Grammar.Rule
/-!
# Blocks and functions

A block is statements between braces.  A function is the word, a name, parameters and a block; in an expression the name
may be missing.
-/
namespace Readback.Grammar

open Reading

/-- A brace, statements and a brace. -/
def block (rules : Rules) : Reading (List Stmt) := do
  let _ ← expect .lBrace .noBlockStart
  rules .blockRest

def params (rules : Rules) : Reading (List String) := do
  let name ← expect .identifier .noParamName
  if ← accept .comma then
    let rest ← rules .params
    return name.text :: rest
  else
    return [name.text]

/-- The parameters between the parentheses, if any. -/
def parameters (rules : Rules) : Reading (List String) := do
  if ← at? .rParen then return [] else rules .params

/-- Parentheses with parameters between them, and a block. -/
def signatureAndBody (rules : Rules) : Reading (List String × List Stmt) := do
  let _ ← expect .lParen .noParamsStart
  let names ← parameters rules
  let _ ← expect .rParen .noParamsEnd
  let body ← withinFunction (block rules)
  return (names, body)

end Readback.Grammar
