import Readback.Grammar.Statement
/-!
# Reading expressions and programs

The rules are tied together with an allowance of steps, one for each rule that refers to another.  Since a rule takes a
token before it refers to another, as many steps as the text has characters, and one more, are enough.
-/
namespace Readback.Grammar

open Reading

/-- Every rule, in terms of the rules it refers to. -/
def rule (rules : Rules) : Rules
  | .statement            => statement rules
  | .blockRest            => blockRest rules
  | .declarators kind     => declarators rules kind
  | .params               => params rules
  | .expression           => expression rules
  | .itemsRest            => itemsRest rules
  | .assignment           => assignment rules
  | .binary least         => binary rules least
  | .binaryRest least left => binaryRest rules least left
  | .unary                => unary rules
  | .callRest callee      => callRest rules callee
  | .construct            => construct rules
  | .memberRest target    => memberRest rules target
  | .argumentsRest        => argumentsRest rules
  | .elementsRest         => elementsRest rules
  | .propertiesRest       => propertiesRest rules

/-- The rules with so many steps allowed. -/
def rules : Nat → Rules
  | 0, _      => exhausted
  | n + 1, r  => rule (rules n) r

/-- A rule, with all the steps that it can take. -/
def read (r : Rule) : Reading r.Result := fun s => rules (s.left + 1) r s

/-- Statements up to the end of the text, at most so many. -/
def statements : Nat → Reading (List Stmt)
  | 0     => exhausted
  | n + 1 => do
    if ← at? .eof then return []
    else
      let first ← read .statement
      let rest ← statements n
      return first :: rest

/-- What a reading comes to; the last case does not arise. -/
def Outcome.result {α : Type} : Outcome α → Except Diagnostic α
  | .done a _  => .ok a
  | .refused d => .error d
  | .exhausted => .error ⟨.parser, "the text is too long", none, []⟩

/-- The reading of a text from a lexer on, up to its last token. -/
def start {α : Type} (l : Lexer) (x : Reading α) : Outcome α :=
  match State.first l with
  | .ok s    => x s
  | .error d => .refused d

/-- The statements of a whole text. -/
def programOutcome (source : List Char) : Outcome (List Stmt) :=
  start (.ofSource source) (statements (source.length + 1))

/-- The expression that starts at a place. -/
def expressionOutcome (l : Lexer) : Outcome Expr := start l (read .expression)

end Grammar

/-- The program that a text is. -/
def parseProgram (source : String) : Except Diagnostic Program :=
  (Grammar.programOutcome source.toList).result.map
    (fun body => ⟨.script, body, ⟨0, Text.byteLength source.toList⟩⟩)

/-- The longest expression that starts at a byte offset; its span ends where the text behind it starts. -/
def parseExpressionAt (source : String) (offset : Nat) : Except Diagnostic Expr :=
  match Lexer.at? source.toList offset with
  | some l => (Grammar.expressionOutcome l).result
  | none   =>
    .error ⟨.parser, "offset " ++ Text.decimal offset ++ " is not a character boundary of the input", none, []⟩

end Readback
