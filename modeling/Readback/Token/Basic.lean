import Readback.Span
/-!
# Tokens

A token has a kind, the text it stands for, its span, and whether a line ends somewhere between it and the token before.
The text of a string is what the string spells; the text of every other token is the source under its span.
-/
namespace Readback

inductive Keyword where
  | var | let | const | function
  | if | else | while | do | for | return | break | continue | throw
  | new | this | typeof | void | delete | in | instanceof
  | true | false | null
deriving DecidableEq, Inhabited, Repr

/-- The words that are no names, in their spelling. -/
def Keyword.table : List (String × Keyword) :=
  [("var", .var), ("let", .let), ("const", .const), ("function", .function), ("if", .if), ("else", .else),
   ("while", .while), ("do", .do), ("for", .for), ("return", .return), ("break", .break), ("continue", .continue),
   ("throw", .throw), ("new", .new), ("this", .this), ("typeof", .typeof), ("void", .void), ("delete", .delete),
   ("in", .in), ("instanceof", .instanceof), ("true", .true), ("false", .false), ("null", .null)]

def Keyword.ofText? (text : String) : Option Keyword := (table.find? (·.1 == text)).map (·.2)

namespace Token

inductive Kind where
  | identifier | number | string | regex
  | keyword (word : Keyword)
  | lParen | rParen | lBrace | rBrace | lBracket | rBracket
  | comma | dot | colon | semicolon | question | doubleQuestion | fatArrow
  | assign | compoundAssign
  | plus | minus | plusPlus | minusMinus | star | starStar | slash | percent
  | ampersand | pipe | caret | doubleAmpersand | doublePipe | bang | tilde
  | equalEqual | bangEqual | strictEqual | strictNotEqual
  | less | lessEqual | greater | greaterEqual | shiftLeft | shiftRight | unsignedShiftRight
  | eof
deriving DecidableEq, Inhabited, Repr

/-- The kinds that end an operand: a slash after one of them divides, and any other slash opens a regular
expression. -/
def Kind.endsOperand : Kind → Bool
  | .identifier | .number | .string | .regex | .rParen | .rBracket | .rBrace | .plusPlus | .minusMinus => true
  | .keyword .this | .keyword .true | .keyword .false | .keyword .null => true
  | _ => false

end Token

structure Token where
  kind          : Token.Kind
  text          : String
  span          : Span
  newlineBefore : Bool
deriving DecidableEq, Inhabited, Repr

namespace Token

/-- Why a text has no next token. -/
inductive Fault where
  | openComment
  | unexpected (c : Char)
  | nameAfterNumber
  | openString
  | badEscape
  | openRegex
deriving DecidableEq, Inhabited, Repr

def Fault.message : Fault → String
  | .openComment     => "unterminated comment"
  | .unexpected c    => "unexpected character `" ++ c.toString ++ "`"
  | .nameAfterNumber => "identifier starts immediately after numeric literal"
  | .openString      => "unterminated string literal"
  | .badEscape       => "invalid escape sequence"
  | .openRegex       => "unterminated regular expression"

/-- What a reader of one token makes of a text: how many characters it takes, and what they are. -/
structure Scan (α : Type) where
  size    : Nat
  outcome : Except Fault α

end Token

end Readback
