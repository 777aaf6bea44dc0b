import Readback.Diagnostic
import Readback.Text.Bytes
import Readback.Token.Numeral
import Readback.Token.Punctuator
import Readback.Token.Quoted
import Readback.Token.Regex
import Readback.Token.Trivia
/-!
# Reading tokens

A lexer is a place in a text and one bit: whether a slash there would open a regular expression.  `Lexer.next` reads one
token, and tells where the token starts and where reading goes on, after a fault too.  Tokens are read on demand, so text
behind the last token that was asked for is never looked at.
-/
namespace Readback

/-- A place in a text: the bytes before it and the text after it. -/
structure Cursor where
  pos  : Nat
  rest : List Char
deriving DecidableEq, Inhabited

namespace Cursor

/-- So many characters further. -/
def skip (n : Nat) (c : Cursor) : Cursor := ⟨c.pos + Text.byteLength (c.rest.take n), c.rest.drop n⟩

/-- The place at a byte offset, when no character spans it. -/
def at? (source : List Char) (offset : Nat) : Option Cursor := (Text.dropBytes offset source).map (⟨offset, ·⟩)

/-- From this place to one so many characters further. -/
def span (n : Nat) (c : Cursor) : Span := ⟨c.pos, (c.skip n).pos⟩

end Cursor

structure Lexer where
  cursor       : Cursor
  regexAllowed : Bool := true
deriving DecidableEq, Inhabited

namespace Lexer

open Token (Kind Fault Scan trivia)

/-- The kind and the text of the token that starts a text, which is not trivia and not empty. -/
def scan (regexAllowed : Bool) (cs : List Char) : Scan (Kind × List Char) :=
  match cs with
  | []      => ⟨0, .ok (.eof, [])⟩
  | c :: _ =>
    if Token.startsName c then
      let name := Token.nameRun cs
      ⟨name.length, .ok (Token.kindOfName (String.ofList name), name)⟩
    else if Text.isDigit c || (c == '.' && (cs.drop 1).head?.any Text.isDigit) then
      let s := Token.numeral cs
      ⟨s.size, s.outcome.map (fun _ => (.number, cs.take s.size))⟩
    else if c = '"' ∨ c = '\'' then
      let s := (Token.stringBody c (cs.drop 1)).after 1
      ⟨s.size, s.outcome.map (fun text => (.string, text))⟩
    else if c = '/' ∧ regexAllowed then
      let s := Token.regex cs
      ⟨s.size, s.outcome.map (fun _ => (.regex, cs.take s.size))⟩
    else
      match Token.punctuator? cs with
      | some (text, kind) => ⟨text.length, .ok (kind, text)⟩
      | none              => ⟨1, .error (.unexpected c)⟩

/-- One step of reading: the token or what is wrong, where it starts, and the lexer behind it. -/
structure Step where
  outcome : Except Diagnostic Token
  start   : Cursor
  after   : Lexer

def refuse (fault : Fault) (span : Span) : Diagnostic := ⟨.lexer, fault.message, some span, []⟩

/-- Whether a slash behind a token opens a regular expression: not behind the end of an operand.  The end of the text
leaves the bit as it was. -/
def allowsRegex (before : Bool) : Kind → Bool
  | .eof => before
  | k    => !k.endsOperand

/-- The step that a scan of the text at a place amounts to.  A fault leaves the bit as it was. -/
def stepOf (start : Cursor) (regexAllowed newline : Bool) (s : Scan (Kind × List Char)) : Step :=
  match s.outcome with
  | .ok (kind, text) =>
    ⟨.ok ⟨kind, String.ofList text, start.span s.size, newline⟩, start,
      ⟨start.skip s.size, allowsRegex regexAllowed kind⟩⟩
  | .error fault => ⟨.error (refuse fault (start.span s.size)), start, ⟨start.skip s.size, regexAllowed⟩⟩

/-- The next token. -/
def next (l : Lexer) : Step :=
  let t := trivia l.cursor.rest
  let start := l.cursor.skip t.size
  if t.openComment then
    ⟨.error (refuse .openComment (start.span start.rest.length)), start, ⟨start.skip 2, l.regexAllowed⟩⟩
  else stepOf start l.regexAllowed t.newline (scan l.regexAllowed start.rest)

/-- The regular expression that opens at a place: a grammar asks for it where it wants an operand and the bit said
otherwise. -/
def regexAt (start : Cursor) (regexAllowed newline : Bool) : Step :=
  let s := Token.regex start.rest
  stepOf start regexAllowed newline ⟨s.size, s.outcome.map (fun _ => (.regex, start.rest.take s.size))⟩

/-- The lexer at a byte offset, when no character spans it. -/
def at? (source : List Char) (offset : Nat) : Option Lexer := (Cursor.at? source offset).map (⟨·, true⟩)

def ofSource (source : List Char) : Lexer := ⟨⟨0, source⟩, true⟩

/-- The lexer at a byte offset, or at the end for want of a place there. -/
def resume (source : List Char) (offset : Nat) : Lexer :=
  (at? source offset).getD ⟨⟨Text.byteLength source, []⟩, true⟩

/-- The place of the byte at an offset, when a place follows it.  Where the byte ends a longer character, no place is before
it, and a slash stands in its stead. -/
def byteAt? (source : List Char) (offset : Nat) : Option Cursor :=
  Cursor.at? source offset <|> (Cursor.at? source (offset + 1)).map (fun behind => ⟨offset, '/' :: behind.rest⟩)

/-- The regular expression whose opening slash is, or is taken to be, the byte at an offset.  It counts as one that no line
ends before. -/
def reread (source : List Char) (offset : Nat) (l : Lexer) : Step :=
  regexAt ((byteAt? source offset).getD ⟨Text.byteLength source, []⟩) l.regexAllowed false

/-- The tokens up to the end or to the first fault, at most so many. -/
def tokens : Nat → Lexer → List (Except Diagnostic Token)
  | 0, _     => []
  | n + 1, l =>
    let step := l.next
    match step.outcome with
    | .error d => [.error d]
    | .ok t    => if t.kind = .eof then [.ok t] else .ok t :: tokens n step.after

/-- All tokens of what is left. -/
def allTokens (l : Lexer) : List (Except Diagnostic Token) := l.tokens (l.cursor.rest.length + 1)

end Lexer

end Readback
