import Readback.Grammar.Expression
import Readback.Number.Text
import Readback.Proofs.Token.Lexeme
import Readback.Proofs.Tree.Move
/-!
# Layers of expressions, and their tokens

Which trees the grammar of expressions has, said of the trees alone: `Layered` says of every node how tightly its parts have
to bind.  Without functions, whose bodies are statements, a tree is its tokens: `Expr.tokens` lists them, and
`Expr.written` puts a blank between each two.
-/
namespace Readback

/-! ## The spelling of operators -/

def BinaryOp.text : BinaryOp → String
  | .add => "+" | .sub => "-" | .mul => "*" | .div => "/" | .mod => "%" | .pow => "**"
  | .equal => "==" | .notEqual => "!=" | .strictEqual => "===" | .strictNotEqual => "!=="
  | .less => "<" | .lessEqual => "<=" | .greater => ">" | .greaterEqual => ">="
  | .shiftLeft => "<<" | .shiftRight => ">>" | .unsignedShiftRight => ">>>"
  | .bitAnd => "&" | .bitOr => "|" | .bitXor => "^"
  | .and => "&&" | .or => "||" | .nullish => "??"
  | .in => "in" | .instanceof => "instanceof"

def UnaryOp.text : UnaryOp → String
  | .negate => "-" | .plus => "+" | .not => "!" | .bitNot => "~"
  | .typeof => "typeof" | .void => "void" | .delete => "delete"

def UpdateOp.text : UpdateOp → String
  | .increment => "++"
  | .decrement => "--"

/-- The sign of a plain assignment, or of one that is joined with an operator. -/
def assignText : Option BinaryOp → String
  | none    => "="
  | some op => op.text ++ "="

/-- The least precedence that an operator takes on its left. -/
def BinaryOp.leftPrecedence (op : BinaryOp) : Nat := if op = .pow then op.precedence + 1 else op.precedence

/-! ## Tokens -/

mutual

/-- The tokens of an expression, in order.  Functions are left out. -/
def Expr.tokens : Expr → List String
  | .literal _ (.number x)    => [x.source]
  | .literal _ (.text s)      => [Text.quote s]
  | .literal _ (.bool b)      => [if b then "true" else "false"]
  | .literal _ .null          => ["null"]
  | .identifier _ name        => [name]
  | .this _                   => ["this"]
  | .regex _ pattern flags    => ["/" ++ pattern ++ "/" ++ flags]
  | .array _ items            => "[" :: (elementTokens items ++ ["]"])
  | .object _ items           => "\x7b" :: (propertyTokens items ++ ["\x7d"])
  | .function _ _ _ _         => []
  | .unary _ op e             => op.text :: e.tokens
  | .update _ op leading e    => if leading then op.text :: e.tokens else e.tokens ++ [op.text]
  | .binary _ op x y          => x.tokens ++ op.text :: y.tokens
  | .assign _ op x y          => x.tokens ++ assignText op :: y.tokens
  | .conditional _ x y z      => x.tokens ++ "?" :: (y.tokens ++ ":" :: z.tokens)
  | .call _ e args            => e.tokens ++ "(" :: (itemTokens args ++ [")"])
  | .new _ e args             => "new" :: (e.tokens ++ "(" :: (itemTokens args ++ [")"]))
  | .field _ e name           => e.tokens ++ [".", name]
  | .index _ x y              => x.tokens ++ "[" :: (y.tokens ++ ["]"])
  | .sequence _ items         => itemTokens items
  | .group _ e                => "(" :: (e.tokens ++ [")"])

/-- Items with commas between them. -/
def itemTokens : List Expr → List String
  | []      => []
  | [e]     => e.tokens
  | e :: es => e.tokens ++ "," :: itemTokens es

/-- Elements with commas between them.  A hole is the comma behind it, so a hole at the end has one too. -/
def elementTokens : List (Option Expr) → List String
  | []           => []
  | none :: es   => "," :: elementTokens es
  | [some e]     => e.tokens
  | some e :: es => e.tokens ++ "," :: elementTokens es

def Property.tokens : Property → List String
  | .pair _ key e     => key.tokens ++ ":" :: e.tokens
  | .shorthand _ name => [name]

def PropertyKey.tokens : PropertyKey → List String
  | .name name  => [name]
  | .text s     => [Text.quote s]
  | .number x   => [x.source]
  | .computed e => "[" :: (e.tokens ++ ["]"])

/-- Properties with commas between them. -/
def propertyTokens : List Property → List String
  | []      => []
  | [p]     => p.tokens
  | p :: ps => p.tokens ++ "," :: propertyTokens ps

end

attribute [simp] Expr.tokens

/-- The tokens of an expression with a blank between each two. -/
def Expr.written (e : Expr) : String := " ".intercalate e.tokens

/-! ## Layers -/

/-- The layers of expressions, from the loosest to the tightest.  Binary operators have a layer for each precedence, and
what `new` is put in front of is a chain without calls. -/
inductive Layer where
  | expression | assignment | conditional
  | binary (least : Nat)
  | unary | update
  | chain (calls : Bool)
  | primary
deriving DecidableEq

namespace Property

/-- The expressions in a property. -/
def parts : Property → List Expr
  | .pair _ (.computed key) e => [key, e]
  | .pair _ _ e               => [e]
  | .shorthand _ _            => []

/-- The name of a property is an identifier, and the number of one is finite and has no sign. -/
def Plain : Property → Prop
  | .pair _ (.name name) _ | .shorthand _ name => Token.IsToken .identifier name
  | .pair _ (.number x) _                      => ∃ size, x = .finite false size
  | _                                          => True

end Property

/-- The expression is one of a layer, has no functions in it, its names are identifiers, its numbers are finite and have no
sign, and its regular expressions are as asked for. -/
inductive Layered (regexp : String → String → Prop) : Layer → Expr → Prop where
  -- primary expressions
  | number {s : Span} (size : Magnitude) : Layered regexp .primary (.literal s (.number (.finite false size)))
  | text {s : Span} (value : String) : Layered regexp .primary (.literal s (.text value))
  | bool {s : Span} (value : Bool) : Layered regexp .primary (.literal s (.bool value))
  | null {s : Span} : Layered regexp .primary (.literal s .null)
  | identifier {s : Span} {name : String} (hn : Token.IsToken .identifier name) :
      Layered regexp .primary (.identifier s name)
  | this {s : Span} : Layered regexp .primary (.this s)
  | regex {s : Span} {pattern flags : String} (hr : regexp pattern flags) : Layered regexp .primary (.regex s pattern flags)
  | array {s : Span} {items : List (Option Expr)} (hi : ∀ e, some e ∈ items → Layered regexp .assignment e) :
      Layered regexp .primary (.array s items)
  | object {s : Span} {items : List Property} (hp : ∀ p ∈ items, p.Plain)
      (hi : ∀ p ∈ items, ∀ e ∈ p.parts, Layered regexp .assignment e) : Layered regexp .primary (.object s items)
  | group {s : Span} {e : Expr} (he : Layered regexp .expression e) : Layered regexp .primary (.group s e)
  -- members, calls and `new`
  | operand {e : Expr} {calls : Bool} (he : Layered regexp .primary e) : Layered regexp (.chain calls) e
  | new {s : Span} {e : Expr} {args : List Expr} {calls : Bool} (he : Layered regexp (.chain false) e)
      (ha : ∀ x ∈ args, Layered regexp .assignment x) : Layered regexp (.chain calls) (.new s e args)
  | field {s : Span} {e : Expr} {name : String} {calls : Bool} (he : Layered regexp (.chain calls) e)
      (hn : Token.IsToken .identifier name) : Layered regexp (.chain calls) (.field s e name)
  | index {s : Span} {e x : Expr} {calls : Bool} (he : Layered regexp (.chain calls) e)
      (hx : Layered regexp .expression x) : Layered regexp (.chain calls) (.index s e x)
  | call {s : Span} {e : Expr} {args : List Expr} (he : Layered regexp (.chain true) e)
      (ha : ∀ x ∈ args, Layered regexp .assignment x) : Layered regexp (.chain true) (.call s e args)
  -- operators
  | noUpdate {e : Expr} (he : Layered regexp (.chain true) e) : Layered regexp .update e
  | update {s : Span} {op : UpdateOp} {e : Expr} (he : Layered regexp (.chain true) e) :
      Layered regexp .update (.update s op false e)
  | noPrefix {e : Expr} (he : Layered regexp .update e) : Layered regexp .unary e
  | unary {s : Span} {op : UnaryOp} {e : Expr} (he : Layered regexp .unary e) : Layered regexp .unary (.unary s op e)
  | updateFirst {s : Span} {op : UpdateOp} {e : Expr} (he : Layered regexp .unary e) :
      Layered regexp .unary (.update s op true e)
  | noOperator {e : Expr} {least : Nat} (he : Layered regexp .unary e) : Layered regexp (.binary least) e
  | binary {s : Span} {op : BinaryOp} {x y : Expr} {least : Nat} (hl : least ≤ op.precedence)
      (hx : Layered regexp (.binary op.leftPrecedence) x) (hy : Layered regexp (.binary op.rightPrecedence) y) :
      Layered regexp (.binary least) (.binary s op x y)
  | noChoice {e : Expr} (he : Layered regexp (.binary 0) e) : Layered regexp .conditional e
  | choice {s : Span} {x y z : Expr} (hx : Layered regexp (.binary 0) x) (hy : Layered regexp .assignment y)
      (hz : Layered regexp .assignment z) : Layered regexp .conditional (.conditional s x y z)
  | noAssign {e : Expr} (he : Layered regexp .conditional e) : Layered regexp .assignment e
  | assign {s : Span} {op : Option BinaryOp} {x y : Expr} (hx : Layered regexp (.chain true) x) (ht : x.isTarget = true)
      (ho : ∀ o, op = some o → Grammar.compoundOp? (assignText op) = some o) (hy : Layered regexp .assignment y) :
      Layered regexp .assignment (.assign s op x y)
  | single {e : Expr} (he : Layered regexp .assignment e) : Layered regexp .expression e
  | sequence {s : Span} {x y : Expr} {rest : List Expr} (hi : ∀ e ∈ x :: y :: rest, Layered regexp .assignment e) :
      Layered regexp .expression (.sequence s (x :: y :: rest))

/-- The text between the slashes and behind them is read as one regular expression. -/
def IsRegexp (pattern flags : String) : Prop := Token.IsToken .regex ("/" ++ pattern ++ "/" ++ flags)

/-- What begins with a slash, and no comment, and is a regular expression to its end. -/
theorem isRegexp_of_regex {pattern flags : String} {t : List Char}
    (ht : ("/" ++ pattern ++ "/" ++ flags).toList = '/' :: t) (hr : Token.regex ('/' :: t) = ⟨t.length + 1, .ok ()⟩)
    (hc : Token.opensComment '/' t = false) (hn : t ≠ []) : IsRegexp pattern flags := by
  have hf := Lexer.front_of_regex (l := ⟨⟨0, '/' :: t⟩, true⟩) (x := []) rfl hr hc (.nil _) (List.append_nil _).symm hn
  exact Token.Lexeme.isToken (by rw [ht]; exact .of_front hf)

end Readback
