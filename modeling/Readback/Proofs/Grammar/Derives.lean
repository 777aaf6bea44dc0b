import Readback.Grammar.Program
import Readback.Proofs.Grammar.Place
/-!
# The grammar

What is a phrase of which sort, said without a reader: a phrase of a sort leads from a place to a later one and has a tree.
The grammar depends on one token behind a phrase: a phrase that could go on must not, so some rules ask what the token in
hand is where they end.

Two sorts are phrases that may go on and are read from the left: `chain` is an operand with members and calls behind it,
`operators` an operand with operators and operands behind it.
-/
namespace Readback.Grammar

open Token (Kind)

/-- The sorts of phrases, and the trees they have. -/
inductive Phrase where
  | statement | ending | block | blockRest
  | declarators (kind : DeclKind) | initializer (kind : DeclKind)
  | alternative | condition | whileEnd | forInit | expressionUnless (k : Kind) | returned | jumpLabel
  | functionName | parameters | params | signature
  | expression | itemsRest | assignment | conditional | binary (least : Nat) | operators (least : Nat)
  | unary | update | member (calls : Bool) | chain (calls : Bool) | construct | newArguments | primary
  | argumentsRest | elementsRest | propertiesRest | property | propertyKey

abbrev Phrase.Result : Phrase → Type
  | .statement => Stmt
  | .ending | .whileEnd => Unit
  | .block | .blockRest => List Stmt
  | .declarators _ => List Declarator
  | .alternative | .forInit => Option Stmt
  | .initializer _ | .expressionUnless _ | .returned => Option Expr
  | .jumpLabel | .functionName => Option String
  | .parameters | .params => List String
  | .signature => List String × List Stmt
  | .condition | .expression | .assignment | .conditional | .binary _ | .operators _ | .unary | .update
  | .member _ | .chain _ | .construct | .primary => Expr
  | .itemsRest | .newArguments | .argumentsRest => List Expr
  | .elementsRest => List (Option Expr)
  | .propertiesRest => List Property
  | .property => Property
  | .propertyKey => PropertyKey

/-! ## What is asked of the token in hand -/

/-- The literals that are words. -/
def wordLiteral? : Kind → Option Literal
  | .keyword .true  => some (.bool true)
  | .keyword .false => some (.bool false)
  | .keyword .null  => some .null
  | _               => none

/-- The operator of an assignment, none for a plain one. -/
def assignOp? (t : Token) : Option (Option BinaryOp) :=
  match t.kind with
  | .assign         => some none
  | .compoundAssign => (compoundOp? t.text).map some
  | _               => none

/-- A statement of a sort of its own starts here, not an expression. -/
def opensStatement : Kind → Bool
  | .semicolon | .lBrace => true
  | .keyword .function | .keyword .if | .keyword .while | .keyword .do | .keyword .for | .keyword .return
  | .keyword .break | .keyword .continue | .keyword .throw => true
  | k => (declKind? k).isSome

/-- A statement may end in front of this token. -/
def endsStatement (t : Token) : Bool :=
  t.newlineBefore || t.kind == .semicolon || t.kind == .rBrace || t.kind == .eof

/-- A member or, where there may be one, a call goes on with this token. -/
def extendsChain (calls : Bool) (k : Kind) : Bool := k == .dot || k == .lBracket || (calls && k == .lParen)

/-- The token is an update that stands on the line of its target. -/
def updateHere? (t : Token) : Option UpdateOp := if t.newlineBefore then none else updateOp? t.kind

/-- An operator that takes the operand before it, where one has to bind as tightly as `least`. -/
def operatorHere? (least : Nat) (k : Kind) : Option BinaryOp := (binaryOp? k).filter (least ≤ ·.precedence)

def isAssign (k : Kind) : Bool := k == .assign || k == .compoundAssign

def isName : Kind → Bool
  | .identifier | .keyword _ => true
  | _ => false

/-- The expression is one name. -/
def isIdentifier : Expr → Bool
  | .identifier _ _ => true
  | _ => false

/-! ## The phrases -/

/-- **There is a phrase of a sort, with a tree, from one place to another**, within a function or not. -/
inductive Derives : Bool → (p : Phrase) → Lexer → p.Result → Lexer → Prop where
  -- primary expressions
  | number {b l x l'} : l.Takes .number l' → Number.Literal.read? l.hand.text.toList = some x →
      Derives b .primary l (.literal (l.upTo l') (.number x)) l'
  | text {b l l'} : l.Takes .string l' → Derives b .primary l (.literal (l.upTo l') (.text l.hand.text)) l'
  | word {b l v l'} : l.Steps l' → wordLiteral? l.hand.kind = some v → Derives b .primary l (.literal (l.upTo l') v) l'
  | regex {b l l'} : l.Takes .regex l' →
      Derives b .primary l (.regex (l.upTo l') (splitRegex l.hand.text.toList).1 (splitRegex l.hand.text.toList).2) l'
  | slash {b l u l'} : l.Rereads u l' →
      Derives b .primary l (.regex (l.upTo l') (splitRegex u.text.toList).1 (splitRegex u.text.toList).2) l'
  | identifier {b l l'} : l.Takes .identifier l' → Derives b .primary l (.identifier (l.upTo l') l.hand.text) l'
  | this {b l l'} : l.Takes (.keyword .this) l' → Derives b .primary l (.this (l.upTo l')) l'
  | function {b l l₁ l₂ name f l'} : l.Takes (.keyword .function) l₁ → Derives b .functionName l₁ name l₂ →
      Derives b .signature l₂ f l' → Derives b .primary l (.function (l.upTo l') name f.1 f.2) l'
  | group {b l l₁ l₂ e l'} : l.Takes .lParen l₁ → Derives b .expression l₁ e l₂ → l₂.Takes .rParen l' →
      Derives b .primary l (.group (l.upTo l') e) l'
  | array {b l l₁ items l'} : l.Takes .lBracket l₁ → Derives b .elementsRest l₁ items l' →
      Derives b .primary l (.array (l.upTo l') items) l'
  | object {b l l₁ items l'} : l.Takes .lBrace l₁ → Derives b .propertiesRest l₁ items l' →
      Derives b .primary l (.object (l.upTo l') items) l'
  -- functions
  | named {b l l'} : l.Takes .identifier l' → Derives b .functionName l (some l.hand.text) l'
  | nameless {b l} : l.hand.kind ≠ .identifier → Derives b .functionName l none l
  | noParams {b l} : l.hand.kind = .rParen → Derives b .parameters l [] l
  | someParams {b l names l'} : l.hand.kind ≠ .rParen → Derives b .params l names l' → Derives b .parameters l names l'
  | lastParam {b l l'} : l.Takes .identifier l' → l'.hand.kind ≠ .comma → Derives b .params l [l.hand.text] l'
  | param {b l l₁ l₂ names l'} : l.Takes .identifier l₁ → l₁.Takes .comma l₂ → Derives b .params l₂ names l' →
      Derives b .params l (l.hand.text :: names) l'
  | signature {b l l₁ l₂ l₃ names body l'} : l.Takes .lParen l₁ → Derives b .parameters l₁ names l₂ →
      l₂.Takes .rParen l₃ → Derives true .block l₃ body l' → Derives b .signature l (names, body) l'
  -- members, calls and `new`
  | primaryChain {b l e l' calls} : l.hand.kind ≠ .keyword .new → Derives b .primary l e l' →
      Derives b (.chain calls) l e l'
  | constructChain {b l e l' calls} : l.hand.kind = .keyword .new → Derives b .construct l e l' →
      Derives b (.chain calls) l e l'
  | field {b l e l₁ l₂ l' calls} : Derives b (.chain calls) l e l₁ → l₁.Takes .dot l₂ → isName l₂.hand.kind = true →
      l₂.Steps l' → Derives b (.chain calls) l (.field ⟨e.span.start, l'.cursor.pos⟩ e l₂.hand.text) l'
  | index {b l e l₁ l₂ i l₃ l' calls} : Derives b (.chain calls) l e l₁ → l₁.Takes .lBracket l₂ →
      Derives b .expression l₂ i l₃ → l₃.Takes .rBracket l' →
      Derives b (.chain calls) l (.index ⟨e.span.start, l'.cursor.pos⟩ e i) l'
  | call {b l e l₁ l₂ args l'} : Derives b (.chain true) l e l₁ → l₁.Takes .lParen l₂ →
      Derives b .argumentsRest l₂ args l' →
      Derives b (.chain true) l (.call ⟨e.span.start, l'.cursor.pos⟩ e args) l'
  | member {b l e l' calls} : Derives b (.chain calls) l e l' → extendsChain calls l'.hand.kind = false →
      Derives b (.member calls) l e l'
  | construct {b l l₁ e l₂ args l'} : l.Takes (.keyword .new) l₁ → Derives b (.member false) l₁ e l₂ →
      Derives b .newArguments l₂ args l' → Derives b .construct l (.new (l.upTo l') e args) l'
  | newArguments {b l l₁ args l'} : l.Takes .lParen l₁ → Derives b .argumentsRest l₁ args l' →
      Derives b .newArguments l args l'
  | noArguments {b l} : l.hand.kind ≠ .lParen → Derives b .newArguments l [] l
  -- operators
  | noUpdate {b l e l'} : Derives b (.member true) l e l' → updateHere? l'.hand = none → Derives b .update l e l'
  | update {b l e l₁ op l'} : Derives b (.member true) l e l₁ → l₁.Steps l' → updateHere? l₁.hand = some op →
      Derives b .update l (.update (e.span.through l₁.hand.span) op false e) l'
  | noPrefix {b l e l'} : unaryOp? l.hand.kind = none → updateOp? l.hand.kind = none → Derives b .update l e l' →
      Derives b .unary l e l'
  | unary {b l op l₁ e l'} : l.Steps l₁ → unaryOp? l.hand.kind = some op → Derives b .unary l₁ e l' →
      Derives b .unary l (.unary (l.hand.span.through e.span) op e) l'
  | updateFirst {b l op l₁ e l'} : l.Steps l₁ → unaryOp? l.hand.kind = none → updateOp? l.hand.kind = some op →
      Derives b .unary l₁ e l' → Derives b .unary l (.update (l.hand.span.through e.span) op true e) l'
  | operators {b l e l' least} : Derives b .unary l e l' → Derives b (.operators least) l e l'
  | operator {b l e l₁ op l₂ e' l' least} : Derives b (.operators least) l e l₁ → l₁.Steps l₂ →
      operatorHere? least l₁.hand.kind = some op → Derives b (.binary op.rightPrecedence) l₂ e' l' →
      Derives b (.operators least) l (.binary (e.span.through e'.span) op e e') l'
  | binary {b l e l' least} : Derives b (.operators least) l e l' → operatorHere? least l'.hand.kind = none →
      Derives b (.binary least) l e l'
  | noChoice {b l e l'} : Derives b (.binary 0) l e l' → l'.hand.kind ≠ .question → Derives b .conditional l e l'
  | choice {b l e l₁ l₂ yes l₃ l₄ no l'} : Derives b (.binary 0) l e l₁ → l₁.Takes .question l₂ →
      Derives b .assignment l₂ yes l₃ → l₃.Takes .colon l₄ → Derives b .assignment l₄ no l' →
      Derives b .conditional l (.conditional (e.span.through no.span) e yes no) l'
  | noAssign {b l e l'} : Derives b .conditional l e l' → isAssign l'.hand.kind = false → Derives b .assignment l e l'
  | assign {b l e l₁ op l₂ e' l'} : Derives b .conditional l e l₁ → l₁.Steps l₂ → assignOp? l₁.hand = some op →
      e.isTarget = true → Derives b .assignment l₂ e' l' →
      Derives b .assignment l (.assign (e.span.through e'.span) op e e') l'
  | single {b l e l'} : Derives b .assignment l e l' → l'.hand.kind ≠ .comma → Derives b .expression l e l'
  | sequence {b l e l₁ rest l'} : Derives b .assignment l e l₁ → l₁.hand.kind = .comma → Derives b .itemsRest l₁ rest l' →
      Derives b .expression l (.sequence ⟨e.span.start, l'.cursor.pos⟩ (e :: rest)) l'
  | noItem {b l} : l.hand.kind ≠ .comma → Derives b .itemsRest l [] l
  | item {b l l₁ e l₂ rest l'} : l.Takes .comma l₁ → Derives b .assignment l₁ e l₂ → Derives b .itemsRest l₂ rest l' →
      Derives b .itemsRest l (e :: rest) l'
  -- arguments, elements and properties
  | argumentsEnd {b l l'} : l.Takes .rParen l' → Derives b .argumentsRest l [] l'
  | lastArgument {b l e l₁ l'} : l.hand.kind ≠ .rParen → Derives b .assignment l e l₁ → l₁.Takes .rParen l' →
      Derives b .argumentsRest l [e] l'
  | argument {b l e l₁ l₂ rest l'} : l.hand.kind ≠ .rParen → Derives b .assignment l e l₁ → l₁.Takes .comma l₂ →
      Derives b .argumentsRest l₂ rest l' → Derives b .argumentsRest l (e :: rest) l'
  | elementsEnd {b l l'} : l.Takes .rBracket l' → Derives b .elementsRest l [] l'
  | hole {b l l₁ rest l'} : l.Takes .comma l₁ → Derives b .elementsRest l₁ rest l' →
      Derives b .elementsRest l (none :: rest) l'
  | lastElement {b l e l₁ l'} : l.hand.kind ≠ .rBracket → l.hand.kind ≠ .comma → Derives b .assignment l e l₁ →
      l₁.Takes .rBracket l' → Derives b .elementsRest l [some e] l'
  | element {b l e l₁ l₂ rest l'} : l.hand.kind ≠ .rBracket → l.hand.kind ≠ .comma → Derives b .assignment l e l₁ →
      l₁.Takes .comma l₂ → Derives b .elementsRest l₂ rest l' → Derives b .elementsRest l (some e :: rest) l'
  | propertiesEnd {b l l'} : l.Takes .rBrace l' → Derives b .propertiesRest l [] l'
  | lastProperty {b l first l₁ l'} : l.hand.kind ≠ .rBrace → Derives b .property l first l₁ → l₁.Takes .rBrace l' →
      Derives b .propertiesRest l [first] l'
  | moreProperties {b l first l₁ l₂ rest l'} : l.hand.kind ≠ .rBrace → Derives b .property l first l₁ →
      l₁.Takes .comma l₂ → Derives b .propertiesRest l₂ rest l' → Derives b .propertiesRest l (first :: rest) l'
  | shorthand {b l l'} : l.Takes .identifier l' → l'.hand.kind = .comma ∨ l'.hand.kind = .rBrace →
      Derives b .property l (.shorthand (l.upTo l') l.hand.text) l'
  | pair {b l key l₁ l₂ e l'} : Derives b .propertyKey l key l₁ → l₁.Takes .colon l₂ → Derives b .assignment l₂ e l' →
      Derives b .property l (.pair (l.upTo l') key e) l'
  | nameKey {b l l'} : l.Steps l' → isName l.hand.kind = true → Derives b .propertyKey l (.name l.hand.text) l'
  | textKey {b l l'} : l.Takes .string l' → Derives b .propertyKey l (.text l.hand.text) l'
  | numberKey {b l x l'} : l.Takes .number l' → Number.Literal.read? l.hand.text.toList = some x →
      Derives b .propertyKey l (.number x) l'
  | computedKey {b l l₁ e l₂ l'} : l.Takes .lBracket l₁ → Derives b .assignment l₁ e l₂ → l₂.Takes .rBracket l' →
      Derives b .propertyKey l (.computed e) l'
  -- statements
  | empty {b l l'} : l.Takes .semicolon l' → Derives b .statement l (.empty (l.upTo l')) l'
  | blockStatement {b l body l'} : Derives b .block l body l' → Derives b .statement l (.block (l.upTo l') body) l'
  | functionStatement {b l l₁ l₂ f l'} : l.Takes (.keyword .function) l₁ → l₁.Takes .identifier l₂ →
      Derives b .signature l₂ f l' → Derives b .statement l (.function (l.upTo l') l₁.hand.text f.1 f.2) l'
  | choose {b l l₁ e l₂ yes l₃ no l'} : l.Takes (.keyword .if) l₁ → Derives b .condition l₁ e l₂ →
      Derives b .statement l₂ yes l₃ → Derives b .alternative l₃ no l' →
      Derives b .statement l (.choose (l.upTo l') e yes no) l'
  | whileLoop {b l l₁ e l₂ body l'} : l.Takes (.keyword .while) l₁ → Derives b .condition l₁ e l₂ →
      Derives b .statement l₂ body l' → Derives b .statement l (.whileLoop (l.upTo l') e body) l'
  | doLoop {b l l₁ body l₂ l₃ e l₄ u l'} : l.Takes (.keyword .do) l₁ → Derives b .statement l₁ body l₂ →
      l₂.Takes (.keyword .while) l₃ → Derives b .condition l₃ e l₄ → Derives b .whileEnd l₄ u l' →
      Derives b .statement l (.doLoop (l.upTo l') body e) l'
  | forLoop {b l l₁ l₂ init l₃ l₄ test l₅ l₆ step l₇ l₈ body l'} : l.Takes (.keyword .for) l₁ → l₁.Takes .lParen l₂ →
      Derives b .forInit l₂ init l₃ → l₃.Takes .semicolon l₄ → Derives b (.expressionUnless .semicolon) l₄ test l₅ →
      l₅.Takes .semicolon l₆ → Derives b (.expressionUnless .rParen) l₆ step l₇ → l₇.Takes .rParen l₈ →
      Derives b .statement l₈ body l' → Derives b .statement l (.forLoop (l.upTo l') init test step body) l'
  | returns {l l₁ value l₂ u l'} : l.Takes (.keyword .return) l₁ → Derives true .returned l₁ value l₂ →
      Derives true .ending l₂ u l' → Derives true .statement l (.returns (l.upTo l') value) l'
  | breaks {b l l₁ label l₂ u l'} : l.Takes (.keyword .break) l₁ → Derives b .jumpLabel l₁ label l₂ →
      Derives b .ending l₂ u l' → Derives b .statement l (.breaks (l.upTo l') label) l'
  | continues {b l l₁ label l₂ u l'} : l.Takes (.keyword .continue) l₁ → Derives b .jumpLabel l₁ label l₂ →
      Derives b .ending l₂ u l' → Derives b .statement l (.continues (l.upTo l') label) l'
  | throws {b l l₁ e l₂ u l'} : l.Takes (.keyword .throw) l₁ → l₁.hand.newlineBefore = false →
      Derives b .expression l₁ e l₂ → Derives b .ending l₂ u l' → Derives b .statement l (.throws (l.upTo l') e) l'
  | declare {b l kind l₁ items l₂ u l'} : l.Steps l₁ → declKind? l.hand.kind = some kind →
      Derives b (.declarators kind) l₁ items l₂ → Derives b .ending l₂ u l' →
      Derives b .statement l (.declare (l.upTo l') kind items) l'
  | labeled {b l span name l₁ l₂ body l'} : opensStatement l.hand.kind = false →
      Derives b .expression l (.identifier span name) l₁ → l₁.Takes .colon l₂ → Derives b .statement l₂ body l' →
      Derives b .statement l (.labeled (l.upTo l') name body) l'
  | expressionStatement {b l e l₁ u l'} : opensStatement l.hand.kind = false → Derives b .expression l e l₁ →
      (isIdentifier e && l₁.hand.kind == .colon) = false → Derives b .ending l₁ u l' →
      Derives b .statement l (.expression (l.upTo l') e) l'
  | semicolon {b l l'} : l.Takes .semicolon l' → Derives b .ending l () l'
  | lineEnd {b l} : l.hand.kind ≠ .semicolon → endsStatement l.hand = true → Derives b .ending l () l
  | whileSemicolon {b l l'} : l.Takes .semicolon l' → Derives b .whileEnd l () l'
  | whileEnd {b l} : l.hand.kind ≠ .semicolon → Derives b .whileEnd l () l
  | block {b l l₁ body l'} : l.Takes .lBrace l₁ → Derives b .blockRest l₁ body l' → Derives b .block l body l'
  | blockEnd {b l l'} : l.Takes .rBrace l' → Derives b .blockRest l [] l'
  | blockItem {b l first l₁ rest l'} : l.hand.kind ≠ .rBrace → l.hand.kind ≠ .eof → Derives b .statement l first l₁ →
      Derives b .blockRest l₁ rest l' → Derives b .blockRest l (first :: rest) l'
  | lastDeclarator {b l l₁ kind init l'} : l.Takes .identifier l₁ → Derives b (.initializer kind) l₁ init l' →
      l'.hand.kind ≠ .comma → Derives b (.declarators kind) l [.mk l.hand.text init] l'
  | declarator {b l l₁ kind init l₂ l₃ rest l'} : l.Takes .identifier l₁ → Derives b (.initializer kind) l₁ init l₂ →
      l₂.Takes .comma l₃ → Derives b (.declarators kind) l₃ rest l' →
      Derives b (.declarators kind) l (.mk l.hand.text init :: rest) l'
  | initializer {b l l₁ kind e l'} : l.Takes .assign l₁ → Derives b .assignment l₁ e l' →
      Derives b (.initializer kind) l (some e) l'
  | noInitializer {b l kind} : l.hand.kind ≠ .assign → kind ≠ .const → Derives b (.initializer kind) l none l
  | alternative {b l l₁ no l'} : l.Takes (.keyword .else) l₁ → Derives b .statement l₁ no l' →
      Derives b .alternative l (some no) l'
  | noAlternative {b l} : l.hand.kind ≠ .keyword .else → Derives b .alternative l none l
  | condition {b l l₁ e l₂ l'} : l.Takes .lParen l₁ → Derives b .expression l₁ e l₂ → l₂.Takes .rParen l' →
      Derives b .condition l e l'
  | noInit {b l} : l.hand.kind = .semicolon → Derives b .forInit l none l
  | declareInit {b l kind l₁ items l'} : l.Steps l₁ → declKind? l.hand.kind = some kind →
      Derives b (.declarators kind) l₁ items l' → Derives b .forInit l (some (.declare (l.upTo l') kind items)) l'
  | expressionInit {b l e l'} : l.hand.kind ≠ .semicolon → declKind? l.hand.kind = none → Derives b .expression l e l' →
      Derives b .forInit l (some (.expression (l.upTo l') e)) l'
  | noExpression {b l k} : l.hand.kind = k → Derives b (.expressionUnless k) l none l
  | someExpression {b l k e l'} : l.hand.kind ≠ k → Derives b .expression l e l' →
      Derives b (.expressionUnless k) l (some e) l'
  | nothingReturned {b l} : endsStatement l.hand = true → Derives b .returned l none l
  | returned {b l e l'} : endsStatement l.hand = false → Derives b .expression l e l' → Derives b .returned l (some e) l'
  | label {b l l'} : l.Takes .identifier l' → l.hand.newlineBefore = false → Derives b .jumpLabel l (some l.hand.text) l'
  | noLabel {b l} : ¬ (l.hand.kind = .identifier ∧ l.hand.newlineBefore = false) → Derives b .jumpLabel l none l

/-- There are statements from a place to the end of the text. -/
inductive DerivesAll : Lexer → List Stmt → Lexer → Prop where
  | done {l} : l.hand.kind = .eof → DerivesAll l [] l
  | more {l first l₁ rest l'} : l.hand.kind ≠ .eof → Derives false .statement l first l₁ → DerivesAll l₁ rest l' →
      DerivesAll l (first :: rest) l'

/-! ## What a phrase takes -/

/-- How many tokens a phrase of the sort takes at least: none, if it may be missing, or is what may stand behind a phrase. -/
def Phrase.least : Phrase → Nat
  | .ending | .initializer _ | .alternative | .whileEnd | .forInit | .expressionUnless _ | .returned | .jumpLabel
  | .functionName | .parameters | .itemsRest | .newArguments => 0
  | _ => 1

/-- **A phrase leaves less of the text**, by a character at least for each token that it has to take. -/
theorem Derives.left_add_least_le {b : Bool} {p : Phrase} {l : Lexer} {a : p.Result} {l' : Lexer}
    (h : Derives b p l a l') : l'.left + p.least ≤ l.left := by
  induction h <;> simp only [Phrase.least] at * <;> grind

end Readback.Grammar
