import Readback.Number.Basic
import Readback.Span
import Readback.Tree.Operator
/-!
# Trees

The trees of expressions, statements and programs.  Every expression, property and statement has the span of the text it
was read from.  A property without a value is a name that stands for itself.
-/
namespace Readback

inductive Literal where
  | number (value : Number)
  | text (value : String)
  | bool (value : Bool)
  | null
deriving DecidableEq, Inhabited

inductive DeclKind where
  | var | let | const
deriving DecidableEq, Inhabited, Repr

mutual

inductive Expr where
  | literal (span : Span) (value : Literal)
  | identifier (span : Span) (name : String)
  | this (span : Span)
  | regex (span : Span) (pattern flags : String)
  /-- An element that is missing is a hole. -/
  | array (span : Span) (elements : List (Option Expr))
  | object (span : Span) (properties : List Property)
  | function (span : Span) (name : Option String) (params : List String) (body : List Stmt)
  | unary (span : Span) (op : UnaryOp) (operand : Expr)
  | update (span : Span) (op : UpdateOp) (leading : Bool) (target : Expr)
  | binary (span : Span) (op : BinaryOp) (left right : Expr)
  /-- Without an operator it is plain assignment. -/
  | assign (span : Span) (op : Option BinaryOp) (target value : Expr)
  | conditional (span : Span) (test yes no : Expr)
  | call (span : Span) (callee : Expr) (args : List Expr)
  | new (span : Span) (callee : Expr) (args : List Expr)
  | field (span : Span) (target : Expr) (name : String)
  | index (span : Span) (target place : Expr)
  | sequence (span : Span) (items : List Expr)
  | group (span : Span) (inner : Expr)

inductive Property where
  | pair (span : Span) (key : PropertyKey) (value : Expr)
  | shorthand (span : Span) (name : String)

inductive PropertyKey where
  | name (name : String)
  | text (value : String)
  | number (value : Number)
  | computed (value : Expr)

inductive Stmt where
  | empty (span : Span)
  | expression (span : Span) (value : Expr)
  | block (span : Span) (body : List Stmt)
  | labeled (span : Span) (label : String) (body : Stmt)
  | declare (span : Span) (kind : DeclKind) (items : List Declarator)
  | function (span : Span) (name : String) (params : List String) (body : List Stmt)
  | choose (span : Span) (condition : Expr) (yes : Stmt) (no : Option Stmt)
  | whileLoop (span : Span) (condition : Expr) (body : Stmt)
  | doLoop (span : Span) (body : Stmt) (condition : Expr)
  | forLoop (span : Span) (init : Option Stmt) (test step : Option Expr) (body : Stmt)
  | returns (span : Span) (value : Option Expr)
  | breaks (span : Span) (label : Option String)
  | continues (span : Span) (label : Option String)
  | throws (span : Span) (value : Expr)

inductive Declarator where
  | mk (name : String) (init : Option Expr)

end

instance : Inhabited Expr := ⟨.this default⟩
instance : Inhabited Property := ⟨.shorthand default default⟩
instance : Inhabited Stmt := ⟨.empty default⟩
instance : Inhabited Declarator := ⟨.mk default none⟩

namespace Expr

def span : Expr → Span
  | .literal s _ | .identifier s _ | .this s | .regex s _ _ | .array s _ | .object s _ | .function s _ _ _
  | .unary s _ _ | .update s _ _ _ | .binary s _ _ _ | .assign s _ _ _ | .conditional s _ _ _ | .call s _ _
  | .new s _ _ | .field s _ _ | .index s _ _ | .sequence s _ | .group s _ => s

/-- A literal that would change its meaning at the start of a statement. -/
def needsParens : Expr → Bool
  | .object _ _ | .function _ _ _ _ => true
  | _ => false

/-- What an assignment may have on its left. -/
def isTarget : Expr → Bool
  | .identifier _ _ | .field _ _ _ | .index _ _ _ => true
  | _ => false

end Expr

namespace Property

def span : Property → Span
  | .pair s _ _ | .shorthand s _ => s

def key : Property → PropertyKey
  | .pair _ k _      => k
  | .shorthand _ name => .name name

def value : Property → Expr
  | .pair _ _ v       => v
  | .shorthand s name => .identifier s name

end Property

namespace Stmt

def span : Stmt → Span
  | .empty s | .expression s _ | .block s _ | .labeled s _ _ | .declare s _ _ | .function s _ _ _ | .choose s _ _ _
  | .whileLoop s _ _ | .doLoop s _ _ | .forLoop s _ _ _ _ | .returns s _ | .breaks s _ | .continues s _
  | .throws s _ => s

def isEmpty : Stmt → Bool
  | .empty _ => true
  | _ => false

end Stmt

/-- How a program was read.  Only scripts are read here; another grammar may answer with modules. -/
inductive SourceType where
  | script | module
deriving DecidableEq, Inhabited, Repr

structure Program where
  sourceType : SourceType
  body       : List Stmt
  span       : Span
deriving Inhabited

end Readback
