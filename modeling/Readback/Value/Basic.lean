import Readback.Dictionary
import Readback.Number.Basic
/-!
# Values and the heap

A value is a primitive, or the identity of a symbol or of an object.  What a symbol and an object are is kept in a heap,
so that objects may share parts and lie on cycles, and two of them are the same only if their identities are.
-/
namespace Readback

/-- The constructors whose errors can be written down. -/
inductive ErrorKind where
  | error | eval | range | reference | syntaxError | type | uri | permission
deriving DecidableEq, Inhabited, Repr

namespace ErrorKind

def all : List ErrorKind := [.error, .eval, .range, .reference, .syntaxError, .type, .uri, .permission]

/-- The name of the constructor. -/
def name : ErrorKind → String
  | .error       => "Error"
  | .eval        => "EvalError"
  | .range       => "RangeError"
  | .reference   => "ReferenceError"
  | .syntaxError => "SyntaxError"
  | .type        => "TypeError"
  | .uri         => "URIError"
  | .permission  => "PermissionError"

def ofName? (name : String) : Option ErrorKind := all.find? (·.name == name)

theorem ofName?_name (k : ErrorKind) : ofName? k.name = some k := by cases k <;> decide

end ErrorKind

/-- The prototypes that are there from the start. -/
inductive Intrinsic where
  | object | array | function | regexp | date
  | error (kind : ErrorKind)
deriving DecidableEq, Inhabited, Repr

structure ObjectId where
  index : Nat
deriving DecidableEq, Inhabited, Repr

structure SymbolId where
  index : Nat
deriving DecidableEq, Inhabited, Repr

inductive Value where
  | undefined
  | null
  | bool (value : Bool)
  | number (value : Number)
  | text (value : String)
  | symbol (id : SymbolId)
  | object (id : ObjectId)
deriving DecidableEq, Inhabited

inductive Prototype where
  | null
  | intrinsic (which : Intrinsic)
  | object (id : ObjectId)
deriving DecidableEq, Inhabited

/-- What an object holds beside its properties. -/
inductive Content where
  | ordinary
  /-- An element that is missing is a hole. -/
  | array (elements : List (Option Value))
  | function (source : String)
  | regexp (pattern flags : String)
  /-- Milliseconds since the first instant of 1970. -/
  | date (time : Number)
  | error
deriving DecidableEq, Inhabited

structure Object where
  proto      : Prototype
  content    : Content
  properties : Dictionary Value := {}
deriving Inhabited

namespace Object

def ordinary : Object := { proto := .intrinsic .object, content := .ordinary }

def ofEntries (entries : List (String × Value)) : Object :=
  { ordinary with properties := Dictionary.insertAll {} entries }

def array (elements : List (Option Value)) : Object := { proto := .intrinsic .array, content := .array elements }

/-- A function with its definition, word for word. -/
def function (source : String) : Object := { proto := .intrinsic .function, content := .function source }

/-- A function whose definition is no source text. -/
def native (name : String) : Object := function ("function " ++ name ++ "() \x7b [native code] \x7d")

def regexp (pattern flags : String) : Object := { proto := .intrinsic .regexp, content := .regexp pattern flags }

def date (time : Number) : Object := { proto := .intrinsic .date, content := .date time }

/-- An error, which has a message or not. -/
def error (kind : ErrorKind) (message : Option Value) : Object :=
  { proto := .intrinsic (.error kind)
    content := .error
    properties := Dictionary.insertAll {} (message.toList.map (("message", ·))) }

end Object

structure Heap where
  objects : Array Object := #[]
  /-- What each symbol is described as, if anything. -/
  symbols : Array (Option String) := #[]
deriving Inhabited

namespace Heap

def object? (h : Heap) (id : ObjectId) : Option Object := h.objects[id.index]?

def description? (h : Heap) (id : SymbolId) : Option String := (h.symbols[id.index]?).join

/-- A new object, and the heap with it. -/
def newObject (h : Heap) (o : Object) : Value × Heap := (.object ⟨h.objects.size⟩, { h with objects := h.objects.push o })

/-- A new symbol, and the heap with it. -/
def newSymbol (h : Heap) (description : Option String) : Value × Heap :=
  (.symbol ⟨h.symbols.size⟩, { h with symbols := h.symbols.push description })

def modify (h : Heap) (id : ObjectId) (f : Object → Object) : Heap :=
  { h with objects := h.objects.modify id.index f }

def setProperty (h : Heap) (id : ObjectId) (key : String) (value : Value) : Heap :=
  h.modify id (fun o => { o with properties := o.properties.insert key value })

def property? (h : Heap) (id : ObjectId) (key : String) : Option Value :=
  (h.object? id).bind (·.properties.find? key)

/-- One more element behind those of an array; of another object nothing changes. -/
def pushElement (h : Heap) (id : ObjectId) (element : Option Value) : Heap :=
  h.modify id (fun o =>
    match o.content with
    | .array elements => { o with content := .array (elements ++ [element]) }
    | _               => o)

/-- Whether a chain of prototypes comes to an intrinsic one, if so many of its objects are enough to tell.  The prototype of
every sort of error has that of errors at large behind it. -/
def chainReaches? (h : Heap) (goal : Intrinsic) : Nat → Prototype → Option Bool
  | _, .null            => some false
  | _, .intrinsic found =>
    some (found == goal || (match found with
      | .error _ => goal == .error .error
      | _        => false))
  | n, .object id       =>
    match n, h.object? id with
    | _, none         => some false
    | 0, some _       => none
    | n + 1, some o   => chainReaches? h goal n o.proto

/-- Whether an object inherits from an intrinsic prototype.  The search follows the chain to its end, so it never comes back
from a chain that has none: a chain that ends has no more objects than the heap. -/
def inherits? (h : Heap) (o : Object) (goal : Intrinsic) : Option Bool := h.chainReaches? goal h.objects.size o.proto

/-- The same, with no for an answer where the search does not come back. -/
def inherits (h : Heap) (o : Object) (goal : Intrinsic) : Bool := (h.inherits? o goal).getD false

end Heap

namespace Value

/-- Equality as a program sees it: numbers as IEEE 754 compares them, symbols and objects by identity. -/
def equals : Value → Value → Bool
  | .number x, .number y => x.equals y
  | v, w                 => v == w

/-- Whether two values cannot be told apart. -/
def same (v w : Value) : Bool := v == w

/-- A symbol or an object. -/
def hasIdentity : Value → Bool
  | .symbol _ | .object _ => true
  | _ => false

/-- What the operator `typeof` says of a value. -/
def typeOf (h : Heap) : Value → String
  | .undefined => "undefined"
  | .null      => "object"
  | .bool _    => "boolean"
  | .number _  => "number"
  | .text _    => "string"
  | .symbol _  => "symbol"
  | .object id =>
    match h.object? id with
    | some ⟨_, .function _, _⟩ => "function"
    | _ => "object"

end Value

end Readback
