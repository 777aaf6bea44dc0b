import Readback.Value.Basic
/-!
# Names for values

A registry binds paths to values.  A path leads to its value, and a symbol or an object leads back to the first path that
is bound to it: its selector.
-/
namespace Readback

structure Registry where
  bindings : Dictionary Value := {}
deriving Inhabited

/-- Where selectors come from. -/
abbrev Resolver : Type := Value → Option String

namespace Registry

/-- Binds a path, in the place of what it was bound to before, if anything. -/
def bind (r : Registry) (path : String) (value : Value) : Registry := ⟨r.bindings.insert path value⟩

/-- What a path was bound to, and the registry without it. -/
def unbind (r : Registry) (path : String) : Option Value × Registry := (r.bindings.find? path, ⟨r.bindings.erase path⟩)

def lookup? (r : Registry) (path : String) : Option Value := r.bindings.find? path

def size (r : Registry) : Nat := r.bindings.size

def isEmpty (r : Registry) : Bool := r.bindings.isEmpty

def entries (r : Registry) : List (String × Value) := r.bindings.entries

/-- Some path is bound to the value. -/
def names (r : Registry) (value : Value) : Bool := r.entries.any (fun e => e.2.equals value)

/-- The first path that is bound to a symbol or an object. -/
def selectorFor : Registry → Resolver := fun r value =>
  if value.hasIdentity then (r.entries.find? (·.2 == value)).map (·.1) else none

end Registry

/-- The resolver that knows no selectors. -/
def noSelectors : Resolver := fun _ => none

end Readback
