import Readback.Tree.Basic
/-!
# Nodes of a tree

The expressions, the properties and the statements of a tree are its nodes.  Each has children, which are listed in the order in
which they stand in the text.
-/
namespace Readback

/-- A part of a tree that has a span. -/
inductive Node where
  | expr (e : Expr)
  | property (p : Property)
  | stmt (s : Stmt)

def Declarator.init : Declarator → Option Expr
  | .mk _ init => init

@[simp] def PropertyKey.nodes : PropertyKey → List Node
  | .name _ | .text _ | .number _ => []
  | .computed e => [.expr e]

/-- The values that are declared, where there are any. -/
def declared (items : List Declarator) : List Node := items.filterMap fun d => d.init.map .expr

@[simp] theorem declared_nil : declared [] = [] := rfl

@[simp] theorem declared_cons (name : String) (init : Option Expr) (items : List Declarator) :
    declared (.mk name init :: items) = init.toList.map .expr ++ declared items := by
  cases init <;> rfl

/-- The elements of an array, without the holes. -/
def elementNodes (items : List (Option Expr)) : List Node := items.filterMap fun e => e.map .expr

@[simp] theorem elementNodes_nil : elementNodes [] = [] := rfl

@[simp] theorem elementNodes_none (items : List (Option Expr)) : elementNodes (none :: items) = elementNodes items := rfl

@[simp] theorem elementNodes_some (e : Expr) (items : List (Option Expr)) :
    elementNodes (some e :: items) = .expr e :: elementNodes items := rfl

namespace Node

def span : Node → Span
  | .expr e     => e.span
  | .property p => p.span
  | .stmt s     => s.span

/-- **The parts of a node**, in the order of the text.  A property without a value has the name that it stands for. -/
@[simp] def children : Node → List Node
  | .expr (.literal _ _) | .expr (.identifier _ _) | .expr (.this _) | .expr (.regex _ _ _) => []
  | .expr (.array _ items)           => elementNodes items
  | .expr (.object _ items)          => items.map .property
  | .expr (.function _ _ _ body)     => body.map .stmt
  | .expr (.unary _ _ e) | .expr (.update _ _ _ e) | .expr (.field _ e _) | .expr (.group _ e) => [.expr e]
  | .expr (.binary _ _ x y) | .expr (.assign _ _ x y) | .expr (.index _ x y) => [.expr x, .expr y]
  | .expr (.conditional _ x y z)     => [.expr x, .expr y, .expr z]
  | .expr (.call _ e args) | .expr (.new _ e args) => .expr e :: args.map .expr
  | .expr (.sequence _ items)        => items.map .expr
  | .property (.pair _ key e)        => key.nodes ++ [.expr e]
  | .property (.shorthand s name)    => [.expr (.identifier s name)]
  | .stmt (.empty _) | .stmt (.breaks _ _) | .stmt (.continues _ _) => []
  | .stmt (.expression _ e) | .stmt (.throws _ e) => [.expr e]
  | .stmt (.block _ body) | .stmt (.function _ _ _ body) => body.map .stmt
  | .stmt (.labeled _ _ body)        => [.stmt body]
  | .stmt (.declare _ _ items)       => declared items
  | .stmt (.choose _ e yes no)       => .expr e :: .stmt yes :: no.toList.map .stmt
  | .stmt (.whileLoop _ e body)      => [.expr e, .stmt body]
  | .stmt (.doLoop _ body e)         => [.stmt body, .expr e]
  | .stmt (.forLoop _ init test step body) =>
      init.toList.map .stmt ++ (test.toList.map .expr ++ (step.toList.map .expr ++ [.stmt body]))
  | .stmt (.returns _ value)         => value.toList.map .expr

/-! ## All parts -/

/-- What gets less from a node to its children.  A property without a value is as large as the name that it stands for. -/
noncomputable def weight : Node → Nat
  | .expr e     => sizeOf e
  | .property p => sizeOf p + 1
  | .stmt s     => sizeOf s

theorem weight_of_mem_elementNodes {items : List (Option Expr)} {y : Node} (h : y ∈ elementNodes items) :
    y.weight < sizeOf items := by
  obtain ⟨e, he, hy⟩ := List.mem_filterMap.1 h
  obtain ⟨e, rfl, rfl⟩ := Option.map_eq_some_iff.1 hy
  have := List.sizeOf_lt_of_mem he
  simp only [Option.some.sizeOf_spec] at this
  rw [weight]
  omega

theorem weight_of_mem_declared {items : List Declarator} {y : Node} (h : y ∈ declared items) : y.weight < sizeOf items := by
  obtain ⟨⟨name, init⟩, hd, hy⟩ := List.mem_filterMap.1 h
  obtain ⟨e, rfl, rfl⟩ := Option.map_eq_some_iff.1 hy
  have := List.sizeOf_lt_of_mem hd
  simp only [Declarator.mk.sizeOf_spec, Option.some.sizeOf_spec] at this
  rw [weight]
  omega

theorem weight_of_mem_nodes {key : PropertyKey} {y : Node} (h : y ∈ key.nodes) : y.weight < sizeOf key := by
  cases key with
  | computed e =>
    cases List.mem_singleton.1 h
    simp only [weight, PropertyKey.computed.sizeOf_spec]
    omega
  | _ => cases h

/-- A child weighs less than its parent. -/
theorem weight_lt_of_mem_children {x y : Node} (h : y ∈ x.children) : y.weight < x.weight := by
  cases x with
  | expr e =>
    cases e <;> simp only [children] at h <;>
      grind [weight, → List.sizeOf_lt_of_mem, → weight_of_mem_elementNodes]
  | property p =>
    cases p <;> simp only [children] at h <;> grind [weight, → weight_of_mem_nodes]
  | stmt s =>
    cases s <;> simp only [children] at h <;>
      grind [weight, → List.sizeOf_lt_of_mem, → weight_of_mem_declared]

/-- **The node and what is below it**, in the order in which it starts in the text. -/
def all (x : Node) : List Node := x :: x.children.attach.flatMap fun y => y.1.all
termination_by x.weight
decreasing_by exact weight_lt_of_mem_children y.2

theorem all_eq (x : Node) : x.all = x :: x.children.flatMap all := by
  rw [all, List.flatMap_subtype fun _ _ => rfl, List.unattach_attach]

/-! ## Regular expressions -/

/-- The span of a node that is a regular expression. -/
@[reducible, simp] def regex? : Node → Option Span
  | .expr (.regex s _ _) => some s
  | _ => none

/-- The spans of the regular expressions of a node, in the order of the text. -/
def regexes (x : Node) : List Span := x.all.filterMap regex?

@[simp] theorem regexes_regex (s : Span) (pattern flags : String) : (expr (.regex s pattern flags)).regexes = [s] := by
  rw [regexes, all_eq]
  rfl

/-- Any other node has those of its children. -/
@[simp] theorem regexes_eq {x : Node} (h : x.regex? = none) : x.regexes = x.children.flatMap regexes := by
  rw [regexes, all_eq, List.filterMap_cons_none h, List.filterMap_flatMap]
  rfl

end Node

end Readback
