import Readback.Tree.Basic
/-!
# Trees of the same text in another place

The spans of a tree can all be moved at once: where they start, and where they stop.
-/
namespace Readback

/-- Where the places go at which something starts, and those at which something stops. -/
structure Move where
  start : Nat → Nat
  stop  : Nat → Nat

namespace Move

/-- Everything stays where it is. -/
def stay : Move := ⟨id, id⟩

/-- Everything goes so many bytes to the right. -/
def right (k : Nat) : Move := ⟨(· + k), (· + k)⟩

end Move

def Span.move (m : Move) (s : Span) : Span := ⟨m.start s.start, m.stop s.stop⟩

mutual

/-- The tree with the ends of all spans moved. -/
def Expr.move (m : Move) : Expr → Expr
  | .literal s v           => .literal (s.move m) v
  | .identifier s name     => .identifier (s.move m) name
  | .this s                => .this (s.move m)
  | .regex s pattern flags => .regex (s.move m) pattern flags
  | .array s items         => .array (s.move m) (moveElements m items)
  | .object s items        => .object (s.move m) (moveProperties m items)
  | .function s name ps xs => .function (s.move m) name ps (moveBody m xs)
  | .unary s op e          => .unary (s.move m) op (e.move m)
  | .update s op first e   => .update (s.move m) op first (e.move m)
  | .binary s op x y       => .binary (s.move m) op (x.move m) (y.move m)
  | .assign s op x y       => .assign (s.move m) op (x.move m) (y.move m)
  | .conditional s x y z   => .conditional (s.move m) (x.move m) (y.move m) (z.move m)
  | .call s e args         => .call (s.move m) (e.move m) (moveItems m args)
  | .new s e args          => .new (s.move m) (e.move m) (moveItems m args)
  | .field s e name        => .field (s.move m) (e.move m) name
  | .index s x y           => .index (s.move m) (x.move m) (y.move m)
  | .sequence s items      => .sequence (s.move m) (moveItems m items)
  | .group s e             => .group (s.move m) (e.move m)

def moveItems (m : Move) : List Expr → List Expr
  | []      => []
  | e :: es => e.move m :: moveItems m es

def moveElements (m : Move) : List (Option Expr) → List (Option Expr)
  | []           => []
  | none :: es   => none :: moveElements m es
  | some e :: es => some (e.move m) :: moveElements m es

def Property.move (m : Move) : Property → Property
  | .pair s key e     => .pair (s.move m) (key.move m) (e.move m)
  | .shorthand s name => .shorthand (s.move m) name

def moveProperties (m : Move) : List Property → List Property
  | []      => []
  | p :: ps => p.move m :: moveProperties m ps

def PropertyKey.move (m : Move) : PropertyKey → PropertyKey
  | .name name  => .name name
  | .text value => .text value
  | .number x   => .number x
  | .computed e => .computed (e.move m)

def Stmt.move (m : Move) : Stmt → Stmt
  | .empty s                => .empty (s.move m)
  | .expression s e         => .expression (s.move m) (e.move m)
  | .block s body           => .block (s.move m) (moveBody m body)
  | .labeled s label body   => .labeled (s.move m) label (body.move m)
  | .declare s kind items   => .declare (s.move m) kind (moveDeclarators m items)
  | .function s name ps xs  => .function (s.move m) name ps (moveBody m xs)
  | .choose s e yes no      => .choose (s.move m) (e.move m) (yes.move m) (moveBranch m no)
  | .whileLoop s e body     => .whileLoop (s.move m) (e.move m) (body.move m)
  | .doLoop s body e        => .doLoop (s.move m) (body.move m) (e.move m)
  | .forLoop s init test step body =>
      .forLoop (s.move m) (moveBranch m init) (moveValue m test) (moveValue m step) (body.move m)
  | .returns s value        => .returns (s.move m) (moveValue m value)
  | .breaks s label         => .breaks (s.move m) label
  | .continues s label      => .continues (s.move m) label
  | .throws s e             => .throws (s.move m) (e.move m)

def moveBody (m : Move) : List Stmt → List Stmt
  | []      => []
  | x :: xs => x.move m :: moveBody m xs

def moveBranch (m : Move) : Option Stmt → Option Stmt
  | none   => none
  | some x => some (x.move m)

def moveValue (m : Move) : Option Expr → Option Expr
  | none   => none
  | some e => some (e.move m)

def Declarator.move (m : Move) : Declarator → Declarator
  | .mk name init => .mk name (moveValue m init)

def moveDeclarators (m : Move) : List Declarator → List Declarator
  | []      => []
  | d :: ds => d.move m :: moveDeclarators m ds

end

theorem Span.move_through (m : Move) (s t : Span) : (s.through t).move m = (s.move m).through (t.move m) := rfl

@[simp] theorem Span.move_stay (s : Span) : s.move .stay = s := rfl

/-! ## Nothing moves -/

mutual

@[simp] theorem Expr.move_stay : ∀ e : Expr, e.move .stay = e
  | .literal _ _ | .identifier _ _ | .this _ | .regex _ _ _ => rfl
  | .array _ items         => by simp [Expr.move, moveElements_stay items]
  | .object _ items        => by simp [Expr.move, moveProperties_stay items]
  | .function _ _ _ body   => by simp [Expr.move, moveBody_stay body]
  | .unary _ _ e           => by simp [Expr.move, e.move_stay]
  | .update _ _ _ e        => by simp [Expr.move, e.move_stay]
  | .binary _ _ x y        => by simp [Expr.move, x.move_stay, y.move_stay]
  | .assign _ _ x y        => by simp [Expr.move, x.move_stay, y.move_stay]
  | .conditional _ x y z   => by simp [Expr.move, x.move_stay, y.move_stay, z.move_stay]
  | .call _ e args         => by simp [Expr.move, e.move_stay, moveItems_stay args]
  | .new _ e args          => by simp [Expr.move, e.move_stay, moveItems_stay args]
  | .field _ e _           => by simp [Expr.move, e.move_stay]
  | .index _ x y           => by simp [Expr.move, x.move_stay, y.move_stay]
  | .sequence _ items      => by simp [Expr.move, moveItems_stay items]
  | .group _ e             => by simp [Expr.move, e.move_stay]

theorem moveItems_stay : ∀ es : List Expr, moveItems .stay es = es
  | []      => rfl
  | e :: es => by simp [moveItems, e.move_stay, moveItems_stay es]

theorem moveElements_stay : ∀ es : List (Option Expr), moveElements .stay es = es
  | []           => rfl
  | none :: es   => by simp [moveElements, moveElements_stay es]
  | some e :: es => by simp [moveElements, e.move_stay, moveElements_stay es]

theorem Property.move_stay : ∀ p : Property, p.move .stay = p
  | .pair _ key e   => by simp [Property.move, key.move_stay, e.move_stay]
  | .shorthand _ _  => rfl

theorem moveProperties_stay : ∀ ps : List Property, moveProperties .stay ps = ps
  | []      => rfl
  | p :: ps => by simp [moveProperties, p.move_stay, moveProperties_stay ps]

theorem PropertyKey.move_stay : ∀ key : PropertyKey, key.move .stay = key
  | .name _ | .text _ | .number _ => rfl
  | .computed e => by simp [PropertyKey.move, e.move_stay]

theorem Stmt.move_stay : ∀ x : Stmt, x.move .stay = x
  | .empty _ | .breaks _ _ | .continues _ _ => rfl
  | .expression _ e        => by simp [Stmt.move, e.move_stay]
  | .block _ body          => by simp [Stmt.move, moveBody_stay body]
  | .labeled _ _ body      => by simp [Stmt.move, body.move_stay]
  | .declare _ _ items     => by simp [Stmt.move, moveDeclarators_stay items]
  | .function _ _ _ body   => by simp [Stmt.move, moveBody_stay body]
  | .choose _ e yes no     => by simp [Stmt.move, e.move_stay, yes.move_stay, moveBranch_stay no]
  | .whileLoop _ e body    => by simp [Stmt.move, e.move_stay, body.move_stay]
  | .doLoop _ body e       => by simp [Stmt.move, e.move_stay, body.move_stay]
  | .forLoop _ init test step body => by
      simp [Stmt.move, moveBranch_stay init, moveValue_stay test, moveValue_stay step, body.move_stay]
  | .returns _ value       => by simp [Stmt.move, moveValue_stay value]
  | .throws _ e            => by simp [Stmt.move, e.move_stay]

theorem moveBody_stay : ∀ xs : List Stmt, moveBody .stay xs = xs
  | []      => rfl
  | x :: xs => by simp [moveBody, x.move_stay, moveBody_stay xs]

theorem moveBranch_stay : ∀ x : Option Stmt, moveBranch .stay x = x
  | none   => rfl
  | some x => by simp [moveBranch, x.move_stay]

theorem moveValue_stay : ∀ e : Option Expr, moveValue .stay e = e
  | none   => rfl
  | some e => by simp [moveValue, e.move_stay]

theorem Declarator.move_stay : ∀ d : Declarator, d.move .stay = d
  | .mk _ init => by simp [Declarator.move, moveValue_stay init]

theorem moveDeclarators_stay : ∀ ds : List Declarator, moveDeclarators .stay ds = ds
  | []      => rfl
  | d :: ds => by simp [moveDeclarators, d.move_stay, moveDeclarators_stay ds]

end

/-! ## One move after another -/

/-- The first move, and then the second. -/
def Move.then (m n : Move) : Move := ⟨n.start ∘ m.start, n.stop ∘ m.stop⟩

@[simp] theorem Span.move_move (m n : Move) (s : Span) : (s.move m).move n = s.move (m.then n) := rfl

section

variable {m n : Move}

mutual

theorem Expr.move_move : ∀ e : Expr, (e.move m).move n = e.move (m.then n)
  | .literal _ _ | .identifier _ _ | .this _ | .regex _ _ _ => rfl
  | .array _ items         => by simp [Expr.move, moveElements_move items]
  | .object _ items        => by simp [Expr.move, moveProperties_move items]
  | .function _ _ _ body   => by simp [Expr.move, moveBody_move body]
  | .unary _ _ e           => by simp [Expr.move, e.move_move]
  | .update _ _ _ e        => by simp [Expr.move, e.move_move]
  | .binary _ _ x y        => by simp [Expr.move, x.move_move, y.move_move]
  | .assign _ _ x y        => by simp [Expr.move, x.move_move, y.move_move]
  | .conditional _ x y z   => by simp [Expr.move, x.move_move, y.move_move, z.move_move]
  | .call _ e args         => by simp [Expr.move, e.move_move, moveItems_move args]
  | .new _ e args          => by simp [Expr.move, e.move_move, moveItems_move args]
  | .field _ e _           => by simp [Expr.move, e.move_move]
  | .index _ x y           => by simp [Expr.move, x.move_move, y.move_move]
  | .sequence _ items      => by simp [Expr.move, moveItems_move items]
  | .group _ e             => by simp [Expr.move, e.move_move]

theorem moveItems_move : ∀ es : List Expr, moveItems n (moveItems m es) = moveItems (m.then n) es
  | []      => rfl
  | e :: es => by simp [moveItems, e.move_move, moveItems_move es]

theorem moveElements_move : ∀ es : List (Option Expr), moveElements n (moveElements m es) = moveElements (m.then n) es
  | []           => rfl
  | none :: es   => by simp [moveElements, moveElements_move es]
  | some e :: es => by simp [moveElements, e.move_move, moveElements_move es]

theorem Property.move_move : ∀ p : Property, (p.move m).move n = p.move (m.then n)
  | .pair _ key e   => by simp [Property.move, key.move_move, e.move_move]
  | .shorthand _ _  => rfl

theorem moveProperties_move : ∀ ps : List Property, moveProperties n (moveProperties m ps) = moveProperties (m.then n) ps
  | []      => rfl
  | p :: ps => by simp [moveProperties, p.move_move, moveProperties_move ps]

theorem PropertyKey.move_move : ∀ key : PropertyKey, (key.move m).move n = key.move (m.then n)
  | .name _ | .text _ | .number _ => rfl
  | .computed e => by simp [PropertyKey.move, e.move_move]

theorem Stmt.move_move : ∀ x : Stmt, (x.move m).move n = x.move (m.then n)
  | .empty _ | .breaks _ _ | .continues _ _ => rfl
  | .expression _ e        => by simp [Stmt.move, e.move_move]
  | .block _ body          => by simp [Stmt.move, moveBody_move body]
  | .labeled _ _ body      => by simp [Stmt.move, body.move_move]
  | .declare _ _ items     => by simp [Stmt.move, moveDeclarators_move items]
  | .function _ _ _ body   => by simp [Stmt.move, moveBody_move body]
  | .choose _ e yes no     => by simp [Stmt.move, e.move_move, yes.move_move, moveBranch_move no]
  | .whileLoop _ e body    => by simp [Stmt.move, e.move_move, body.move_move]
  | .doLoop _ body e       => by simp [Stmt.move, e.move_move, body.move_move]
  | .forLoop _ init test step body => by
      simp [Stmt.move, moveBranch_move init, moveValue_move test, moveValue_move step, body.move_move]
  | .returns _ value       => by simp [Stmt.move, moveValue_move value]
  | .throws _ e            => by simp [Stmt.move, e.move_move]

theorem moveBody_move : ∀ xs : List Stmt, moveBody n (moveBody m xs) = moveBody (m.then n) xs
  | []      => rfl
  | x :: xs => by simp [moveBody, x.move_move, moveBody_move xs]

theorem moveBranch_move : ∀ x : Option Stmt, moveBranch n (moveBranch m x) = moveBranch (m.then n) x
  | none   => rfl
  | some x => by simp [moveBranch, x.move_move]

theorem moveValue_move : ∀ e : Option Expr, moveValue n (moveValue m e) = moveValue (m.then n) e
  | none   => rfl
  | some e => by simp [moveValue, e.move_move]

theorem Declarator.move_move : ∀ d : Declarator, (d.move m).move n = d.move (m.then n)
  | .mk _ init => by simp [Declarator.move, moveValue_move init]

theorem moveDeclarators_move : ∀ ds : List Declarator,
    moveDeclarators n (moveDeclarators m ds) = moveDeclarators (m.then n) ds
  | []      => rfl
  | d :: ds => by simp [moveDeclarators, d.move_move, moveDeclarators_move ds]

end

end

@[simp] theorem Expr.span_move (m : Move) (e : Expr) : (e.move m).span = e.span.move m := by cases e <;> rfl

@[simp] theorem Stmt.span_move (m : Move) (x : Stmt) : (x.move m).span = x.span.move m := by cases x <;> rfl

/-! ## Lists of trees -/

theorem moveItems_eq_map (m : Move) (es : List Expr) : moveItems m es = es.map (·.move m) := by
  induction es with
  | nil => rfl
  | cons e es ih => rw [moveItems, ih, List.map_cons]

theorem moveElements_eq_map (m : Move) (es : List (Option Expr)) : moveElements m es = es.map (·.map (·.move m)) := by
  induction es with
  | nil => rfl
  | cons e es ih => cases e <;> rw [moveElements, ih, List.map_cons] <;> rfl

theorem moveProperties_eq_map (m : Move) (ps : List Property) : moveProperties m ps = ps.map (·.move m) := by
  induction ps with
  | nil => rfl
  | cons p ps ih => rw [moveProperties, ih, List.map_cons]

theorem moveBody_eq_map (m : Move) (xs : List Stmt) : moveBody m xs = xs.map (·.move m) := by
  induction xs with
  | nil => rfl
  | cons x xs ih => rw [moveBody, ih, List.map_cons]

/-! ## Trees without spans -/

/-- Every place becomes the same. -/
def Move.erase : Move := ⟨fun _ => 0, fun _ => 0⟩

/-- The tree without its spans. -/
def Expr.bare (e : Expr) : Expr := e.move .erase

/-- The tree without its spans. -/
def Stmt.bare (x : Stmt) : Stmt := x.move .erase

/-- The program without its spans. -/
def Program.bare (p : Program) : Program := ⟨p.sourceType, p.body.map Stmt.bare, p.span.move .erase⟩

theorem Span.move_erase (s t : Span) : s.move .erase = t.move .erase := rfl

@[simp] theorem Stmt.bare_move (m : Move) (x : Stmt) : (x.move m).bare = x.bare := x.move_move

end Readback
