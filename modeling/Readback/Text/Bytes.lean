/-!
# Places in a text, counted in UTF-8 bytes

Texts are read as lists of characters; places in them are byte offsets.  `byteLength` is the size of a text, and
`dropBytes` and `takeBytes` cut at an offset.  Both answer `none` when the offset falls inside a character or past the
end.
-/
namespace Readback.Text

def byteLength : List Char → Nat
  | []      => 0
  | c :: cs => c.utf8Size + byteLength cs

/-- What is left of a text from a byte offset on. -/
def dropBytes : Nat → List Char → Option (List Char)
  | 0, cs          => some cs
  | _ + 1, []      => none
  | n + 1, c :: cs => if c.utf8Size ≤ n + 1 then dropBytes (n + 1 - c.utf8Size) cs else none

/-- What stands in a text before a byte offset. -/
def takeBytes : Nat → List Char → Option (List Char)
  | 0, _           => some []
  | _ + 1, []      => none
  | n + 1, c :: cs => if c.utf8Size ≤ n + 1 then (takeBytes (n + 1 - c.utf8Size) cs).map (c :: ·) else none

/-- The text between two byte offsets. -/
def slice (start stop : Nat) (cs : List Char) : Option (List Char) :=
  if start ≤ stop then (dropBytes start cs).bind (takeBytes (stop - start)) else none

@[simp] theorem byteLength_nil : byteLength [] = 0 := rfl

@[simp] theorem byteLength_cons (c : Char) (cs : List Char) :
    byteLength (c :: cs) = c.utf8Size + byteLength cs := rfl

@[simp] theorem byteLength_append (a b : List Char) : byteLength (a ++ b) = byteLength a + byteLength b := by
  induction a with
  | nil => simp
  | cons c a ih => simp [ih, Nat.add_assoc]

@[simp] theorem dropBytes_zero (cs : List Char) : dropBytes 0 cs = some cs := by unfold dropBytes; rfl

@[simp] theorem takeBytes_zero (cs : List Char) : takeBytes 0 cs = some [] := by unfold takeBytes; rfl

theorem dropBytes_byteLength_append (a b : List Char) : dropBytes (byteLength a) (a ++ b) = some b := by
  induction a with
  | nil => simp
  | cons c a ih =>
    have hc : 0 < c.utf8Size := c.utf8Size_pos
    obtain ⟨n, hn⟩ : ∃ n, c.utf8Size + byteLength a = n + 1 := ⟨c.utf8Size + byteLength a - 1, by omega⟩
    rw [byteLength_cons, hn, List.cons_append, dropBytes, if_pos (by omega)]
    rw [show n + 1 - c.utf8Size = byteLength a by omega, ih]

theorem takeBytes_byteLength_append (a b : List Char) : takeBytes (byteLength a) (a ++ b) = some a := by
  induction a with
  | nil => simp
  | cons c a ih =>
    have hc : 0 < c.utf8Size := c.utf8Size_pos
    obtain ⟨n, hn⟩ : ∃ n, c.utf8Size + byteLength a = n + 1 := ⟨c.utf8Size + byteLength a - 1, by omega⟩
    rw [byteLength_cons, hn, List.cons_append, takeBytes, if_pos (by omega)]
    rw [show n + 1 - c.utf8Size = byteLength a by omega, ih]; rfl

/-- Whether an offset falls between two characters (or at either end). -/
def isBoundary (n : Nat) (cs : List Char) : Bool := (dropBytes n cs).isSome

end Readback.Text
