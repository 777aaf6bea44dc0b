/-!
# Whole numbers in decimal digits

`digits` writes a whole number and `valueOf` reads one; reading what was written gives the number back
(`valueOf_digits`).  `padded` puts zeros in front up to a width.
-/
namespace Readback.Text

def isDigit (c : Char) : Bool := '0' ≤ c && c ≤ '9'

/-- The character of a digit below ten. -/
def digitChar (d : Nat) : Char := Char.ofNat (48 + d)

/-- The character of a digit below sixteen. -/
def hexDigit : Nat → Char
  | 0 => '0' | 1 => '1' | 2 => '2' | 3 => '3' | 4 => '4' | 5 => '5' | 6 => '6' | 7 => '7'
  | 8 => '8' | 9 => '9' | 10 => 'a' | 11 => 'b' | 12 => 'c' | 13 => 'd' | 14 => 'e' | _ => 'f'

def digitValue (c : Char) : Nat := c.toNat - 48

def digits (n : Nat) : List Char := if n < 10 then [digitChar n] else digits (n / 10) ++ [digitChar (n % 10)]

/-- How many digits a whole number has; zero has one. -/
def digitCount (n : Nat) : Nat := if n < 10 then 1 else digitCount (n / 10) + 1

/-- The whole number that digits spell. -/
def valueOf (cs : List Char) : Nat := cs.foldl (fun n c => n * 10 + digitValue c) 0

def zeros (n : Nat) : List Char := List.replicate n '0'

/-- At least `width` digits. -/
def padded (width n : Nat) : List Char := zeros (width - (digits n).length) ++ digits n

def decimal (n : Nat) : String := String.ofList (digits n)

theorem digitValue_digitChar {d : Nat} (h : d < 10) : digitValue (digitChar d) = d := by
  have : ∀ d < 10, digitValue (digitChar d) = d := by decide
  exact this d h

theorem isDigit_digitChar {d : Nat} (h : d < 10) : isDigit (digitChar d) = true := by
  have : ∀ d < 10, isDigit (digitChar d) = true := by decide
  exact this d h

theorem length_digits (n : Nat) : (digits n).length = digitCount n := by
  fun_induction digits n with
  | case1 n h => simp [digitCount, h]
  | case2 n h ih => rw [digitCount, if_neg h]; simp [ih]

theorem isDigit_of_mem_digits {n : Nat} {c : Char} (h : c ∈ digits n) : isDigit c = true := by
  fun_induction digits n with
  | case1 n hn => simp only [List.mem_singleton] at h; exact h ▸ isDigit_digitChar hn
  | case2 n hn ih =>
    rcases List.mem_append.1 h with h | h
    · exact ih h
    · simp only [List.mem_singleton] at h; exact h ▸ isDigit_digitChar (Nat.mod_lt _ (by decide))

theorem valueOf_append_singleton (cs : List Char) (c : Char) :
    valueOf (cs ++ [c]) = valueOf cs * 10 + digitValue c := by simp [valueOf]

/-- Digits read back. -/
theorem valueOf_digits (n : Nat) : valueOf (digits n) = n := by
  fun_induction digits n with
  | case1 n h => simp [valueOf, digitValue_digitChar h]
  | case2 n h ih =>
    rw [valueOf_append_singleton, ih, digitValue_digitChar (Nat.mod_lt _ (by decide))]
    omega

end Readback.Text
