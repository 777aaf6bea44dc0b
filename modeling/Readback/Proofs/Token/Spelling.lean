import Mathlib.Data.List.Chain
import Mathlib.Data.List.Forall2
import Mathlib.Data.Nat.Digits.Defs
import Mathlib.Tactic.Ring
import Readback.Proofs.Token.Literal
import Readback.Text.Quoted
/-!
# Spellings of characters

Between the quotes of a string a character may stand for itself, or be spelled behind a backslash: by a letter, by its code in
octal or hexadecimal digits, or by itself if nothing else starts with it.  A line that goes on is spelled too, and is no
character.  Spellings that stand side by side are read one by one (`stringBody_spellings`), but for an octal escape that may
have one digit more: it takes a digit that stands behind it.
-/
namespace Readback.Token

open Text (hexDigit)

/-! ## What a spelling is -/

/-- The character is the digit of a value, in either case. -/
def IsDigitOf (base value : Nat) (c : Char) : Prop := value < base ∧ (c = hexDigit value ∨ c = (hexDigit value).toUpper)

/-- The characters are digits that spell a number. -/
def DigitsOf (base : Nat) (ds : List Char) (n : Nat) : Prop :=
  ∃ vs : List Nat, List.Forall₂ (IsDigitOf base) vs ds ∧ Nat.ofDigits base vs.reverse = n

/-- The digits are those of a legacy octal escape: up to three, and at most `377`. -/
structure OctalEscape (ds : List Char) (c : Char) : Prop where
  some   : ds ≠ []
  few    : ds.length ≤ 3
  digits : DigitsOf 8 ds c.toNat
  small  : c.toNat ≤ 255

/-- The letters that stand for a character when a backslash is in front of them. -/
def letters : List (Char × Char) :=
  [('n', '\n'), ('r', '\r'), ('t', '\t'), ('b', '\x08'), ('f', '\x0c'), ('v', '\x0b')]

/-- What a line may end with. -/
def lineEnds : List (List Char) := [['\n'], ['\r'], ['\r', '\n'], ['\u2028'], ['\u2029']]

/-- The characters that start an escape or end a line. -/
def leaders : List Char :=
  ['n', 'r', 't', 'b', 'f', 'v', '0', '1', '2', '3', '4', '5', '6', '7', 'x', 'u', '\n', '\r', '\u2028', '\u2029']

/-- **The text spells a character between two quotes**, or nothing: a line that goes on. -/
inductive Spelling (quote : Char) : List Char → Option Char → Prop
  | plain {c : Char} (h : c ≠ quote ∧ c ≠ '\\' ∧ c ≠ '\n' ∧ c ≠ '\r') : Spelling quote [c] (some c)
  | letter {d c : Char} (h : (d, c) ∈ letters) : Spelling quote ['\\', d] (some c)
  | octal {ds : List Char} {c : Char} (h : OctalEscape ds c) : Spelling quote ('\\' :: ds) (some c)
  | byte {ds : List Char} {c : Char} (hl : ds.length = 2) (h : DigitsOf 16 ds c.toNat) :
      Spelling quote ('\\' :: 'x' :: ds) (some c)
  | unit {ds : List Char} {c : Char} (hl : ds.length = 4) (h : DigitsOf 16 ds c.toNat) :
      Spelling quote ('\\' :: 'u' :: ds) (some c)
  | code {ds : List Char} {c : Char} (hn : ds ≠ []) (h : DigitsOf 16 ds c.toNat) :
      Spelling quote ('\\' :: 'u' :: '\x7b' :: (ds ++ ['\x7d'])) (some c)
  | itself {c : Char} (h : c ∉ leaders) : Spelling quote ['\\', c] (some c)
  | line {cs : List Char} (h : cs ∈ lineEnds) : Spelling quote ('\\' :: cs) none

/-- The text is an octal escape that goes on with the first character behind it. -/
def Absorbs (t behind : List Char) : Prop :=
  ∃ ds d c, t = '\\' :: ds ∧ behind.head? = some d ∧ OctalEscape (ds ++ [d]) c

variable {quote c d : Char} {base n v : Nat} {vs : List Nat} {t y ds : List Char}

/-! ## Digits -/

theorem hexValue?_of_isDigitOf (h : IsDigitOf 16 v c) : hexValue? c = some v := by
  have hall : ∀ v < 16, hexValue? (hexDigit v) = some v ∧ hexValue? (hexDigit v).toUpper = some v := by decide
  obtain ⟨hv, rfl | rfl⟩ := h
  · exact (hall v hv).1
  · exact (hall v hv).2

theorem octalValue?_of_isDigitOf (h : IsDigitOf 8 v c) : octalValue? c = some v := by
  have hall : ∀ v < 8, octalValue? (hexDigit v) = some v ∧ octalValue? (hexDigit v).toUpper = some v := by decide
  obtain ⟨hv, rfl | rfl⟩ := h
  · exact (hall v hv).1
  · exact (hall v hv).2

theorem isDigitOf_of_isOctal (h : isOctal c = true) : ∃ v, IsDigitOf 8 v c := by
  have hall : ∀ v < 8, Char.ofNat (48 + v) = hexDigit v := by decide
  unfold isOctal octalValue? at h
  split at h
  · rename_i hc
    have h₁ : 48 ≤ c.toNat := hc.1
    have h₂ : c.toNat ≤ 55 := hc.2
    refine ⟨c.toNat - 48, by omega, .inl ?_⟩
    rw [← hall _ (by omega), show 48 + (c.toNat - 48) = c.toNat by omega, Char.ofNat_toNat]
  · cases h

/-- The number that digits spell is worked out from the left. -/
theorem foldl_digits {value? : Char → Option Nat} (hall : ∀ {v d}, IsDigitOf base v d → value? d = some v)
    (h : List.Forall₂ (IsDigitOf base) vs ds) (n : Nat) :
    ds.foldl (fun n c => n * base + (value? c).getD 0) n = n * base ^ ds.length + Nat.ofDigits base vs.reverse := by
  induction h generalizing n with
  | nil => simp
  | @cons v d vs ds hd hds ih =>
    rw [List.foldl_cons, ih, hall hd, List.reverse_cons, Nat.ofDigits_append, Nat.ofDigits_singleton, List.length_reverse,
      hds.length_eq, List.length_cons, Option.getD_some]
    ring

/-- **Digits are read as the number that they spell.** -/
theorem DigitsOf.code {value? : Char → Option Nat} (hall : ∀ {v d}, IsDigitOf base v d → value? d = some v)
    (h : DigitsOf base ds n) : codeOf base value? ds = n ∧ ∀ d ∈ ds, (value? d).isSome = true := by
  obtain ⟨vs, hvs, rfl⟩ := h
  refine ⟨by rw [codeOf, foldl_digits hall hvs, Nat.zero_mul, Nat.zero_add], ?_⟩
  induction hvs with
  | nil => nofun
  | cons hd _ ih => exact List.forall_mem_cons.2 ⟨by rw [hall hd]; rfl, ih⟩

/-- The code of a character is read as the character. -/
theorem coded_toNat (size : Nat) (c : Char) : coded size c.toNat = ⟨size, .ok (some c)⟩ := by
  have hc : charOf? c.toNat = some c := by
    have hof := Char.ofNat_toNat c
    unfold Char.ofNat at hof
    unfold charOf?
    rw [dif_pos (show c.toNat.isValidChar from c.valid)] at hof ⊢
    rw [hof]
  rw [coded, hc]

/-! ## Escapes -/

/-- **Digits in front of anything are all the digits that are taken**, when their count is fixed. -/
theorem hexEscape_digits (h : DigitsOf 16 ds c.toNat) (y : List Char) :
    hexEscape ds.length (ds ++ y) = ⟨ds.length, .ok (some c)⟩ := by
  obtain ⟨hcode, hall⟩ := h.code hexValue?_of_isDigitOf
  have ht : ((ds ++ y).take ds.length).takeWhile isHex = ds := by
    rw [List.take_left, List.takeWhile_eq_self_iff]
    exact hall
  unfold hexEscape
  dsimp only
  rw [ht, if_pos rfl, hcode, coded_toNat]

/-- Between braces the digits end where the braces do. -/
theorem unicodeEscape_digits (hn : ds ≠ []) (h : DigitsOf 16 ds c.toNat) (y : List Char) :
    unicodeEscape ('\x7b' :: (ds ++ '\x7d' :: y)) = ⟨ds.length + 2, .ok (some c)⟩ := by
  obtain ⟨hcode, hall⟩ := h.code hexValue?_of_isDigitOf
  have ht : (ds ++ '\x7d' :: y).takeWhile isHex = ds := by
    rw [List.takeWhile_append_of_pos (p := isHex) hall, List.takeWhile_cons_of_neg (by decide), List.append_nil]
  rw [unicodeEscape.eq_1]
  rw [ht, if_pos ⟨hn, by rw [List.drop_left]; rfl⟩, hcode, coded_toNat]

/-- What is taken of a text, of at most so many characters, is what it starts with. -/
theorem takeWhile_take_append {p : Char → Bool} {k : Nat} (hall : ∀ d ∈ ds, p d = true) (hk : ds.length ≤ k)
    (hy : ds.length < k → ∀ d, y.head? = some d → p d = false) : ((ds ++ y).take k).takeWhile p = ds := by
  rw [List.take_append, List.take_of_length_le hk, List.takeWhile_append_of_pos hall, List.append_right_eq_self,
    takeWhile_eq_nil]
  intro d hd
  rcases Nat.eq_or_lt_of_le hk with hk | hk
  · rw [hk, Nat.sub_self] at hd
    cases hd
  · obtain ⟨n, hn⟩ : ∃ n, k - ds.length = n + 1 := ⟨k - ds.length - 1, by omega⟩
    refine hy hk d ?_
    rw [hn] at hd
    cases y with
    | nil => cases hd
    | cons e y => exact hd

theorem octalEscape_of_digits (h : List.Forall₂ (IsDigitOf 8) vs ds) (hn : ds ≠ []) (hl : ds.length ≤ 3)
    (hv : Nat.ofDigits 8 vs.reverse ≤ 255) : OctalEscape ds (Char.ofNat (Nat.ofDigits 8 vs.reverse)) := by
  have hc : (Char.ofNat (Nat.ofDigits 8 vs.reverse)).toNat = Nat.ofDigits 8 vs.reverse := by
    unfold Char.ofNat
    rw [dif_pos (.inl (by omega))]
    rfl
  exact ⟨hn, hl, ⟨vs, h, hc.symm⟩, by rw [hc]; exact hv⟩

theorem le_three_of_isDigitOf (h : IsDigitOf 8 v c) : c ≤ '3' ↔ v ≤ 3 := by
  have hall : ∀ v < 8, (hexDigit v ≤ '3' ↔ v ≤ 3) ∧ ((hexDigit v).toUpper ≤ '3' ↔ v ≤ 3) := by decide
  obtain ⟨hv, rfl | rfl⟩ := h
  · exact (hall v hv).1
  · exact (hall v hv).2

/-- A digit behind an octal escape that would leave it one is absorbed. -/
theorem not_isOctal_of_not_absorbs (h : List.Forall₂ (IsDigitOf 8) vs ds) (hl : ds.length < 3)
    (hv : ∀ w < 8, Nat.ofDigits 8 (vs ++ [w]).reverse ≤ 255) (hy : ¬ Absorbs ('\\' :: ds) y) :
    ∀ d, y.head? = some d → isOctal d = false := by
  intro d hd
  rw [Bool.eq_false_iff]
  intro ho
  obtain ⟨w, hw⟩ := isDigitOf_of_isOctal ho
  refine hy ⟨ds, d, _, rfl, hd, octalEscape_of_digits (List.rel_append h (.cons hw .nil)) (by simp) ?_ (hv w hw.1)⟩
  rw [List.length_append, List.length_singleton]
  omega

/-- **An octal escape takes its own digits**, when the character behind it is none that it goes on with. -/
theorem octalDigits_escape (h : OctalEscape ds c) (hy : ¬ Absorbs ('\\' :: ds) y) : octalDigits (ds ++ y) = ds := by
  obtain ⟨hn, hl, ⟨vs, hvs, hv⟩, hs⟩ := h
  have hall := (DigitsOf.code octalValue?_of_isDigitOf ⟨vs, hvs, rfl⟩).2
  have hlt : ∀ v ∈ vs, v < 8 := ((List.forall₂_and_left vs ds).1 hvs).1
  have hmore := not_isOctal_of_not_absorbs (y := y) hvs
  rw [← hv] at hs
  -- The digits are one, two or three, and the first one says whether there may be three.
  rcases hvs with _ | @⟨a, d, vs, ds, ha, _ | @⟨b, e, vs, ds, hb, _ | @⟨o, f, vs, ds, hf, _ | _⟩⟩⟩
  · exact absurd rfl hn
  case cons.cons.cons.cons =>
    simp only [List.length_cons] at hl
    omega
  all_goals
    have hd := (List.forall_mem_cons.1 hall).2
    simp only [List.forall_mem_cons, List.not_mem_nil, false_implies, implies_true, and_true] at hlt
    simp only [List.reverse_cons, List.reverse_nil, List.nil_append, List.cons_append, Nat.ofDigits_cons, Nat.ofDigits_nil,
      List.length_cons, List.length_nil] at hs hmore
    rw [List.cons_append, octalDigits]
    simp only [le_three_of_isDigitOf ha]
    refine congrArg (d :: ·) (takeWhile_take_append hd ?_ fun hk => hmore ?_ (fun w hw => ?_) hy)
  all_goals
    simp only [List.length_cons, List.length_nil] at *
    split at * <;> omega

theorem escape_letter (h : (d, c) ∈ letters) (y : List Char) : escape (d :: y) = ⟨1, .ok (some c)⟩ := by
  simp only [letters, List.mem_cons, List.not_mem_nil, or_false, Prod.mk.injEq] at h
  rcases h with ⟨rfl, rfl⟩ | ⟨rfl, rfl⟩ | ⟨rfl, rfl⟩ | ⟨rfl, rfl⟩ | ⟨rfl, rfl⟩ | ⟨rfl, rfl⟩ <;> rfl

theorem escape_octal (h : OctalEscape ds c) (hy : ¬ Absorbs ('\\' :: ds) y) :
    escape (ds ++ y) = ⟨ds.length, .ok (some c)⟩ := by
  have htake := octalDigits_escape h hy
  obtain ⟨hcode, hall⟩ := h.digits.code octalValue?_of_isDigitOf
  obtain ⟨d, ds, rfl⟩ := List.exists_cons_of_ne_nil h.some
  have hd : isOctal d = true := hall d List.mem_cons_self
  have hletters : ∀ p ∈ letters, isOctal p.1 = false := by decide
  have hne : ∀ p ∈ letters, d ≠ p.1 := by
    rintro p hp rfl
    rw [hletters p hp] at hd
    cases hd
  simp only [letters, List.forall_mem_cons] at hne
  obtain ⟨h₁, h₂, h₃, h₄, h₅, h₆, -⟩ := hne
  rw [List.cons_append] at htake ⊢
  rw [escape.eq_2, if_neg h₁, if_neg h₂, if_neg h₃, if_neg h₄, if_neg h₅, if_neg h₆, if_pos hd, htake]
  dsimp only
  rw [hcode, coded_toNat]

theorem escape_byte (hl : ds.length = 2) (h : DigitsOf 16 ds c.toNat) (y : List Char) :
    escape ('x' :: ds ++ y) = ⟨('x' :: ds).length, .ok (some c)⟩ := by
  show (hexEscape 2 (ds ++ y)).after 1 = _
  rw [← hl, hexEscape_digits h]
  exact Scan.eq_of (Nat.add_comm 1 _) rfl

theorem escape_unit (hl : ds.length = 4) (h : DigitsOf 16 ds c.toNat) (y : List Char) :
    escape ('u' :: ds ++ y) = ⟨('u' :: ds).length, .ok (some c)⟩ := by
  obtain ⟨-, hall⟩ := h.code hexValue?_of_isDigitOf
  have hplain : unicodeEscape (ds ++ y) = hexEscape 4 (ds ++ y) := by
    unfold unicodeEscape
    split
    · rename_i cs hcs
      cases ds with
      | nil => cases hl
      | cons d ds =>
        have hd := hall d List.mem_cons_self
        rw [(List.cons.inj hcs).1] at hd
        cases hd
    · rfl
  show (unicodeEscape (ds ++ y)).after 1 = _
  rw [hplain, ← hl, hexEscape_digits h]
  exact Scan.eq_of (Nat.add_comm 1 _) rfl

theorem escape_code (hn : ds ≠ []) (h : DigitsOf 16 ds c.toNat) (y : List Char) :
    escape ('u' :: '\x7b' :: (ds ++ ['\x7d']) ++ y) = ⟨('u' :: '\x7b' :: (ds ++ ['\x7d'])).length, .ok (some c)⟩ := by
  have hd := unicodeEscape_digits hn h y
  show (unicodeEscape ('\x7b' :: ((ds ++ ['\x7d']) ++ y))).after 1 = _
  rw [List.append_assoc, List.singleton_append, hd]
  refine Scan.eq_of ?_ rfl
  simp only [Scan.after, List.length_cons, List.length_append, List.length_nil]
  omega

theorem escape_itself (h : c ∉ leaders) (y : List Char) : escape (c :: y) = ⟨1, .ok (some c)⟩ := by
  have ho : isOctal c = false := by
    rw [Bool.eq_false_iff]
    intro ho
    obtain ⟨v, hv⟩ := isDigitOf_of_isOctal ho
    have hall : ∀ v < 8, hexDigit v ∈ leaders ∧ (hexDigit v).toUpper ∈ leaders := by decide
    rcases hv.2 with rfl | rfl
    · exact h (hall v hv.1).1
    · exact h (hall v hv.1).2
  simp only [leaders, List.mem_cons, List.not_mem_nil, or_false, not_or] at h
  simp [escape, h, ho]

theorem escape_line {cs : List Char} (h : cs ∈ lineEnds) (hy : y.head? ≠ some '\n') :
    escape (cs ++ y) = ⟨cs.length, .ok none⟩ := by
  simp only [lineEnds, List.mem_cons, List.not_mem_nil, or_false] at h
  rcases h with rfl | rfl | rfl | rfl | rfl
  · rfl
  · show (⟨if y.head? = some '\n' then 2 else 1, .ok none⟩ : Scan (Option Char)) = _
    rw [if_neg hy]
    rfl
  all_goals rfl

/-! ## Bodies -/

/-- What stands behind a backslash is read as an escape. -/
theorem stringBody_escape {s : List Char} {c : Option Char} (hq : quote ≠ '\\') (h : escape (s ++ y) = ⟨s.length, .ok c⟩) :
    stringBody quote ('\\' :: s ++ y) =
      ⟨(stringBody quote y).size + ('\\' :: s).length, (stringBody quote y).outcome.map (c.toList ++ ·)⟩ := by
  rw [List.cons_append, stringBody, if_neg hq.symm, if_neg (by decide), if_pos rfl]
  dsimp only
  rw [h]
  dsimp only
  rw [List.drop_left]
  rfl

/-- **A spelling is read as what it spells**, when what is behind it is no part of it. -/
theorem Spelling.read {c : Option Char} (h : Spelling quote t c) (hq : quote ≠ '\\') (ha : ¬ Absorbs t y)
    (hy : y.head? ≠ some '\n') : stringBody quote (t ++ y) =
      ⟨(stringBody quote y).size + t.length, (stringBody quote y).outcome.map (c.toList ++ ·)⟩ := by
  cases h with
  | plain h =>
    rw [List.singleton_append, stringBody, if_neg h.1, if_neg (by simp [h.2.2]), if_neg h.2.1]
    rfl
  | letter h => exact stringBody_escape hq (escape_letter h y)
  | octal h => exact stringBody_escape hq (escape_octal h ha)
  | byte hl h => exact stringBody_escape hq (escape_byte hl h y)
  | unit hl h => exact stringBody_escape hq (escape_unit hl h y)
  | code hn h => exact stringBody_escape hq (escape_code hn h y)
  | itself h => exact stringBody_escape hq (escape_itself h y)
  | line h => exact stringBody_escape hq (escape_line h hy)

/-! ## Whole strings -/

theorem isOctal_of_octalEscape {c : Char} (h : OctalEscape ds c) : ∀ d ∈ ds, isOctal d = true :=
  (h.digits.code octalValue?_of_isDigitOf).2

/-- What is behind an escape is absorbed only if all digits, and the character behind them, are octal. -/
theorem not_absorbs (h : t.head? = some '\\' → t.tail.all isOctal = true → y.head?.any isOctal = false) : ¬ Absorbs t y := by
  rintro ⟨ds, d, c, rfl, hd, ho⟩
  have hall := isOctal_of_octalEscape ho
  have hy := h rfl (List.all_eq_true.2 fun e he => hall e (List.mem_append_left _ he))
  rw [hd, Option.any_some, hall d (by simp)] at hy
  cases hy

theorem Spelling.ne_nil {c : Option Char} (h : Spelling quote t c) : ∃ d s, t = d :: s ∧ d ≠ '\n' := by
  cases h with
  | plain h => exact ⟨_, _, rfl, h.2.2.1⟩
  | _ => exact ⟨'\\', _, rfl, by decide⟩

/-- **Spellings are read one by one**, up to the quote behind them. -/
theorem stringBody_spellings {ps : List (List Char × Option Char)} (hq : quote = '"' ∨ quote = '\'')
    (hs : ∀ p ∈ ps, Spelling quote p.1 p.2) (ha : ps.IsChain fun p q => ¬ Absorbs p.1 q.1) (x : List Char) :
    stringBody quote (ps.flatMap Prod.fst ++ quote :: x) =
      ⟨(ps.flatMap Prod.fst).length + 1, .ok (ps.filterMap Prod.snd)⟩ := by
  have hquote : quote ≠ '\\' ∧ quote ≠ '\n' ∧ isOctal quote = false := by
    rcases hq with rfl | rfl <;> decide
  obtain ⟨hback, hline, hoctal⟩ := hquote
  induction ps with
  | nil => rw [List.flatMap_nil, List.nil_append, stringBody, if_pos rfl]; rfl
  | cons p ps ih =>
    obtain ⟨hp, hps⟩ := List.forall_mem_cons.1 hs
    have hapart : ¬ Absorbs p.1 (ps.flatMap Prod.fst ++ quote :: x) := by
      cases ps with
      | nil => exact not_absorbs fun _ _ => hoctal
      | cons q ps =>
        obtain ⟨e, s, hq, -⟩ := (hps q List.mem_cons_self).ne_nil
        rintro ⟨ds, d, c, ht, hd, ho⟩
        refine (List.isChain_cons_cons.1 ha).1 ⟨ds, d, c, ht, ?_, ho⟩
        rw [List.flatMap_cons, hq] at hd
        rw [hq]
        exact hd
    have hnewline : (ps.flatMap Prod.fst ++ quote :: x).head? ≠ some '\n' := by
      cases ps with
      | nil => simpa using hline
      | cons q ps =>
        obtain ⟨e, s, hq, he⟩ := (hps q List.mem_cons_self).ne_nil
        rw [List.flatMap_cons, hq]
        simpa using he
    rw [List.flatMap_cons, List.append_assoc, hp.read hback hapart hnewline, ih hps ha.tail]
    refine Scan.eq_of ?_ ?_
    · dsimp only
      rw [List.length_append]
      omega
    · rw [List.filterMap_cons]
      cases p.2 <;> rfl

/-! ## Quoted text -/

theorem spelling_spell (c : Char) : Spelling '"' (Text.Quoted.spell c) (some c) := by
  unfold Text.Quoted.spell
  by_cases h₁ : c = '"'
  · rw [if_pos h₁, h₁]
    exact .itself (by decide)
  rw [if_neg h₁]
  by_cases h₂ : c = '\\'
  · rw [if_pos h₂, h₂]
    exact .itself (by decide)
  rw [if_neg h₂]
  by_cases h₃ : c = '\x08'
  · rw [if_pos h₃, h₃]
    exact .letter (by decide)
  rw [if_neg h₃]
  by_cases h₄ : c = '\x0c'
  · rw [if_pos h₄, h₄]
    exact .letter (by decide)
  rw [if_neg h₄]
  by_cases h₅ : c = '\n'
  · rw [if_pos h₅, h₅]
    exact .letter (by decide)
  rw [if_neg h₅]
  by_cases h₆ : c = '\r'
  · rw [if_pos h₆, h₆]
    exact .letter (by decide)
  rw [if_neg h₆]
  by_cases h₇ : c = '\t'
  · rw [if_pos h₇, h₇]
    exact .letter (by decide)
  rw [if_neg h₇]
  by_cases h₈ : c.toNat < 0x20
  · rw [if_pos h₈]
    have hdigit : ∀ {v : Nat}, v < 16 → IsDigitOf 16 v (hexDigit v) := fun hv => ⟨hv, .inl rfl⟩
    refine .unit rfl ⟨[0, 0, c.toNat / 16, c.toNat % 16], ?_, ?_⟩
    · exact .cons (hdigit (by omega)) (.cons (hdigit (by omega)) (.cons (hdigit (by omega)) (.cons (hdigit (by omega)) .nil)))
    · simp only [List.reverse_cons, List.reverse_nil, List.nil_append, List.cons_append, Nat.ofDigits_cons, Nat.ofDigits_nil]
      omega
  · rw [if_neg h₈]
    exact .plain ⟨h₁, h₂, h₅, h₆⟩

/-- No escape of a quoted text is an octal one. -/
theorem not_absorbs_spell (c : Char) (y : List Char) : ¬ Absorbs (Text.Quoted.spell c) y := by
  refine not_absorbs fun hb hall => ?_
  unfold Text.Quoted.spell at hb hall
  split_ifs at hb hall with h₁ h₂
  case neg => exact absurd (Option.some.inj hb) h₂
  all_goals cases hall

/-- **A quoted text spells the text.** -/
theorem stringBody_encode (cs x : List Char) :
    stringBody '"' (cs.flatMap Text.Quoted.spell ++ '"' :: x) =
      ⟨(cs.flatMap Text.Quoted.spell).length + 1, .ok cs⟩ := by
  have h := @stringBody_spellings '"' (cs.map fun c => (Text.Quoted.spell c, some c)) (.inl rfl)
    (by simpa using fun c _ => spelling_spell c)
    (List.Pairwise.isChain (List.pairwise_map.2 (List.pairwise_of_forall fun c _ => not_absorbs_spell c _))) x
  have hfst : (cs.map fun c => (Text.Quoted.spell c, some c)).flatMap Prod.fst = cs.flatMap Text.Quoted.spell :=
    by rw [List.flatMap_map]
  have hsnd : (cs.map fun c => (Text.Quoted.spell c, some c)).filterMap Prod.snd = cs := by
    rw [List.filterMap_map]
    exact List.filterMap_some
  rwa [hfst, hsnd] at h

end Readback.Token

namespace Readback.Lexer

open Token (Spelling Absorbs)

/-- The step that takes a literal as one string token, up to its end. -/
def stringStep (n : Nat) (literal v x : List Char) : Step :=
  let stop := n + Text.byteLength literal
  ⟨.ok ⟨.string, String.ofList v, ⟨n, stop⟩, false⟩, ⟨n, literal ++ x⟩, ⟨⟨stop, x⟩, false⟩⟩

theorem next_string {quote : Char} {body v x : List Char} (hq : quote = '"' ∨ quote = '\'')
    (hb : Token.stringBody quote (body ++ quote :: x) = ⟨body.length + 1, .ok v⟩) (n : Nat) (bit : Bool) :
    next ⟨⟨n, quote :: (body ++ [quote]) ++ x⟩, bit⟩ = stringStep n (quote :: (body ++ [quote])) v x :=
  (front_of_string hq hb rfl).next

/-- **A string literal is read as what it spells.**  The literal made of a quote, spellings and the quote is one token
wherever it stands and whatever is behind it; it ends with the quote, and its text is the characters that are spelled, if no
octal escape absorbs the piece behind it.  So a text is read back from its quoted form. -/
theorem string_spelled {quote : Char} {ps : List (List Char × Option Char)} (hq : quote = '"' ∨ quote = '\'')
    (hs : ∀ p ∈ ps, Spelling quote p.1 p.2) (ha : ps.IsChain fun p q => ¬ Absorbs p.1 q.1) (n : Nat) (bit : Bool)
    (x : List Char) :
    next ⟨⟨n, quote :: (ps.flatMap Prod.fst ++ [quote]) ++ x⟩, bit⟩ =
        stringStep n (quote :: (ps.flatMap Prod.fst ++ [quote])) (ps.filterMap Prod.snd) x ∧
      ∀ s : String, next ⟨⟨n, (Text.quote s).toList ++ x⟩, bit⟩ = stringStep n (Text.quote s).toList s.toList x := by
  refine ⟨next_string hq (Token.stringBody_spellings hq hs ha x) n bit, fun s => ?_⟩
  rw [Text.quote, String.toList_ofList]
  exact next_string (.inl rfl) (Token.stringBody_encode s.toList x) n bit

/-- Behind an octal escape stands a digit that is none of its, and behind the end of a line an escaped quote. -/
theorem string_spelled_mixed :
    next ⟨⟨3, "'\\18\\u\x7b0041\x7d\\\r\n\\'' / b".toList⟩, true⟩ =
      stringStep 3 "'\\18\\u\x7b0041\x7d\\\r\n\\''".toList ['\x01', '8', 'A', '\''] " / b".toList := by
  have hs : ∀ p ∈ [(['\\', '1'], some '\x01'), (['8'], some '8'), ("\\u\x7b0041\x7d".toList, some 'A'),
      (['\\', '\r', '\n'], none), (['\\', '\''], some '\'')], Spelling '\'' p.1 p.2 := by
    have hone : Token.OctalEscape ['1'] '\x01' :=
      ⟨nofun, by decide, ⟨[1], .cons ⟨by decide, .inl rfl⟩ .nil, rfl⟩, by decide⟩
    have hcode : Spelling '\'' ('\\' :: 'u' :: '\x7b' :: (['0', '0', '4', '1'] ++ ['\x7d'])) (some 'A') :=
      .code nofun ⟨[0, 0, 4, 1], .cons ⟨by decide, .inl rfl⟩ (.cons ⟨by decide, .inl rfl⟩ (.cons ⟨by decide, .inl rfl⟩
        (.cons ⟨by decide, .inl rfl⟩ .nil))), rfl⟩
    simp only [List.forall_mem_cons, List.not_mem_nil, false_implies, implies_true, and_true]
    exact ⟨.octal hone, .plain (by decide), hcode, .line (by decide), .itself (by decide)⟩
  exact (string_spelled (.inr rfl) hs (by
    simp only [List.isChain_cons_cons, List.isChain_singleton, and_true]
    exact ⟨Token.not_absorbs (by decide), Token.not_absorbs (by decide), Token.not_absorbs (by decide),
      Token.not_absorbs (by decide)⟩) 3 true " / b".toList).1

end Readback.Lexer
