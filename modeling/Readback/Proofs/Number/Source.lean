import Readback.Proofs.Token.Lexeme
/-!
# The source of a number

The source of a finite number is one numeral, behind a minus sign if the number has one.  The numeral denotes the decimal that
was laid out, in whichever of the layouts, and is read as the number.
-/
namespace Readback.Number

/-- The tokens of a text that is one numeral, perhaps behind a minus sign. -/
def signedTokens (negative : Bool) (t : List Char) : List (Except Diagnostic Token) :=
  let start := if negative then 1 else 0
  let stop := start + Text.byteLength t
  (if negative then [.ok ⟨.minus, "-", ⟨0, 1⟩, false⟩] else []) ++
    [.ok ⟨.number, String.ofList t, ⟨start, stop⟩, false⟩, .ok ⟨.eof, "", ⟨stop, stop⟩, false⟩]

variable {d : Decimal} {t whole part : List Char} {power : Option Int}

/-- What spells a decimal is one numeral, wherever it stands at the end of a text. -/
theorem Spells.front (h : Spells d t whole part power) {l : Lexer} (hl : l.cursor.rest = t) :
    l.Front [] t [] .number t false := by
  rw [h.text] at hl ⊢
  exact Lexer.front_of_number h.some h.digits (.nil _) (hl.trans (List.append_nil _).symm)

/-- **A numeral is one token, and a minus sign in front of it is another.** -/
theorem Spells.tokens (h : Spells d t whole part power) (negative : Bool) :
    (Lexer.ofSource (signed negative t)).allTokens = signedTokens negative t := by
  have hne : t ≠ [] := (h.front (l := Lexer.ofSource t) rfl).some
  obtain ⟨n, hn⟩ : ∃ n, t.length = n + 1 := Nat.exists_eq_add_one.2 (List.length_pos_iff.2 hne)
  unfold Lexer.allTokens
  cases negative with
  | false =>
    show Lexer.tokens (t.length + 1) (Lexer.ofSource t) = _
    rw [hn, (h.front rfl).tokens nofun, Lexer.tokens_of_nil rfl]
    rfl
  | true =>
    obtain ⟨c, cs, rfl, hc⟩ : ∃ c cs, t = c :: cs ∧ Text.isDigit c = true := by
      obtain ⟨c, rest, hw⟩ := List.exists_cons_of_ne_nil h.some
      exact ⟨c, _, by rw [h.text, hw]; rfl, h.digits c (by simp [hw])⟩
    have hsign : c ≠ '-' ∧ c ≠ '=' := by
      constructor <;> rintro rfl <;> cases hc
    have hf : (Lexer.ofSource ('-' :: c :: cs)).Front [] ['-'] (c :: cs) .minus ['-'] false :=
      ⟨rfl, .none, Token.trivia_of_not_mem_fences (by decide) _, nofun, Token.scan_minus hsign.1 hsign.2 cs true⟩
    show Lexer.tokens ((c :: cs).length + 1 + 1) (Lexer.ofSource ('-' :: c :: cs)) = _
    rw [hf.tokens nofun, hn, (h.front rfl).tokens nofun, Lexer.tokens_of_nil rfl]
    rfl

/-- **The source of a number is read back.**  The layout of a decimal is one numeral, which denotes that decimal exactly and is
read as what it rounds to; and the source of a finite number is a numeral behind a minus sign or not, which is read as the
number, with its sign. -/
theorem source_tokens :
    (∀ d : Decimal, (Lexer.ofSource (layout d)).allTokens = signedTokens false (layout d) ∧
      (∃ e, Literal.decimal? (layout d) = some e ∧ e.value = d.value) ∧
      Literal.read? (layout d) = some (.ofSize false d.round?)) ∧
    ∀ (negative : Bool) (x : Magnitude),
      (Lexer.ofSource (source (.finite negative x)).toList).allTokens = signedTokens negative (sizeText x) ∧
      ∃ y, Literal.read? (sizeText x) = some y ∧ (if negative then y.negate else y) = .finite negative x := by
  constructor
  · intro d
    obtain ⟨whole, part, power, hs⟩ := spells_layout d
    refine ⟨hs.tokens false, ⟨_, ?_, hs.value⟩, hs.read?⟩
    rw [hs.text, decimal?_spelling hs.some hs.digits]
  · intro negative x
    obtain ⟨whole, part, power, ht, hw, hd, hread⟩ := spells_sizeText x
    have hs : Spells (spelled whole part power) (sizeText x) whole part power := ⟨ht, hw, hd, rfl⟩
    refine ⟨?_, .finite false x, hread, ?_⟩
    · rw [source, String.toList_ofList]
      exact hs.tokens negative
    · cases negative <;> rfl

example : [⟨123, 18⟩, ⟨123, 19⟩, ⟨123, -8⟩, ⟨123, -9⟩].map (fun d => String.ofList (layout d)) =
    ["123000000000000000000", "1.23e+21", "0.00000123", "1.23e-7"] := by decide +kernel

end Readback.Number
