import Readback.Proofs.Snippet.Stable
/-!
# Normalizing a program

What a program is normalized to is a program again, but for a block that is taken for an object literal and is none: it is
put in parentheses, and is not read there.
-/
namespace Readback

open Grammar Snippet

variable {source t : String} {e : Expr} {p : Program}

/-! ## Programs of one expression -/

/-- A text that is an expression is a program, if no statement of another sort starts in front of it. -/
theorem Whole.program (h : Whole t e) (ho : opensStatement (Lexer.ofSource t.toList).hand.kind = false) :
    ∃ p, parseProgram t = .ok p := by
  obtain ⟨l', hr, hn⟩ := h.readOff
  have hsemi : Lexer.Semicolons l' := Lexer.semicolons_iff_inert.2 (by rw [hn]; exact .bare Token.bare_nil)
  obtain ⟨_, _, _, hd, -⟩ := derivesAll_of_expression hr.derives ho hsemi
  exact ⟨_, parseProgram_eq_ok.2 ⟨hr.ready, _, _, hd, rfl⟩⟩

theorem hand_parens (source : String) : (Lexer.ofSource ("(" ++ source ++ "\n)").toList).hand.kind = .lParen := by
  rw [toList_parens]
  have hn := (Lexer.front_of_mark (l := .ofSource ('(' :: (source.toList ++ ['\n', ')']))) (g := []) (c := '(')
    (k := .lParen) (by decide) rfl .none).next
  rw [hand_of_next hn rfl]

/-! ## Blocks -/

/-- **A block with a label is a program in parentheses** unless it was mistaken for an object literal. -/
theorem program_label_iff {s s₁ s₂ : Span} {name : String} (hp : parseProgram source = .ok p)
    (hb : p.body = [.block s [.labeled s₁ name (.expression s₂ e)]]) :
    (∃ q, parseProgram ("(" ++ source ++ "\n)") = .ok q) ↔ isMistaken source = false := by
  constructor
  · rintro ⟨q, hq⟩
    by_contra hm
    obtain ⟨d, hd⟩ := (normalize_label hp hb).2 (by simpa using hm)
    rw [normalize_false, hq] at hd
    cases hd
  · intro hm
    obtain ⟨l₁, l₂, l₃, l₄, l₅, l', h, hl, hiff⟩ := label_of_program hp hb
    obtain ⟨hk, he⟩ := hiff.1 hm
    obtain ⟨s', e', hw⟩ := whole_of_label h hl hk he
    exact hw.program (by rw [hand_parens]; rfl)

/-! ## The programs that programs are normalized to -/

/-- **A program is normalized to a text that is a program**, unless it was mistaken for an object literal. -/
theorem normalize_accepted (h : parseProgram source = .ok p) :
    ∃ t, normalize source false = .ok t ∧ ((∃ q, parseProgram t = .ok q) ↔ isMistaken source = false) := by
  refine ⟨programText source p.body, by rw [normalize_false, h], ?_⟩
  obtain ⟨s, s₁, name, s₂, e, hb, ht⟩ | ⟨hm, ht⟩ := program_cases h
  · rw [ht]
    exact program_label_iff h hb
  · refine iff_of_true ?_ hm
    rcases ht with ht | ht
    · rw [ht]
      exact eq_ok_of_isOk (by decide +kernel)
    · rw [ht]
      exact ⟨p, h⟩

/-- An object literal is not mistaken, with a comment behind it. -/
theorem normalize_accepted_comment : ∃ p, parseProgram "\x7ba: 1, b\x7d // c" = .ok p ∧
    ∃ t, normalize "\x7ba: 1, b\x7d // c" false = .ok t ∧
      ((∃ q, parseProgram t = .ok q) ↔ isMistaken "\x7ba: 1, b\x7d // c" = false) := by
  obtain ⟨p, hp⟩ := eq_ok_of_isOk (x := parseProgram "\x7ba: 1, b\x7d // c") (by decide +kernel)
  exact ⟨p, hp, normalize_accepted hp⟩

/-- With a semicolon in it, a block is a program that is normalized to none. -/
theorem normalize_not_accepted : (parseProgram "\x7ba: 1;\x7d").isOk = true ∧
    normalize "\x7ba: 1;\x7d" false = .ok "(\x7ba: 1;\x7d\n)" ∧ (parseProgram "(\x7ba: 1;\x7d\n)").isOk = false := by
  decide +kernel

end Readback
