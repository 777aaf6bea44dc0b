import Readback.Proofs.Snippet.Stable
/-!
# One expression, read both ways

A text that is accepted as one expression is read as a program, too.  When no block and no function starts it, it is a
program of that expression and of empty statements, and is left alone (`normalize_agree`).  What is left of it after
normalizing is one expression without anything behind it, and is left alone either way (`normalize_settled`).
-/
namespace Readback

open Grammar Snippet

variable {source t : String}

/-- The token in hand at the start of a text. -/
def firstKind (source : String) : Token.Kind := (Lexer.ofSource source.toList).hand.kind

/-- **The two readings of one expression agree.**  Unless it starts with a brace or with a function, the program is the
expression, tree and spans, and empty statements behind it; so nothing is rewritten. -/
theorem normalize_agree (h : normalize source true = .ok t) (hb : firstKind source ≠ .lBrace)
    (hf : firstKind source ≠ .keyword .function) :
    ∃ e p span rest, parseExpressionAt source 0 = .ok e ∧ parseProgram source = .ok p ∧
      p.body = .expression span e :: rest ∧ (∀ x ∈ rest, x.isEmpty = true) ∧ normalize source false = .ok source := by
  obtain ⟨e, text, l', hr, hi, -⟩ := normalize_expression_eq_ok.1 h
  obtain ⟨span, rest, m, hd, hrest⟩ := derivesAll_of_expression hr.derives
    (opensStatement_of_leads hr.derives.led hb hf) (Lexer.semicolons_iff_inert.2 hi)
  have hp : parseProgram source = _ := parseProgram_eq_ok.2 ⟨hr.ready, _, m, hd, rfl⟩
  refine ⟨e, _, span, rest, readOff_iff.1 ⟨text, l', hr⟩, hp, rfl, hrest, ?_⟩
  rw [normalize_false, hp]
  exact congrArg Except.ok (programText_eq fun s xs hbody => nomatch hbody)

/-- A regular expression, and semicolons and comments behind it. -/
theorem normalize_agree_regex :
    normalize "/[/]/.test(x) /* ; */ ;; // \x7b" true = .ok "/[/]/.test(x)" ∧
    firstKind "/[/]/.test(x) /* ; */ ;; // \x7b" = .regex ∧
    ∃ e p span rest, parseExpressionAt "/[/]/.test(x) /* ; */ ;; // \x7b" 0 = .ok e ∧
      parseProgram "/[/]/.test(x) /* ; */ ;; // \x7b" = .ok p ∧ p.body = .expression span e :: rest ∧
      (∀ x ∈ rest, x.isEmpty = true) ∧
      normalize "/[/]/.test(x) /* ; */ ;; // \x7b" false = .ok "/[/]/.test(x) /* ; */ ;; // \x7b" := by
  have hn : normalize "/[/]/.test(x) /* ; */ ;; // \x7b" true = .ok "/[/]/.test(x)" := by decide +kernel
  have hk : firstKind "/[/]/.test(x) /* ; */ ;; // \x7b" = .regex := by decide +kernel
  exact ⟨hn, hk, normalize_agree hn (by rw [hk]; nofun) (by rw [hk]; nofun)⟩

/-- **What one expression is normalized to is left alone**, as an expression and as a program. -/
theorem normalize_settled (h : normalize source true = .ok t) :
    normalize t true = .ok t ∧ normalize t false = .ok t := by
  obtain ⟨e, text, l', hr, -, rfl⟩ := normalize_expression_eq_ok.1 h
  have hw := Whole.mk hr.parse_wrap hr.stop_wrap
  have hplain : (if e.needsParens then
      .group ⟨0, Text.byteLength (wrap e (String.ofList text)).toList⟩ (e.move (.right 1)) else e : Expr).needsParens = false := by
    split
    · rfl
    · rename_i hn
      simpa using hn
  exact ⟨hw.normalize_true hplain, hw.normalize hplain⟩

/-- An object literal is put in parentheses once, and what is behind it is cut off once. -/
theorem normalize_settled_object : normalize "\x7ba: \x7b\x7d, b\x7d;" true = .ok "(\x7ba: \x7b\x7d, b\x7d)" ∧
    normalize "(\x7ba: \x7b\x7d, b\x7d)" true = .ok "(\x7ba: \x7b\x7d, b\x7d)" ∧ normalize "(\x7ba: \x7b\x7d, b\x7d)" false = .ok "(\x7ba: \x7b\x7d, b\x7d)" := by
  have h : normalize "\x7ba: \x7b\x7d, b\x7d;" true = .ok "(\x7ba: \x7b\x7d, b\x7d)" := by decide +kernel
  exact ⟨h, normalize_settled h⟩

end Readback
