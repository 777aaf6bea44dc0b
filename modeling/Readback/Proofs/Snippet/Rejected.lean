import Readback.Proofs.Grammar.Refusal
import Readback.Proofs.Snippet.Stable
/-!
# What a rejected snippet is told

A snippet is rejected for one of two reasons.  It begins with no expression, and then the reader's own diagnostic is handed on;
or it has more behind its expression than may be there, and then that text is selected, without the blanks at its ends, and
judged as a program.  Either way the diagnostic is about the form of the text, and points at some of it.
-/
namespace Readback

open Text (byteLength isBlank trim trimStart trimEnd)

namespace Text

variable {cs : List Char} {c : Char}

/-- Trimming cuts blanks off. -/
theorem trimEnd_append (cs : List Char) : ∃ trail, cs = trimEnd cs ++ trail ∧ ∀ c ∈ trail, isBlank c = true := by
  refine ⟨(cs.reverse.takeWhile isBlank).reverse, ?_, fun c hc => ?_⟩
  · rw [trimEnd, ← List.reverse_append, List.takeWhile_append_dropWhile, List.reverse_reverse]
  · exact List.mem_takeWhile_imp (List.mem_reverse.1 hc)

theorem trim_append (cs : List Char) :
    ∃ trail, cs = cs.takeWhile isBlank ++ (trim cs ++ trail) ∧ ∀ c ∈ trail, isBlank c = true := by
  obtain ⟨trail, ht, hb⟩ := trimEnd_append (trimStart cs)
  refine ⟨trail, ?_, hb⟩
  rw [trim, ← ht, trimStart, List.takeWhile_append_dropWhile]

/-- What is trimmed has no blank at its end. -/
theorem not_isBlank_getLast_trim (h : (trim cs).getLast? = some c) : isBlank c = false := by
  rw [trim, trimEnd, List.getLast?_reverse] at h
  have := List.head?_dropWhile_not isBlank (trimStart cs).reverse
  rw [h] at this
  simpa using this

/-- Nor has it one at its start. -/
theorem not_isBlank_head_trim (h : (trim cs).head? = some c) : isBlank c = false := by
  obtain ⟨trail, ht, -⟩ := trimEnd_append (trimStart cs)
  have hs : (trimStart cs).head? = some c := by
    rw [ht, List.head?_append, ← trim, h]
    rfl
  rw [trimStart] at hs
  have := List.head?_dropWhile_not isBlank cs
  rw [hs] at this
  simpa using this

/-- A piece of a text is some of the text. -/
theorem inText_piece (pre t post : List Char) :
    (⟨byteLength pre, byteLength pre + byteLength t⟩ : Span).InText (pre ++ (t ++ post)) where
  le := Nat.le_add_right _ _
  bound := by
    rw [byteLength_append, byteLength_append]
    dsimp only
    omega
  start := by
    unfold isBoundary
    dsimp only
    rw [dropBytes_byteLength_append]
    rfl
  stop := by
    unfold isBoundary
    dsimp only
    rw [← byteLength_append, ← List.append_assoc, dropBytes_byteLength_append]
    rfl

end Text

namespace Snippet

/-- What is said of the text behind an expression, which was read as a program: that it is none, and why; or that there is a
statement in it that is not empty. -/
def Judged (read : Except Diagnostic Program) (message : String) (notes : List String) : Prop :=
  match read with
  | .error d => message = "Syntax error beyond expression" ∧ notes = [d.message]
  | .ok p    => (∃ x ∈ p.body, x.isEmpty = false) ∧ message = "Only one expression expected" ∧ notes = []

/-- **The diagnostic is about the text behind an expression**, which ends at an offset: it selects all of that text but the
blanks at its ends, and says what is wrong with it. -/
structure Selects (source : List Char) (stop : Nat) (d : Diagnostic) : Prop where
  stage  : d.stage = .normalize
  pieces : ∃ text lead rest trail, source = text ++ (lead ++ (rest ++ trail)) ∧ byteLength text = stop ∧
    (∀ c ∈ lead ++ trail, isBlank c = true) ∧ rest ≠ [] ∧
    (∀ c, rest.head? = some c ∨ rest.getLast? = some c → isBlank c = false) ∧
    d.span = some ⟨byteLength (text ++ lead), byteLength (text ++ lead) + byteLength rest⟩ ∧
    Judged (parseProgram (String.ofList rest)) d.message d.notes

variable {source text tail : List Char} {stop : Nat} {e : Expr} {d : Diagnostic}

/-- What is found wrong with a text that was read as a program. -/
theorem judged_of_remainderFault {cs : List Char} {fault : Fault} {notes : List String}
    (h : remainderFault? (parseProgram (String.ofList cs)) = some (fault, notes)) :
    Judged (parseProgram (String.ofList cs)) fault.message notes := by
  cases hp : parseProgram (String.ofList cs) with
  | error d =>
    rw [hp] at h
    cases h
    exact ⟨rfl, rfl⟩
  | ok p =>
    rw [hp] at h
    obtain ⟨-, body, -, -, rfl⟩ := parseProgram_eq_ok.1 hp
    unfold remainderFault? at h
    dsimp only at h
    rw [if_neg (by simp)] at h
    split at h
    · rename_i hne
      cases h
      refine ⟨?_, rfl, rfl⟩
      rw [ne_eq, dropWhile_isEmpty] at hne
      simpa using hne
    · cases h

/-- **Text that may not be there is selected**, and judged. -/
theorem selects_of_remnant (h : remnant e text tail = .error d) : Selects (text ++ tail) (byteLength text) d := by
  unfold remnant at h
  dsimp only at h
  split at h
  · cases h
  · rename_i hne
    split at h
    · cases h
    · rename_i fault notes hf
      cases h
      obtain ⟨trail, ht, hb⟩ := Text.trim_append tail
      refine ⟨rfl, text, tail.takeWhile isBlank, trim tail, trail, by rw [← ht], rfl, ?_, hne, ?_, ?_,
        judged_of_remainderFault hf⟩
      · intro c hc
        rcases List.mem_append.1 hc with hc | hc
        · exact List.mem_takeWhile_imp hc
        · exact hb c hc
      · rintro c (hc | hc)
        · exact Text.not_isBlank_head_trim hc
        · exact Text.not_isBlank_getLast_trim hc
      · rw [Text.byteLength_append]

theorem Selects.span (h : Selects source stop d) : ∃ s, d.span = some s ∧ s.InText source := by
  obtain ⟨text, lead, rest, trail, rfl, -, -, -, -, hs, -⟩ := h.pieces
  refine ⟨_, hs, ?_⟩
  rw [← List.append_assoc]
  exact Text.inText_piece _ _ _

end Snippet

open Snippet

variable {source : String} {oneExpression : Bool} {d : Diagnostic}

/-- **A rejected snippet is told why and where.**  It begins with no expression, and the diagnostic is the reader's; or the
diagnostic is about the text behind its expression. -/
theorem normalize_rejected (h : normalize source oneExpression = .error d) :
    d.rejectsForm = true ∧ (∃ s, d.span = some s ∧ s.InText source.toList) ∧
      Xor (parseExpressionAt source 0 = .error d ∧ (d.stage = .lexer ∨ d.stage = .parser))
        (∃ e, parseExpressionAt source 0 = .ok e ∧ Selects source.toList e.span.stop d) := by
  have htrue : normalize source true = .error d := by
    cases oneExpression with
    | true => exact h
    | false =>
      rw [normalize_false] at h
      cases hp : parseProgram source with
      | ok p =>
        rw [hp] at h
        cases h
      | error d' =>
        rw [hp] at h
        exact h
  rw [normalize_true] at htrue
  cases hp : parseExpressionAt source 0 with
  | error d' =>
    rw [hp] at htrue
    obtain rfl := Except.error.inj htrue
    have hat : Lexer.at? source.toList 0 = some (.ofSource source.toList) := Grammar.at?_byteLength [] source.toList
    obtain ⟨hstage, hspan⟩ := pointsInto_of_parseExpressionAt hat hp
    refine ⟨?_, hspan, .inl ⟨⟨rfl, hstage⟩, nofun⟩⟩
    unfold Diagnostic.rejectsForm
    rcases hstage with hs | hs <;> rw [hs] <;> rfl
  | ok e =>
    obtain ⟨text, l', hr⟩ := readOff_iff.2 hp
    have hremnant : remnant e text l'.cursor.rest = .error d := by
      rw [hp] at htrue
      dsimp only at htrue
      rwa [hr.stop, hr.split, Text.takeBytes_byteLength_append, Text.dropBytes_byteLength_append] at htrue
    have hsel := selects_of_remnant hremnant
    rw [← hr.split, ← hr.stop] at hsel
    refine ⟨?_, hsel.span, .inr ⟨⟨e, rfl, hsel⟩, nofun⟩⟩
    unfold Diagnostic.rejectsForm
    rw [hsel.stage]
    rfl

/-- Two letters of two bytes and a blank of three are in front of what is not read, which is an empty statement and another. -/
theorem normalize_rejected_sample : ∃ d, normalize "é = ö\u2003;  b // c\n" true = .error d ∧ d.rejectsForm = true ∧
    (∃ s, d.span = some s ∧ s.InText "é = ö\u2003;  b // c\n".toList) ∧
      Xor (parseExpressionAt "é = ö\u2003;  b // c\n" 0 = .error d ∧ (d.stage = .lexer ∨ d.stage = .parser))
        (∃ e, parseExpressionAt "é = ö\u2003;  b // c\n" 0 = .ok e ∧
          Selects "é = ö\u2003;  b // c\n".toList e.span.stop d) := by
  have herror : (normalize "é = ö\u2003;  b // c\n" true).isOk = false := by decide +kernel
  cases h : normalize "é = ö\u2003;  b // c\n" true with
  | ok t =>
    rw [h] at herror
    cases herror
  | error d => exact ⟨d, rfl, normalize_rejected h⟩

end Readback
