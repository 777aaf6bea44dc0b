import Readback.Proofs.Grammar.Moved
import Readback.Proofs.Grammar.Unique
/-!
# A text with more or less in front of it

How a text is read does not depend on how many bytes are in front of it.  So a phrase is the same one with more of them, and
a phrase that has at least so many bytes in front of it is the same one without them.  Here places are followed from the start
of a phrase on, since only behind its start there are enough bytes.
-/
namespace Readback

/-- Everything goes so many bytes to the left. -/
def Move.left (k : Nat) : Move := ⟨(· - k), (· - k)⟩

/-- From so many bytes on, places keep their distances. -/
def Rigid (k : Nat) (f : Nat → Nat) : Prop := ∀ p n, k ≤ p → f (p + n) = f p + n

theorem rigid_left (k : Nat) : Rigid k (· - k) := fun _ _ h => Nat.sub_add_comm h

theorem rigid_right (k : Nat) : Rigid 0 (· + k) := fun p n _ => Nat.add_right_comm p n k

namespace Lexer

/-- The place in the same text, with other bytes in front of it. -/
def slide (f : Nat → Nat) (l : Lexer) : Lexer := ⟨⟨f l.cursor.pos, l.cursor.rest⟩, l.regexAllowed⟩

/-- The place with so many bytes less in front of it. -/
def back (k : Nat) (l : Lexer) : Lexer := ⟨⟨l.cursor.pos - k, l.cursor.rest⟩, l.regexAllowed⟩

end Lexer

namespace Cursor

/-- The place in the same text, with other bytes in front of it. -/
def slide (f : Nat → Nat) (c : Cursor) : Cursor := ⟨f c.pos, c.rest⟩

variable {k : Nat} {f : Nat → Nat} {c : Cursor}

theorem skip_slide (hf : Rigid k f) (h : k ≤ c.pos) (n : Nat) : (c.slide f).skip n = (c.skip n).slide f := by
  unfold slide skip
  rw [hf _ _ h]

theorem span_slide (hf : Rigid k f) (h : k ≤ c.pos) (n : Nat) : (c.slide f).span n = (c.span n).move ⟨f, f⟩ := by
  unfold span
  rw [skip_slide hf h]
  rfl

theorem le_skip (h : k ≤ c.pos) (n : Nat) : k ≤ (c.skip n).pos := Nat.le_add_right_of_le h

end Cursor

namespace Grammar

open Token (Kind)

/-- There is a token in hand, and there are at least so many bytes in front. -/
structure Beyond (k : Nat) (l : Lexer) : Prop where
  ready : l.Ready
  le    : k ≤ l.cursor.pos

variable {k : Nat} {f : Nat → Nat} {b : Bool} {p : Phrase} {l l' : Lexer} {u t : Token} {κ : Kind}

/-! ## The token in hand -/

theorem stepOf_slide (hf : Rigid k f) {c : Cursor} (h : k ≤ c.pos) (bit newline : Bool)
    (s : Token.Scan (Kind × List Char)) :
    (∀ t, (Lexer.stepOf c bit newline s).outcome = .ok t →
      (Lexer.stepOf (c.slide f) bit newline s).outcome = .ok { t with span := t.span.move ⟨f, f⟩ }) ∧
    (Lexer.stepOf (c.slide f) bit newline s).after = (Lexer.stepOf c bit newline s).after.slide f := by
  unfold Lexer.stepOf
  split
  · rw [Cursor.span_slide hf h, Cursor.skip_slide hf h]
    refine ⟨?_, rfl⟩
    rintro t ⟨⟩
    rfl
  · rw [Cursor.skip_slide hf h]
    exact ⟨nofun, rfl⟩

/-- **The next token is the same one**, with other bytes in front of it. -/
theorem next_slide (hf : Rigid k f) (h : k ≤ l.cursor.pos) :
    (∀ t, l.next.outcome = .ok t → (l.slide f).next.outcome = .ok { t with span := t.span.move ⟨f, f⟩ }) ∧
    (l.slide f).next.after = l.next.after.slide f := by
  have hstart : (l.slide f).cursor.skip (Token.trivia l.cursor.rest).size = _ := Cursor.skip_slide hf h _
  have hle := Cursor.le_skip h (Token.trivia l.cursor.rest).size
  unfold Lexer.next
  dsimp only
  rw [show (l.slide f).cursor.rest = l.cursor.rest from rfl, hstart]
  split
  · refine ⟨nofun, ?_⟩
    dsimp only
    rw [Cursor.skip_slide hf hle]
    rfl
  · exact stepOf_slide hf hle _ _ _

theorem start_slide (hf : Rigid k f) (h : k ≤ l.cursor.pos) : (l.slide f).next.start = l.next.start.slide f := by
  rw [Lexer.next_start, Lexer.next_start]
  exact Cursor.skip_slide hf h _

namespace Beyond

theorem of_goes (i : Beyond k l) (h : l.Goes l') : Beyond k l' := by
  obtain ⟨text, -, hp⟩ := h.before
  exact ⟨ready_of_goes h i.ready, hp ▸ Nat.le_add_right_of_le i.le⟩

/-- The token in hand is the same one. -/
theorem same (hf : Rigid k f) (i : Beyond k l) : Same ⟨f, f⟩ l.hand (l.slide f).hand := by
  rw [Lexer.hand_of_outcome ((next_slide hf i.le).1 _ i.ready.outcome)]
  exact ⟨rfl, rfl, rfl, rfl⟩

theorem slide_ready (hf : Rigid k f) (i : Beyond k l) : (l.slide f).Ready := ⟨_, (next_slide hf i.le).1 _ i.ready.outcome⟩

theorem slide_steps (hf : Rigid k f) (i : Beyond k l) (h : l.Steps l') : (l.slide f).Steps (l'.slide f) :=
  ⟨i.slide_ready hf, (i.same hf).kind.symm ▸ h.more, by rw [h.after, (next_slide hf i.le).2],
    (i.of_goes h.goes).slide_ready hf⟩

theorem slide_rereads (hf : Rigid k f) (i : Beyond k l) (h : l.Rereads u l') :
    ∃ u', (l.slide f).Rereads u' (l'.slide f) ∧ u'.text = u.text := by
  have hle : k ≤ l.next.start.pos := by
    rw [Lexer.next_start]
    exact Cursor.le_skip i.le _
  have hagain : (l.slide f).again = Lexer.regexAt (l.next.start.slide f) l.next.after.regexAllowed l.hand.newlineBefore := by
    rw [Lexer.again, start_slide hf i.le, (next_slide hf i.le).2, (i.same hf).newline]
    rfl
  obtain ⟨ho, ha⟩ := stepOf_slide hf hle l.next.after.regexAllowed l.hand.newlineBefore
    ⟨(Token.regex l.next.start.rest).size, (Token.regex l.next.start.rest).outcome.map
      (fun _ => (Kind.regex, l.next.start.rest.take (Token.regex l.next.start.rest).size))⟩
  refine ⟨{ u with span := u.span.move ⟨f, f⟩ },
    ⟨i.slide_ready hf, ?_, hagain ▸ ho u h.outcome, ?_, (i.of_goes h.goes).slide_ready hf⟩, rfl⟩
  · rw [(i.same hf).kind, (i.same hf).text]
    exact h.slash
  · rw [h.after, hagain]
    exact ha.symm

/-- **Behind enough bytes, places correspond to those with other bytes in front.** -/
theorem copy (hf : Rigid k f) : Copy ⟨f, f⟩ (fun _ l => Beyond k l) (Lexer.slide f) where
  hand i := (i.same hf).like
  stop _ := rfl
  steps i h := ⟨i.of_goes h.goes, i.slide_steps hf h⟩
  again i h := ⟨i.of_goes h.goes, i.slide_rereads hf h⟩

end Beyond

/-! ## Phrases -/

/-- **A phrase is one with other bytes in front of it**, too; its tree is the same apart from the spans. -/
theorem Derives.slide {a : p.Result} (h : Derives b p l a l') (hf : Rigid k f) (i : Beyond k l) :
    Derives b p (l.slide f) (p.move ⟨f, f⟩ a) (l'.slide f) := by
  obtain ⟨ts, -, -, hd⟩ := h.way (Beyond.copy hf)
  exact (hd [] i).2

theorem DerivesAll.slide {body : List Stmt} (h : DerivesAll l body l') (hf : Rigid k f) (i : Beyond k l) :
    DerivesAll (l.slide f) (moveBody ⟨f, f⟩ body) (l'.slide f) := by
  obtain ⟨ts, -, -, hd⟩ := h.way (Beyond.copy hf)
  exact (hd [] i).2

/-- **A phrase is one with less in front of it**, too. -/
theorem Derives.back {a : p.Result} (h : Derives b p l a l') (i : Beyond k l) :
    Derives b p (l.back k) (p.move (.left k) a) (l'.back k) :=
  h.slide (rigid_left k) i

end Grammar

end Readback
