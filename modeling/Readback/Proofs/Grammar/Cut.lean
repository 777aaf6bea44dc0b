import Readback.Proofs.Grammar.Moved
import Readback.Proofs.Token.Front
/-!
# A text that goes on differently

Up to a place where it is cut, a text has the same phrases when it goes on differently behind the cut, and in a place
further to the right.
-/
namespace Readback.Grammar

open Token (Kind)
open Lexer (swap)

/-- A place where a text is cut: behind it is `x`, and in another text `y`, which has so many bytes more in front. -/
structure Cut (front : Nat) (x y : List Char) (e : Lexer) : Prop where
  rest  : e.cursor.rest = x
  fence : Token.Fence x y
  slash : y.head? = some '/' → x.head? ≠ some '/' → e.regexAllowed = false
  ready : (swap front x y e).Ready

variable {front : Nat} {x y : List Char} {e l l' : Lexer} {u : Token}

/-! ## The token in hand -/

theorem hand_of_next {step : Lexer.Step} {t : Token} (h : l.next = step) (ho : step.outcome = .ok t) : l.hand = t :=
  Lexer.hand_of_outcome (h ▸ ho)

/-- The token in front of a place is taken. -/
theorem takes_of_front {g t r v : List Char} {k : Kind} {newline : Bool} (h : l.Front g t r k v newline) (hk : k ≠ .eof)
    (hr : Lexer.Ready ⟨⟨l.cursor.pos + Text.byteLength g + Text.byteLength t, r⟩, Lexer.allowsRegex l.regexAllowed k⟩) :
    l.Takes k ⟨⟨l.cursor.pos + Text.byteLength g + Text.byteLength t, r⟩, Lexer.allowsRegex l.regexAllowed k⟩ := by
  have hn := h.next
  have hh : l.hand.kind = k := by rw [hand_of_next hn rfl]
  exact ⟨⟨⟨_, congrArg Lexer.Step.outcome hn⟩, hh ▸ hk, (congrArg Lexer.Step.after hn).symm, hr⟩, hh⟩

/-- A token that ends in front of a fence is the same one in front of another. -/
theorem next_swap (front : Nat) (hf : Token.Fence x y) (hl : l.Ready) (hk : l.hand.kind ≠ .eof) {r : List Char}
    (hr : l.next.after.cursor.rest = r ++ x)
    (hs : r = [] → y.head? = some '/' → x.head? ≠ some '/' → l.hand.kind.endsOperand = true) :
    (swap front x y l).next.outcome = .ok { l.hand with span := l.hand.span.move (.right front) } ∧
      (swap front x y l).next.start = (swap front x y ⟨l.next.start, true⟩).cursor ∧
      (swap front x y l).next.after = swap front x y l.next.after := by
  obtain ⟨g, t, z, v, h⟩ := Lexer.front_of_next hl.outcome hk
  have hn := h.next
  have hz : z = r ++ x := by rw [← hr, hn]
  subst hz
  have h' := h.swap hf hs front
  have hh : l.hand = _ := hand_of_next hn rfl
  have hpos : (swap front x y l).cursor.pos = l.cursor.pos + front := rfl
  have hbit : (swap front x y l).regexAllowed = l.regexAllowed := rfl
  have hswap : ∀ (p : Nat) (s : List Char) (b : Bool), swap front x y ⟨⟨p, s ++ x⟩, b⟩ = ⟨⟨p + front, s ++ y⟩, b⟩ :=
    fun _ _ _ => Lexer.swap_eq rfl front y
  rw [h'.next, hn, hh, ← List.append_assoc, ← List.append_assoc, hswap, hswap, hpos, hbit]
  simp only [Span.move, Move.right, Nat.add_right_comm, and_self]

/-! ## The way to the cut -/

theorem steps_shorter (h : l.Steps l') : l'.cursor.rest.length < l.cursor.rest.length := by
  have h₁ := Lexer.length_next_after h.ready.outcome h.more
  have h₂ := Lexer.length_next_start l
  rw [h.after]
  omega

theorem rereads_shorter (h : l.Rereads u l') : l'.cursor.rest.length < l.cursor.rest.length := by
  have h₁ : 0 < l.next.start.rest.length := by
    have := Lexer.length_next_after h.ready.outcome h.ne_eof
    omega
  have h₂ := Lexer.length_next_start l
  have h₃ := Token.regex_pos l.next.start.rest
  have h₄ : l'.cursor = l.next.start.skip (Token.regex l.next.start.rest).size := h.after ▸ Lexer.stepOf_after _ _ _ _
  rw [h₄, Lexer.length_skip]
  omega

/-- A place in front of the cut has some text in front of it. -/
theorem Cut.rest_of_goes (c : Cut front x y e) (h : l.Goes e) : ∃ r, l.cursor.rest = r ++ x ∧ (r = [] → l = e) := by
  obtain ⟨r, hr, -⟩ := h.before
  rw [c.rest] at hr
  refine ⟨r, hr, ?_⟩
  rintro rfl
  have hx : l.cursor.rest.length = x.length := by rw [hr, List.nil_append]
  have hle : ∀ {l₁ : Lexer}, l₁.Goes e → x.length ≤ l₁.cursor.rest.length := by
    intro l₁ h₁
    obtain ⟨r₁, hr₁, -⟩ := h₁.before
    rw [hr₁, c.rest, List.length_append]
    omega
  cases h with
  | stay => rfl
  | step h₁ h₂ =>
    have := steps_shorter h₁
    have := hle h₂
    omega
  | reread h₁ h₂ =>
    have := rereads_shorter h₁
    have := hle h₂
    omega

/-- The bit behind a token says whether it ends an operand. -/
theorem regexAllowed_of_steps (h : l.Steps l') : l'.regexAllowed = !l.hand.kind.endsOperand := by
  obtain ⟨g, t, z, v, hf⟩ := Lexer.front_of_next h.ready.outcome h.more
  rw [h.after, hf.next]
  have := h.more
  unfold Lexer.allowsRegex
  split
  · contradiction
  · rfl

/-- **A token in front of the cut is taken in the other text** too. -/
theorem Cut.next_of_steps (c : Cut front x y e) (h : l.Steps l') (hg : l'.Goes e) :
    (swap front x y l).next.outcome = .ok { l.hand with span := l.hand.span.move (.right front) } ∧
      (swap front x y l).next.after = swap front x y l' := by
  obtain ⟨r, hr, he⟩ := c.rest_of_goes hg
  have hs : r = [] → y.head? = some '/' → x.head? ≠ some '/' → l.hand.kind.endsOperand = true := by
    intro hr hy hx
    have hb := regexAllowed_of_steps h
    rw [he hr, c.slash hy hx] at hb
    simpa using hb.symm
  rw [h.after] at hr ⊢
  obtain ⟨h₁, -, h₃⟩ := next_swap front c.fence h.ready h.more hr hs
  exact ⟨h₁, h₃⟩

/-- A slash is shorter than the regular expression that it opens. -/
theorem rereads_front (h : l.Rereads u l') :
    ∃ a t, a ≠ [] ∧ l.next.after.cursor.rest = a ++ l'.cursor.rest ∧ l.next.start.rest = t ++ l'.cursor.rest ∧
      Token.regex (t ++ l'.cursor.rest) = ⟨t.length, .ok ()⟩ := by
  have hk := h.ne_eof
  obtain ⟨g, s, z, v, hf⟩ := Lexer.front_of_next h.ready.outcome hk
  obtain ⟨t, w, hw, ht⟩ := Lexer.exists_text_of_regexAt h.outcome
  have hl : l'.cursor.rest = w := by
    rw [h.after, Lexer.again, Lexer.regexAt_of_regex hw ht]
  have hn := hf.next
  have hz : l.next.after.cursor.rest = z := by rw [hn]
  have hstart : l.next.start.rest = s ++ z := by rw [hn]
  have htext : s.length < t.length := by
    have hsize := Lexer.regex_size (congrArg Token.Scan.outcome ht)
    rw [ht, ← hw, hstart] at hsize
    dsimp only at hsize
    rcases h.slash with hk | ⟨hk, hslash⟩
    · have hall : ∀ p ∈ Token.punctuators, p.2 = .slash → p.1 = ['/'] := by decide
      obtain rfl : s = ['/'] := hall _ (hf.punctuator (by rw [hk]; rfl)).2 hk
      exact hsize.1
    · have hall : ∀ p ∈ Token.punctuators, p.2 = .compoundAssign → p.1.head? = some '/' → p.1 = ['/', '='] := by decide
      obtain ⟨hv, hm⟩ := hf.punctuator (by rw [hk]; rfl)
      rw [Lexer.hand_of_outcome (by rw [hn]), hv] at hslash
      obtain rfl : s = ['/', '='] := hall _ hm hk (by simpa using hslash)
      exact hsize.2 rfl
  obtain ⟨a, ht', hz'⟩ | ⟨a, hs', hw'⟩ := List.append_eq_append_iff.1 (hstart.symm.trans hw)
  · refine ⟨a, t, ?_, by rw [hl, hz, hz'], by rw [hl, hw], by rw [hl, ht]⟩
    rintro rfl
    rw [ht', List.append_nil] at htext
    omega
  · rw [hs', List.length_append] at htext
    omega

/-- **A regular expression in front of the cut is taken in the other text** too. -/
theorem Cut.next_of_rereads (c : Cut front x y e) (h : l.Rereads u l') (hg : l'.Goes e) :
    (swap front x y l).next.outcome = .ok { l.hand with span := l.hand.span.move (.right front) } ∧
      (swap front x y l).again.outcome = .ok { u with span := u.span.move (.right front) } ∧
        (swap front x y l).again.after = swap front x y l' := by
  have hk := h.ne_eof
  obtain ⟨r, hr, -⟩ := c.rest_of_goes hg
  obtain ⟨a, t, ha, hafter, hstart, ht⟩ := rereads_front h
  rw [hr, ← List.append_assoc] at hafter
  obtain ⟨h₁, h₂, h₃⟩ := next_swap front c.fence h.ready hk hafter (by simp [ha])
  have hl : l.again = _ := Lexer.regexAt_of_regex hstart ht l.next.after.regexAllowed l.hand.newlineBefore
  have hu := h.outcome
  have hl' := h.after
  rw [hl] at hu hl'
  cases hu
  rw [hr] at hstart ht
  have hswap : (swap front x y l).next.start = ⟨l.next.start.pos + front, t ++ (r ++ y)⟩ := by
    rw [h₂, @Lexer.swap_eq ⟨l.next.start, true⟩ (t ++ r) x (by rw [hstart, List.append_assoc]), List.append_assoc]
  have ha : (swap front x y l).again = _ := Lexer.regexAt_of_regex (congrArg Cursor.rest hswap)
    (Token.regex_fence ht (c.fence.append r)) (swap front x y l).next.after.regexAllowed (swap front x y l).hand.newlineBefore
  refine ⟨h₁, ?_⟩
  rw [ha, Lexer.hand_of_outcome h₁, hswap, Lexer.swap_eq hr, hl']
  simp only [Span.move, Move.right, Nat.add_right_comm, and_self]

/-- A place on the way to the cut has a token in hand in the other text too. -/
theorem Cut.ready_of_goes (c : Cut front x y e) (h : l.Goes e) : (swap front x y l).Ready := by
  cases h with
  | stay => exact c.ready
  | step h₁ h₂ => exact ⟨_, (c.next_of_steps h₁ h₂).1⟩
  | reread h₁ h₂ => exact ⟨_, (c.next_of_rereads h₁ h₂).1⟩

theorem same_of_next {m : Move} {t : Token} (h : l.next.outcome = .ok { t with span := t.span.move m }) : Same m t l.hand := by
  rw [Lexer.hand_of_outcome h]
  exact ⟨rfl, rfl, rfl, rfl⟩

/-- **The places in front of a cut correspond to those in the other text.** -/
theorem Cut.transport (c : Cut front x y e) : Transport (.right front) (·.Goes e) (swap front x y) where
  back h hi := h.trans hi
  stop _ := rfl
  steps h hi := by
    obtain ⟨h₁, h₂⟩ := c.next_of_steps h hi
    refine ⟨⟨_, h₁⟩, ?_, h₂.symm, c.ready_of_goes hi⟩
    rw [(same_of_next h₁).kind]
    exact h.more
  same h hi := same_of_next (c.next_of_steps h hi).1
  again h hi := by
    obtain ⟨h₁, h₂, h₃⟩ := c.next_of_rereads h hi
    have hs := same_of_next h₁
    refine ⟨hs, _, ⟨⟨_, h₁⟩, ?_, h₂, h₃.symm, c.ready_of_goes hi⟩, ⟨rfl, rfl, rfl, rfl⟩⟩
    rw [hs.kind, hs.text]
    exact h.slash

/-- **A phrase that ends at a cut is one of the other text**, when what is in hand there may stand behind it. -/
theorem Derives.cut {b : Bool} {p : Phrase} {a : p.Result} (h : Derives b p l a e) (c : Cut front x y e)
    (he : p.endsAt (swap front x y e).hand) :
    Derives b p (swap front x y l) (p.move (.right front) a) (swap front x y e) :=
  h.moved c.transport ⟨.stay, .inr he⟩

end Readback.Grammar
