import Readback.Proofs.Grammar.Read
import Readback.Proofs.Grammar.Unique
import Readback.Proofs.Grammar.Climb
/-!
# Text in front of what closes it

An expression that a text is by itself, it is also with other text around it: behind a bracket or a comma and a blank, and in
front of a comma or a closing bracket.
-/
namespace Readback.Grammar

open Token (Kind Fence)
open Lexer (swap)

variable {b : Bool} {l l' m : Lexer} {e : Expr} {k : Kind} {y : List Char} {n : Nat}

/-! ## What closes a text -/

/-- The end, or a comma or a closing bracket and more text. -/
inductive Closer : List Char → Prop
  | nil : Closer []
  | cons {c : Char} {k : Kind} (hc : (c, k) ∈ [(',', Kind.comma), (')', Kind.rParen), (']', Kind.rBracket)]) (cs : List Char) :
    Closer (c :: cs)

theorem Closer.fence (h : Closer y) : Fence [] y := by
  cases h with
  | nil => exact .nil _
  | cons hc cs =>
    have hall : ∀ p ∈ [(',', Kind.comma), (')', Kind.rParen), (']', Kind.rBracket)], p.1 ∈ Token.fences := by decide
    exact .of_mem (hall _ hc) _ _

theorem Closer.ne_slash (h : Closer y) : y.head? ≠ some '/' := by
  cases h with
  | nil => nofun
  | cons hc cs =>
    have hall : ∀ p ∈ [(',', Kind.comma), (')', Kind.rParen), (']', Kind.rBracket)], p.1 ≠ '/' := by decide
    exact fun h => hall _ hc (Option.some.inj h)

/-- At what closes a text there is a token in hand, and it closes. -/
theorem Closer.hand (h : Closer y) (n : Nat) (bit : Bool) :
    Lexer.Ready ⟨⟨n, y⟩, bit⟩ ∧ closes (Lexer.hand ⟨⟨n, y⟩, bit⟩).kind = true := by
  cases h with
  | nil =>
    have hn := @Lexer.next_of_nil ⟨⟨n, []⟩, bit⟩ rfl
    exact ⟨⟨_, congrArg Lexer.Step.outcome hn⟩, by rw [Lexer.hand_of_outcome (congrArg Lexer.Step.outcome hn)]; rfl⟩
  | @cons c k hc cs =>
    have hall : ∀ p ∈ [(',', Kind.comma), (')', Kind.rParen), (']', Kind.rBracket)],
        p ∈ Lexer.marks ∧ closes p.2 = true := by decide
    obtain ⟨hm, hk⟩ := hall _ hc
    have hn := (@Lexer.front_of_mark ⟨⟨n, c :: cs⟩, bit⟩ [] cs false c k hm rfl .none).next
    refine ⟨⟨_, congrArg Lexer.Step.outcome hn⟩, ?_⟩
    rw [Lexer.hand_of_outcome (congrArg Lexer.Step.outcome hn)]
    exact hk

theorem Closer.endsAssignment (h : Closer y) (n : Nat) (bit : Bool) :
    endsAssignment (Lexer.hand ⟨⟨n, y⟩, bit⟩) :=
  endsAssignment_of_kind rfl (h.hand n bit).2

/-! ## Other places in front of a token -/

theorem hand_eq_of_next (h : l.next = m.next) : l.hand = m.hand := by
  unfold Lexer.hand
  rw [h]

theorem ready_of_next (h : l.next = m.next) (hm : m.Ready) : l.Ready := by
  unfold Lexer.Ready
  rw [h]
  exact hm

/-- Where the same is read, the same token is taken. -/
theorem takes_of_next (h : l.next = m.next) (ht : m.Takes k l') : l.Takes k l' := by
  have hh := hand_eq_of_next h
  exact ⟨⟨ready_of_next h ht.ready, hh ▸ ht.more, h ▸ ht.after, ht.ready'⟩, hh ▸ ht.kind⟩

/-- A blank in front of a token says nothing. -/
theorem next_blank {r : List Char} {bit : Bool} (h : Lexer.Ready ⟨⟨n + 1, r⟩, bit⟩)
    (hk : (Lexer.hand ⟨⟨n + 1, r⟩, bit⟩).kind ≠ .eof) :
    Lexer.next ⟨⟨n, ' ' :: r⟩, bit⟩ = Lexer.next ⟨⟨n + 1, r⟩, bit⟩ := by
  obtain ⟨g, t, x, v, hf⟩ := Lexer.front_of_next h.outcome hk
  have hb : Lexer.Front ⟨⟨n, ' ' :: r⟩, bit⟩ (' ' :: g) t x _ v _ :=
    ⟨congrArg (' ' :: ·) hf.rest, .space (by decide) hf.gap, hf.bare, hf.some, hf.scan⟩
  have hp : n + Text.byteLength (' ' :: g) = n + 1 + Text.byteLength g := by
    rw [Text.byteLength_cons, show (' ').utf8Size = 1 from rfl, Nat.add_assoc]
  rw [hf.next, hb.next]
  dsimp only
  rw [hp]
  rfl

/-- **Where the same is read, there is the same expression**, and it ends at a place that no reading can tell apart. -/
theorem Derives.of_next (h : Derives b .assignment m e l') (hm : m.Ready) (hn : l.next = m.next) :
    ∃ l'', Derives b .assignment l e l'' ∧ l''.state b = l'.state b := by
  have hh := hand_eq_of_next hn
  have hs : l.state b = { m.state b with previousEnd := l.cursor.pos } := by
    unfold Lexer.state
    rw [hh, hn]
  have hread : rules (m.left + 1) .assignment (m.state b) = .done e (l'.state b) := h.complete m.left (Nat.le_refl _)
  have hleft : rules (m.left + 1) .assignment (l.state b) = .done e (l'.state b) := by
    rw [hs, ← hread]
    exact fresh_assignment (m.state b) _ m.hand.newlineBefore
  obtain ⟨l'', -, hs', hd⟩ := rules_sound (m.left + 1) .assignment b l (ready_of_next hn hm) e _ hleft
  exact ⟨l'', hd, hs'.symm⟩

/-! ## Texts that are expressions -/

/-- **What is an expression by itself is one in front of what closes it.** -/
theorem Derives.in_context {t : List Char} (h : Derives false .assignment (.ofSource t) e l') (hl : l'.cursor.rest = [])
    (hy : Closer y) (n : Nat) :
    ∃ l'' bit, Derives false .assignment ⟨⟨n, t ++ y⟩, true⟩ (e.move (.right n)) l'' ∧
      l'' = ⟨⟨n + Text.byteLength t, y⟩, bit⟩ := by
  have hend : swap n [] y l' = ⟨⟨l'.cursor.pos + n, y⟩, l'.regexAllowed⟩ := @Lexer.swap_eq l' [] [] hl n y
  have hstart : swap n [] y (.ofSource t) = ⟨⟨n, t ++ y⟩, true⟩ := by
    rw [@Lexer.swap_eq (.ofSource t) t [] (List.append_nil t).symm]
    simp [Lexer.ofSource]
  have hc : Cut n [] y l' :=
    ⟨hl, hy.fence, fun h => absurd h hy.ne_slash, hend ▸ (hy.hand _ _).1⟩
  have hd := h.cut hc (hend ▸ hy.endsAssignment _ _)
  have hpos : l'.cursor.pos = Text.byteLength t := by
    obtain ⟨s, hr, hp⟩ := h.goes.before
    rw [hl, List.append_nil] at hr
    rw [hp, ← hr]
    exact Nat.zero_add _
  rw [hstart] at hd
  refine ⟨_, l'.regexAllowed, hd, ?_⟩
  rw [hend, hpos, Nat.add_comm]

end Readback.Grammar
