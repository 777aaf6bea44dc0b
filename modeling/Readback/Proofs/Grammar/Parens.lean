import Readback.Proofs.Grammar.Climb
/-!
# Text in parentheses

What is read of a text is read of it in parentheses too, one byte further to the right.
-/
namespace Readback.Grammar

open Token (Kind Gap Fence)
open Lexer (swap)

variable {b newline : Bool} {pre x y g : List Char} {l l' : Lexer} {e : Expr}

theorem ready_of_rest_eq_nil (h : l.cursor.rest = []) : l.Ready ∧ l.hand.kind = .eof := by
  have hn := Lexer.next_of_nil h
  exact ⟨⟨_, congrArg Lexer.Step.outcome hn⟩, by rw [Lexer.hand_of_outcome (congrArg Lexer.Step.outcome hn)]⟩

/-- The text of an expression that is at the end of a text. -/
theorem Derives.stop_of_rest_eq_nil {cs : List Char} (h : Derives b .expression (.ofSource cs) e l')
    (hl : l'.cursor.rest = []) : l'.cursor.pos = Text.byteLength cs := by
  obtain ⟨t, hr, hp⟩ := h.goes.before
  rw [hl, List.append_nil] at hr
  rw [hp, ← hr]
  exact Nat.zero_add _

/-- The opening parenthesis is taken. -/
theorem takes_open (h : (swap 1 x y (.ofSource (pre ++ x))).Ready) :
    (Lexer.ofSource ('(' :: (pre ++ y))).Takes .lParen (swap 1 x y (.ofSource (pre ++ x))) := by
  have hs : swap 1 x y (.ofSource (pre ++ x)) = ⟨⟨1, pre ++ y⟩, true⟩ := Lexer.swap_eq rfl 1 y
  rw [hs] at h ⊢
  exact takes_of_front (l := .ofSource ('(' :: (pre ++ y)))
    (Lexer.front_of_mark (c := '(') (k := .lParen) (by decide) rfl .none) nofun h

/-- The closing parenthesis is taken, and behind it is the end of the text. -/
theorem takes_close (hg : Gap g newline) :
    ∃ m, (swap 1 l.cursor.rest (g ++ [')']) l).Takes .rParen m ∧ m.cursor.rest = [] := by
  have hs : swap 1 l.cursor.rest (g ++ [')']) l = ⟨⟨l.cursor.pos + 1, g ++ [')']⟩, l.regexAllowed⟩ :=
    @Lexer.swap_eq l [] _ rfl 1 _
  rw [hs]
  exact ⟨_, takes_of_front (Lexer.front_of_mark (c := ')') (k := .rParen) (by decide) rfl hg) nofun
    (ready_of_rest_eq_nil rfl).1, rfl⟩

/-- A text may be cut in front of a closing parenthesis. -/
theorem cut_of_gap (hg : Gap g newline) (hf : Fence l.cursor.rest (g ++ [')']))
    (hs : (g ++ [')']).head? = some '/' → l.regexAllowed = false) : Cut 1 l.cursor.rest (g ++ [')']) l := by
  obtain ⟨m, hm, -⟩ := takes_close hg
  exact ⟨rfl, hf, fun h _ => hs h, hm.ready⟩

/-- **An expression in parentheses is a group.** -/
theorem Derives.grouped (h : Derives b .expression (.ofSource (pre ++ l'.cursor.rest)) e l') (hg : Gap g newline)
    (c : Cut 1 l'.cursor.rest (g ++ [')']) l') :
    (Lexer.ofSource ('(' :: (pre ++ (g ++ [')'])))).Ready ∧ ∃ m, m.cursor.rest = [] ∧
      Derives b .expression (.ofSource ('(' :: (pre ++ (g ++ [')']))))
        (.group ⟨0, Text.byteLength ('(' :: (pre ++ (g ++ [')'])))⟩ (e.move (.right 1))) m := by
  obtain ⟨m, hclose, hm⟩ := takes_close (l := l') hg
  have hopen := takes_open (c.ready_of_goes h.goes)
  have hd := h.cut c (endsExpression_of_kind hclose.kind rfl nofun)
  have hgroup := (Derives.group hopen hd hclose).expression_of_primary (by rw [hopen.kind]; rfl)
    (endsExpression_of_kind (ready_of_rest_eq_nil hm).2 rfl nofun)
  refine ⟨hopen.ready, m, hm, ?_⟩
  have hspan : (Lexer.ofSource ('(' :: (pre ++ (g ++ [')'])))).upTo m =
      ⟨0, Text.byteLength ('(' :: (pre ++ (g ++ [')'])))⟩ := by
    have hn := (Lexer.front_of_mark (l := .ofSource ('(' :: (pre ++ (g ++ [')'])))) (g := []) (c := '(') (k := .lParen)
      (by decide) rfl .none).next
    rw [Lexer.upTo, hand_of_next hn rfl, hgroup.stop_of_rest_eq_nil hm]
    rfl
  rw [← hspan]
  exact hgroup

end Readback.Grammar
