import Readback.Proofs.Grammar.Read
import Readback.Proofs.Grammar.Start
import Readback.Proofs.Snippet.Inert
import Readback.Snippet
/-!
# What may follow an expression

Behind an expression there may be a program of nothing but empty statements, that is, text that says nothing.
-/
namespace Readback

namespace Grammar

open Lexer (Semicolons)

variable {l l' : Lexer} {b : Bool}

/-- An empty statement is a semicolon. -/
theorem takes_of_empty {x : Stmt} (h : Derives b .statement l x l') (hx : x.isEmpty = true) : l.Takes .semicolon l' := by
  cases h with
  | empty h₁ => exact h₁
  | _ => cases hx

/-- **A program of empty statements is semicolons.** -/
theorem semicolons_of_derivesAll {body : List Stmt} (h : DerivesAll l body l') (hl : l.Ready)
    (hb : ∀ x ∈ body, x.isEmpty = true) : Semicolons l := by
  induction h with
  | done hk => exact .done hl.outcome hk
  | more hk h₁ _ ih =>
    have ht := takes_of_empty h₁ (hb _ List.mem_cons_self)
    refine .more hl.outcome ht.kind ?_
    rw [← ht.after]
    exact ih ht.ready' fun x hx => hb x (List.mem_cons_of_mem _ hx)

theorem ready_of_semicolons (h : Semicolons l) : l.Ready := by
  cases h with
  | done h => exact ⟨_, h⟩
  | more h => exact ⟨_, h⟩

theorem derivesAll_of_semicolons (h : Semicolons l) :
    ∃ body l', DerivesAll l body l' ∧ ∀ x ∈ body, x.isEmpty = true := by
  induction h with
  | @done l t h hk => exact ⟨[], l, .done (by rw [Lexer.hand_of_outcome h, hk]), nofun⟩
  | @more l t h hk h' ih =>
    obtain ⟨body, l', hd, hb⟩ := ih
    have hk' : l.hand.kind = .semicolon := by rw [Lexer.hand_of_outcome h, hk]
    have ht : l.Takes .semicolon l.next.after :=
      ⟨⟨⟨t, h⟩, by rw [hk']; nofun, rfl, ready_of_semicolons h'⟩, hk'⟩
    refine ⟨_ :: body, l', .more (by rw [hk']; nofun) (.empty ht) hd, ?_⟩
    simpa [Stmt.isEmpty] using hb

/-- In front of semicolons a statement ends, with the first of them or at the end of the text. -/
theorem ending_of_semicolons (h : Semicolons l) :
    l.hand.kind ≠ .colon ∧ ∃ l₁, Derives b .ending l () l₁ ∧ Semicolons l₁ := by
  cases h with
  | @done _ t ho hk =>
    have hk' : l.hand.kind = .eof := by rw [Lexer.hand_of_outcome ho, hk]
    exact ⟨by simp [hk'], l, .lineEnd (by simp [hk']) (by simp [endsStatement, hk']), .done ho hk⟩
  | @more _ t ho hk h' =>
    have hk' : l.hand.kind = .semicolon := by rw [Lexer.hand_of_outcome ho, hk]
    have ht : l.Takes .semicolon l.next.after := ⟨⟨⟨t, ho⟩, by rw [hk']; nofun, rfl, ready_of_semicolons h'⟩, hk'⟩
    exact ⟨by simp [hk'], _, .semicolon ht, h'⟩

/-- **An expression and semicolons are a program**: a statement that is the expression, and empty ones. -/
theorem derivesAll_of_expression {e : Expr} (h : Derives false .expression l e l')
    (ho : opensStatement l.hand.kind = false) (hs : Semicolons l') :
    ∃ span rest m, DerivesAll l (.expression span e :: rest) m ∧ ∀ x ∈ rest, x.isEmpty = true := by
  have hn : l.hand.kind ≠ .eof := fun hk => by
    have := h.led.not_closes
    rw [hk] at this
    cases this
  obtain ⟨hk, l₁, he, hs₁⟩ := ending_of_semicolons hs
  obtain ⟨rest, m, hd, hrest⟩ := derivesAll_of_semicolons hs₁
  exact ⟨_, rest, m, .more hn (.expressionStatement ho h (by simp [hk]) he) hd, hrest⟩

end Grammar

namespace Snippet

open Grammar
open Lexer (Semicolons)
open Token (Inert)

theorem dropWhile_isEmpty {body : List Stmt} : body.dropWhile Stmt.isEmpty = [] ↔ ∀ x ∈ body, x.isEmpty = true := by
  rw [List.dropWhile_eq_nil_iff]

/-- **The text behind an expression may be there when it says nothing.** -/
theorem remainderFault_iff {cs : List Char} : remainderFault? (parseProgram (String.ofList cs)) = none ↔ Inert cs := by
  have hcs : (String.ofList cs).toList = cs := String.toList_ofList
  have hin : Semicolons (.ofSource cs) ↔ Inert cs := Lexer.semicolons_iff_inert
  rw [← hin]
  constructor
  · intro h
    cases hp : parseProgram (String.ofList cs) with
    | error d =>
      rw [hp] at h
      cases h
    | ok p =>
      rw [hp] at h
      obtain ⟨hl, body, l', hd, rfl⟩ := parseProgram_eq_ok.1 hp
      rw [hcs] at hl hd
      refine semicolons_of_derivesAll hd hl (dropWhile_isEmpty.1 ?_)
      by_contra hne
      unfold remainderFault? at h
      dsimp only at h
      rw [if_neg (by simp), if_pos hne] at h
      cases h
  · intro h
    obtain ⟨body, l', hd, hb⟩ := derivesAll_of_semicolons h
    have hp : parseProgram (String.ofList cs) = _ :=
      parseProgram_eq_ok.2 ⟨by rw [hcs]; exact ready_of_semicolons h, body, l', by rw [hcs]; exact hd, rfl⟩
    rw [hp]
    unfold remainderFault?
    dsimp only
    rw [if_neg (by simp), if_neg (by simp [dropWhile_isEmpty.2 hb])]

end Snippet

end Readback
