import Readback.Proofs.Grammar.Local
import Readback.Proofs.Snippet.Remainder
/-!
# Snippets that are one expression

A snippet that is asked to be one expression is cut behind it, when what is behind it says nothing.
-/
namespace Readback

open Token (Inert)
open Lexer (swap)

/-! ## The text of an expression -/

namespace Grammar

theorem parseExpressionAt_zero {source : String} {e : Expr} :
    parseExpressionAt source 0 = .ok e ↔ (Lexer.ofSource source.toList).Ready ∧
      ∃ l', l'.Ready ∧ Derives false .expression (.ofSource source.toList) e l' := by
  have hat : Lexer.at? source.toList 0 = some (.ofSource source.toList) := at?_byteLength [] source.toList
  rw [parseExpressionAt_eq_ok]
  constructor
  · rintro ⟨l, hl, h⟩
    cases hat.symm.trans hl
    exact h
  · exact fun h => ⟨_, hat, h⟩

/-- **An expression is one by itself**, without the text behind it. -/
theorem parse_truncated {text tail : List Char} {e : Expr} {l' : Lexer} (hl : l'.cursor.rest = tail)
    (h : Derives false .expression (.ofSource (text ++ tail)) e l') :
    parseExpressionAt (String.ofList text) 0 = .ok e := by
  subst hl
  obtain ⟨hc, hk⟩ := Cut.atEnd l'
  have := @parse_of_cut [] text [] l' e h hc (endsExpression_of_kind hk rfl nofun)
  rwa [List.nil_append, List.append_nil] at this

/-- **An expression may be put in parentheses**, and then it is a group. -/
theorem parse_wrapped {text tail : List Char} {e : Expr} {l' : Lexer} (hl : l'.cursor.rest = tail)
    (h : Derives false .expression (.ofSource (text ++ tail)) e l') :
    parseExpressionAt (String.ofList ('(' :: text ++ [')'])) 0 =
      .ok (.group ⟨0, Text.byteLength text + 2⟩ (e.move (.right 1))) := by
  subst hl
  have hc := cut_of_gap (l := l') .none (.of_mem (by decide) _ _) nofun
  obtain ⟨hl, m, hm, hd⟩ := h.grouped .none hc
  have hb : Text.byteLength ('(' :: (text ++ ([] ++ [')']))) = Text.byteLength text + 2 := by
    rw [Text.byteLength_cons, Text.byteLength_append, Nat.add_comm]
    rfl
  rw [hb] at hd
  rw [parseExpressionAt_zero, String.toList_ofList]
  exact ⟨hl, m, (ready_of_rest_eq_nil hm).1, hd⟩

end Grammar

/-! ## Normalizing -/

open Grammar Snippet

variable {source t : String} {e : Expr} {text tail : List Char}

/-- What an expression is normalized to, given its text and the text behind it. -/
def remnant (e : Expr) (text tail : List Char) : Except Diagnostic String :=
  let start := Text.byteLength text + Text.byteLength (tail.takeWhile Text.isBlank)
  if Text.trim tail = [] then .ok (wrap e (String.ofList text))
  else
    match remainderFault? (parseProgram (String.ofList (Text.trim tail))) with
    | none                => .ok (wrap e (String.ofList text))
    | some (fault, notes) =>
      .error ⟨.normalize, fault.message, some ⟨start, start + Text.byteLength (Text.trim tail)⟩, notes⟩

theorem normalize_true (source : String) :
    normalize source true =
      match parseExpressionAt source 0 with
      | .error d => .error d
      | .ok e    =>
        remnant e ((Text.takeBytes e.span.stop source.toList).getD source.toList)
          ((Text.dropBytes e.span.stop source.toList).getD []) := rfl

theorem remnant_eq_ok : remnant e text tail = .ok t ↔ Inert tail ∧ t = wrap e (String.ofList text) := by
  unfold remnant
  rw [← Token.inert_trim]
  by_cases hr : Text.trim tail = []
  · rw [if_pos hr, hr]
    have hn : Inert [] := .bare Token.bare_nil
    constructor
    · intro h
      exact ⟨hn, (Except.ok.inj h).symm⟩
    · rintro ⟨-, rfl⟩
      rfl
  · rw [if_neg hr, ← remainderFault_iff]
    cases hf : remainderFault? (parseProgram (String.ofList (Text.trim tail))) with
    | none =>
      constructor
      · intro h
        exact ⟨rfl, (Except.ok.inj h).symm⟩
      · rintro ⟨-, rfl⟩
        rfl
    | some f =>
      constructor
      · intro h
        cases h
      · rintro ⟨h, -⟩
        cases h

/-- An expression that is read off a text, and where it ends. -/
structure ReadOff (source : List Char) (e : Expr) (text : List Char) (l' : Lexer) : Prop where
  split   : source = text ++ l'.cursor.rest
  ready   : (Lexer.ofSource source).Ready
  ready'  : l'.Ready
  derives : Derives false .expression (.ofSource source) e l'

theorem readOff_iff : (∃ text l', ReadOff source.toList e text l') ↔ parseExpressionAt source 0 = .ok e := by
  rw [parseExpressionAt_zero]
  constructor
  · rintro ⟨text, l', h⟩
    exact ⟨h.ready, l', h.ready', h.derives⟩
  · rintro ⟨hl, l', hl', hd⟩
    obtain ⟨text, hs, -⟩ := hd.split
    exact ⟨text, l', hs, hl, hl', hd⟩

theorem ReadOff.stop {cs : List Char} {l' : Lexer} (h : ReadOff cs e text l') : e.span.stop = Text.byteLength text := by
  obtain ⟨t, ht, hs⟩ := h.derives.split
  rw [hs, Nat.zero_add, List.append_cancel_right (ht.symm.trans h.split)]

/-- **One expression is accepted** when what is behind it says nothing, and then its text is what is left. -/
theorem normalize_expression_eq_ok :
    normalize source true = .ok t ↔
      ∃ e text l', ReadOff source.toList e text l' ∧ Inert l'.cursor.rest ∧ t = wrap e (String.ofList text) := by
  have hremnant : ∀ {e text l'}, ReadOff source.toList e text l' →
      (normalize source true = .ok t ↔ Inert l'.cursor.rest ∧ t = wrap e (String.ofList text)) := by
    intro e text l' h
    rw [normalize_true, readOff_iff.1 ⟨text, l', h⟩]
    dsimp only
    rw [h.stop, h.split, Text.takeBytes_byteLength_append, Text.dropBytes_byteLength_append]
    exact remnant_eq_ok
  constructor
  · intro h
    cases hp : parseExpressionAt source 0 with
    | error d =>
      rw [normalize_true, hp] at h
      cases h
    | ok e =>
      obtain ⟨text, l', hr⟩ := readOff_iff.2 hp
      exact ⟨e, text, l', hr, (hremnant hr).1 h⟩
  · rintro ⟨e, text, l', hr, h⟩
    exact (hremnant hr).2 h

/-- Reading tokens at the end of a span. -/
theorem ReadOff.resume {cs : List Char} {l' : Lexer} (h : ReadOff cs e text l') :
    (Lexer.resume cs e.span.stop).cursor.rest = l'.cursor.rest := by
  unfold Lexer.resume Lexer.at? Cursor.at?
  rw [h.stop, h.split, Text.dropBytes_byteLength_append]
  rfl

/-- The text of an expression, in parentheses if need be, has the tree of the expression. -/
theorem ReadOff.parse_wrap {cs : List Char} {l' : Lexer} (h : ReadOff cs e text l') :
    parseExpressionAt (wrap e (String.ofList text)) 0 =
      .ok (if e.needsParens then .group ⟨0, Text.byteLength (wrap e (String.ofList text)).toList⟩ (e.move (.right 1))
        else e) := by
  have hd := h.derives
  rw [h.split] at hd
  unfold wrap
  split
  · have hs : "(" ++ String.ofList text ++ ")" = String.ofList ('(' :: text ++ [')']) := by
      rw [String.ofList_append, String.ofList_cons]
      rfl
    have hb : Text.byteLength ('(' :: text ++ [')']) = Text.byteLength text + 2 := by
      rw [List.cons_append, Text.byteLength_cons, Text.byteLength_append, Nat.add_comm]
      rfl
    rw [hs, parse_wrapped rfl hd, String.toList_ofList, hb]
  · exact parse_truncated rfl hd

/-- The text of an expression, in parentheses if need be, is read to its end. -/
theorem ReadOff.stop_wrap {cs : List Char} {l' : Lexer} (h : ReadOff cs e text l') :
    (if e.needsParens then .group ⟨0, Text.byteLength (wrap e (String.ofList text)).toList⟩ (e.move (.right 1))
      else e : Expr).span.stop = Text.byteLength (wrap e (String.ofList text)).toList := by
  unfold wrap
  split
  · rfl
  · rw [String.toList_ofList, h.stop]

/-- **One expression is accepted exactly when nothing but semicolons is behind it, and its tree is kept.** -/
theorem normalize_expression_exact (source : String) :
    ((∃ t, normalize source true = .ok t) ↔
      ∃ e, parseExpressionAt source 0 = .ok e ∧
        ∃ (semis : List Token) (last : Token),
          (Lexer.resume source.toList e.span.stop).allTokens = semis.map .ok ++ [.ok last] ∧
            (∀ u ∈ semis, u.kind = .semicolon) ∧ last.kind = .eof) ∧
    ∀ t e, normalize source true = .ok t → parseExpressionAt source 0 = .ok e →
      ∃ e', parseExpressionAt t 0 = .ok e' ∧ e'.span.stop = Text.byteLength t.toList ∧
        e' = if e.needsParens then .group ⟨0, Text.byteLength t.toList⟩ (e.move (.right 1)) else e := by
  constructor
  · constructor
    · rintro ⟨t, h⟩
      obtain ⟨e, text, l', hr, hi, -⟩ := normalize_expression_eq_ok.1 h
      refine ⟨e, readOff_iff.1 ⟨text, l', hr⟩, Lexer.semicolons_iff_tokens.1 (Lexer.semicolons_iff_inert.2 ?_)⟩
      rwa [hr.resume]
    · rintro ⟨e, hp, ht⟩
      obtain ⟨text, l', hr⟩ := readOff_iff.2 hp
      have hi := Lexer.semicolons_iff_inert.1 (Lexer.semicolons_iff_tokens.2 ht)
      rw [hr.resume] at hi
      exact ⟨_, normalize_expression_eq_ok.2 ⟨e, text, l', hr, hi, rfl⟩⟩
  · intro t e h hp
    obtain ⟨e₀, text, l', hr, -, rfl⟩ := normalize_expression_eq_ok.1 h
    cases hp.symm.trans (readOff_iff.1 ⟨text, l', hr⟩)
    exact ⟨_, hr.parse_wrap, hr.stop_wrap, rfl⟩

end Readback
