import Readback.Proofs.Grammar.Parens
import Readback.Proofs.Grammar.Read
/-!
# What is read of a text

An expression is read off the text from where it starts to the end of its span, and of what is behind it only that it goes
no further is asked.  So the text may be cut there, and it may go on with a semicolon and whatever else.
-/
namespace Readback

namespace Text

/-- What is left of a text from an offset on has so many bytes of the text in front of it. -/
theorem exists_append_of_dropBytes {n : Nat} {cs rest : List Char} (h : dropBytes n cs = some rest) :
    ∃ pre, cs = pre ++ rest ∧ byteLength pre = n := by
  induction cs generalizing n with
  | nil =>
    cases n with
    | zero => exact ⟨[], by simpa using h, rfl⟩
    | succ n => cases h
  | cons c cs ih =>
    cases n with
    | zero => exact ⟨[], by simpa using h, rfl⟩
    | succ n =>
      unfold dropBytes at h
      split at h
      · obtain ⟨pre, rfl, hp⟩ := ih h
        exact ⟨c :: pre, rfl, by rw [byteLength_cons]; omega⟩
      · cases h

end Text

namespace Grammar

open Token (Kind)
open Lexer (swap)

variable {pre text rest y : List Char} {l l' : Lexer} {e : Expr} {c : Char} {k : Kind}

/-! ## Places in a text -/

theorem at?_byteLength (pre rest : List Char) :
    Lexer.at? (pre ++ rest) (Text.byteLength pre) = some ⟨⟨Text.byteLength pre, rest⟩, true⟩ := by
  unfold Lexer.at? Cursor.at?
  rw [Text.dropBytes_byteLength_append]
  rfl

/-- An expression is the text from its start to the end of its span. -/
theorem Derives.split {n : Nat} {bit : Bool} {cs : List Char} (h : Derives false .expression ⟨⟨n, cs⟩, bit⟩ e l') :
    ∃ text, cs = text ++ l'.cursor.rest ∧ e.span.stop = n + Text.byteLength text := by
  obtain ⟨text, hr, hp⟩ := h.goes.before
  have hs : e.span = Lexer.upTo _ l' := h.spanned
  exact ⟨text, hr, by rw [hs]; exact hp⟩

/-- **An expression that is read at a place** is read of a piece of the text that ends where its span does. -/
theorem exists_text_of_parse {source : String} {offset : Nat} (h : parseExpressionAt source offset = .ok e) :
    ∃ pre text l', source.toList = pre ++ (text ++ l'.cursor.rest) ∧ offset = Text.byteLength pre ∧
      e.span.stop = Text.byteLength (pre ++ text) ∧
      Derives false .expression ⟨⟨Text.byteLength pre, text ++ l'.cursor.rest⟩, true⟩ e l' := by
  obtain ⟨l, hl, -, l', -, hd⟩ := parseExpressionAt_eq_ok.1 h
  obtain ⟨_, hc, rfl⟩ := Option.map_eq_some_iff.1 hl
  obtain ⟨cs, hcs, rfl⟩ := Option.map_eq_some_iff.1 hc
  obtain ⟨pre, hpre, rfl⟩ := Text.exists_append_of_dropBytes hcs
  obtain ⟨text, rfl, hstop⟩ := hd.split
  exact ⟨pre, text, l', hpre, rfl, by rw [hstop, Text.byteLength_append], hd⟩

/-! ## Another text behind -/

/-- **An expression is there whatever the text goes on with**, as long as it may end in front of that. -/
theorem parse_of_cut (h : Derives false .expression ⟨⟨Text.byteLength pre, text ++ l'.cursor.rest⟩, true⟩ e l')
    (c : Cut 0 l'.cursor.rest y l') (he : endsExpression (swap 0 l'.cursor.rest y l').hand) :
    parseExpressionAt (String.ofList (pre ++ (text ++ y))) (Text.byteLength pre) = .ok e := by
  have hstart : swap 0 l'.cursor.rest y ⟨⟨Text.byteLength pre, text ++ l'.cursor.rest⟩, true⟩ =
      ⟨⟨Text.byteLength pre, text ++ y⟩, true⟩ := Lexer.swap_eq rfl 0 y
  have hd := h.cut c he
  have hmove : Phrase.move (.right 0) .expression e = e := Phrase.move_stay .expression e
  rw [hstart, hmove] at hd
  rw [parseExpressionAt_eq_ok, String.toList_ofList]
  exact ⟨_, at?_byteLength _ _, hstart ▸ c.ready_of_goes h.goes, _, c.ready, hd⟩

/-- A text may be cut anywhere. -/
theorem Cut.atEnd (l : Lexer) :
    Cut 0 l.cursor.rest [] l ∧ (swap 0 l.cursor.rest [] l).hand.kind = .eof := by
  have hr : (swap 0 l.cursor.rest [] l).cursor.rest = [] := by
    rw [@Lexer.swap_eq l [] _ rfl]
    rfl
  have hend := ready_of_rest_eq_nil hr
  exact ⟨⟨rfl, .nil _, nofun, hend.1⟩, hend.2⟩

/-- A text may go on with a semicolon anywhere. -/
theorem Cut.atSemicolon (l : Lexer) (rest : List Char) :
    Cut 0 l.cursor.rest (';' :: rest) l ∧ (swap 0 l.cursor.rest (';' :: rest) l).hand.kind = .semicolon := by
  have hs : swap 0 l.cursor.rest (';' :: rest) l = ⟨⟨l.cursor.pos, ';' :: rest⟩, l.regexAllowed⟩ :=
    @Lexer.swap_eq l [] _ rfl 0 _
  have hn := (Lexer.front_of_mark (l := ⟨⟨l.cursor.pos, ';' :: rest⟩, l.regexAllowed⟩) (g := []) (c := ';')
    (k := .semicolon) (by decide) rfl .none).next
  refine ⟨⟨rfl, .of_mem (by decide) _ _, fun h => absurd (Option.some.inj h) (by decide), ?_⟩, ?_⟩
  · rw [hs]
    exact ⟨_, congrArg Lexer.Step.outcome hn⟩
  · rw [hs, hand_of_next hn rfl]

end Grammar

open Grammar

/-- **An expression is local**: when the text is cut at the end of its span, it is the same one, and so it is when a
semicolon stands there and any text behind it. -/
theorem parseExpressionAt_local {source : String} {offset : Nat} {e : Expr} (h : parseExpressionAt source offset = .ok e) :
    ∃ text, Text.takeBytes e.span.stop source.toList = some text ∧
      parseExpressionAt (String.ofList text) offset = .ok e ∧
      ∀ rest : String, parseExpressionAt (String.ofList text ++ ";" ++ rest) offset = .ok e := by
  obtain ⟨pre, text, l', hs, rfl, hstop, hd⟩ := exists_text_of_parse h
  refine ⟨pre ++ text, ?_, ?_, fun rest => ?_⟩
  · rw [hstop, hs, ← List.append_assoc, Text.takeBytes_byteLength_append]
  · obtain ⟨hc, hk⟩ := Cut.atEnd l'
    have := parse_of_cut hd hc (endsExpression_of_kind hk rfl nofun)
    rwa [List.append_nil] at this
  · obtain ⟨hc, hk⟩ := Cut.atSemicolon l' rest.toList
    have ht : String.ofList (pre ++ text) ++ ";" ++ rest = String.ofList (pre ++ (text ++ ';' :: rest.toList)) :=
      String.toList_inj.1 (by simp)
    rw [ht]
    exact parse_of_cut hd hc (endsExpression_of_kind hk rfl nofun)

/-- Neither the slashes nor the brackets in front of the line end matter behind it. -/
theorem parseExpressionAt_local_sample : ∃ e, parseExpressionAt "x = [/]/] / b\n++c" 4 = .ok e ∧
    ∃ text, Text.takeBytes e.span.stop "x = [/]/] / b\n++c".toList = some text ∧
      parseExpressionAt (String.ofList text) 4 = .ok e ∧
      ∀ rest : String, parseExpressionAt (String.ofList text ++ ";" ++ rest) 4 = .ok e := by
  obtain ⟨e, he⟩ := eq_ok_of_isOk (x := parseExpressionAt "x = [/]/] / b\n++c" 4) (by decide +kernel)
  exact ⟨e, he, parseExpressionAt_local he⟩

end Readback
