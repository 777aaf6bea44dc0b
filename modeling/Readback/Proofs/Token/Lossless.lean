import Readback.Proofs.Grammar.Layout
import Readback.Proofs.Grammar.Slices
/-!
# Nothing is lost

Reading token by token covers the text.  Each step goes forward, to a place between two characters, whether it comes to a
token or to a fault, and so the end is reached.  If there is no fault, the tokens stand side by side, and what is between them
and at either end of them is blanks and comments.
-/
namespace Readback

open Text (isBlank endsLine byteLength)

namespace Token

/-- **Text that is skipped** in front of other text: blanks, byte order marks and comments that are complete.  A comment of the
first form is complete where a line ends or the text does. -/
inductive Skipped (behind : List Char) : List Char → Prop
  | none : Skipped behind []
  | blank {c : Char} {g : List Char} (hc : isBlank c = true ∨ c = '\uFEFF') (h : Skipped behind g) : Skipped behind (c :: g)
  | line {body g : List Char} (hb : ∀ c ∈ body, endsLine c = false)
      (hg : ∀ c, (g ++ behind).head? = some c → endsLine c = true) (h : Skipped behind g) :
      Skipped behind ('/' :: '/' :: (body ++ g))
  | block {body g : List Char} (hb : ¬ ['*', '/'] <:+: body) (h : Skipped behind g) :
      Skipped behind ('/' :: '*' :: (body ++ '*' :: '/' :: g))

/-- The place behind the last of the tokens, which are behind a place. -/
def stopOf (offset : Nat) (ts : List Token) : Nat := (ts.getLast?.map (·.span.stop)).getD offset

/-- The token is the next one behind a place: its span is its text, but for what a string spells, and what is between the place
and the token is skipped. -/
structure Placed (source : List Char) (place : Nat) (t : Token) : Prop where
  filled : t.kind ≠ .eof → t.span.start < t.span.stop
  lexeme : t.kind ≠ .string → Text.slice t.span.start t.span.stop source = some t.text.toList
  quoted : t.kind = .string → ∃ quote body, (quote = '"' ∨ quote = '\'') ∧
    Text.slice t.span.start t.span.stop source = some (quote :: (body ++ [quote]))
  gap    : ∃ gap rest, Text.slice place t.span.start source = some gap ∧ Text.dropBytes t.span.start source = some rest ∧
    Skipped rest gap ∧ t.newlineBefore = gap.any endsLine

/-- **The tokens are all of a text from an offset on**: each is the next one behind the one before it, and the last one is at
the end. -/
structure Lossless (source : List Char) (offset : Nat) (ts : List Token) : Prop where
  ends   : ∃ us e, ts = us ++ [e] ∧ e.kind = .eof ∧ e.span = ⟨byteLength source, byteLength source⟩ ∧ ∀ t ∈ us, t.kind ≠ .eof
  behind : ∀ t ∈ ts, offset ≤ t.span.start
  apart  : ts.Pairwise fun t u => t.span.stop ≤ u.span.start
  placed : ∀ us t vs, ts = us ++ t :: vs → Placed source (stopOf offset us) t

variable {cs g behind body v source : List Char} {quote : Char} {nl bit : Bool} {n offset : Nat} {t : Token} {ts : List Token}

/-! ## What is skipped -/

/-- What is in a comment does not close it. -/
theorem not_infix_of_commentBody (h : commentBody? cs = some body) : ¬ ['*', '/'] <:+: body := by
  induction cs using commentBody?.induct generalizing body with
  | case1 cs =>
    cases h
    simp
  | case2 c cs hc ih =>
    rw [commentBody?.eq_2 c cs hc] at h
    obtain ⟨b, hb, rfl⟩ := Option.map_eq_some_iff.1 h
    obtain ⟨⟨w, hw⟩, -⟩ := commentBody_eq_some hb
    rw [List.infix_cons_iff]
    rintro (⟨r, hr⟩ | hr)
    · obtain ⟨rfl, rfl⟩ := List.cons.inj hr
      exact hc _ rfl hw
    · exact ih hb hr
  | case3 => cases h

theorem isBlank_or_of_isSpace {c : Char} (h : isSpace c = true) : isBlank c = true ∨ c = '\uFEFF' := by
  simpa [isSpace] using h

/-- A gap between two tokens is skipped, whatever is behind it. -/
theorem Gap.skipped (h : Gap g nl) (behind : List Char) : Skipped behind g := by
  induction h with
  | none => exact .none
  | space hc _ ih => exact .blank (isBlank_or_of_isSpace hc) ih
  | @line body g nl hb hg _ ih =>
    refine .line hb (fun c hc => ?_) ih
    rcases g with _ | ⟨d, g⟩
    · cases hg
    · cases hc
      exact hg
  | block hb _ ih => exact .block (not_infix_of_commentBody hb) ih

/-- Trivia is skipped at the end of a text. -/
theorem Bare.skipped (h : Bare cs) : Skipped [] cs := by
  refine bare_induction ?line ?block ?space ?nil h
  case line =>
    intro body r hb hr hs
    exact .line hb (by rwa [List.append_nil]) hs
  case block =>
    intro body r hb hs
    exact .block (not_infix_of_commentBody hb) hs
  case space =>
    intro c r hc hs
    exact .blank (isBlank_or_of_isSpace hc) hs
  case nil => exact .none

/-- Behind the trivia in front of an open comment there is the comment. -/
theorem trivia_lt_of_openComment (h : (trivia cs).openComment = true) : (trivia cs).size < cs.length := by
  induction cs using trivia.induct with
  | case1 cs n ih =>
    rw [trivia_line] at h ⊢
    have ih := ih h
    simp only [n, Trivia.after, List.length_cons, List.length_drop] at ih ⊢
    omega
  | case2 cs body hb ih =>
    rw [trivia_block hb] at h ⊢
    have ih := ih h
    simp only [Trivia.after, List.length_cons, List.length_drop] at ih ⊢
    omega
  | case3 cs hb =>
    rw [trivia_open hb]
    exact Nat.succ_pos _
  | case4 c cs h₁ h₂ hs ih =>
    rw [trivia_space hs] at h ⊢
    have ih := ih h
    simp only [Trivia.after, List.length_cons] at ih ⊢
    omega
  | case5 c cs h₁ h₂ hs =>
    rw [trivia_cons_eq_none.2 ⟨by simpa using hs, opensComment_eq_false h₁ h₂⟩] at h
    cases h
  | case6 =>
    rw [trivia_nil] at h
    cases h

/-! ## The text of a string -/

/-- What is read of a string ends with its quote. -/
theorem stringBody_ends (quote : Char) (cs : List Char) : ∀ v : List Char, (stringBody quote cs).outcome = .ok v →
    ∃ body, cs.take (stringBody quote cs).size = body ++ [quote] := by
  fun_induction stringBody quote cs with
  | case1 | case3 | case4 =>
    intro v h
    cases h
  | case2 => exact fun _ _ => ⟨[], rfl⟩
  | case5 cs e spelled he rest h₁ h₂ ih =>
    intro v h
    obtain ⟨w, hw, -⟩ := map_eq_ok h
    obtain ⟨body, hb⟩ := ih w hw
    refine ⟨'\\' :: (cs.take e.size ++ body), ?_⟩
    rw [show rest.size + (e.size + 1) = e.size + rest.size + 1 by omega, List.take_succ_cons, List.take_add, hb,
      List.cons_append, List.append_assoc]
  | case6 c cs rest h₁ h₂ h₃ ih =>
    intro v h
    obtain ⟨w, hw, -⟩ := map_eq_ok h
    obtain ⟨body, hb⟩ := ih w hw
    exact ⟨c :: body, by rw [List.take_succ_cons, hb, List.cons_append]⟩

/-- **The text of a string token is between two quotes of one sort.** -/
theorem exists_quotes_of_scan (h : Lexer.scan bit cs = ⟨n, .ok (.string, v)⟩) :
    ∃ quote body, (quote = '"' ∨ quote = '\'') ∧ cs.take n = quote :: (body ++ [quote]) := by
  rcases cs with _ | ⟨c, cs⟩
  · cases h
  rw [Lexer.scan_cons] at h
  split at h
  · have hk := congrArg Prod.fst (Except.ok.inj (congrArg Scan.outcome h))
    dsimp only at hk
    unfold kindOfName at hk
    split at hk <;> cases hk
  split at h
  · obtain ⟨_, -, he⟩ := map_eq_ok (congrArg Scan.outcome h)
    cases he
  split at h
  · rename_i hc
    have hs := congrArg Scan.size h
    obtain ⟨_, hr, -⟩ := map_eq_ok (congrArg Scan.outcome h)
    obtain ⟨body, hb⟩ := stringBody_ends c cs _ hr
    refine ⟨c, body, hc, ?_⟩
    dsimp only at hs
    rw [← hs, Nat.add_comm, List.take_succ_cons, hb]
  split at h
  · obtain ⟨_, -, he⟩ := map_eq_ok (congrArg Scan.outcome h)
    cases he
  · cases hp : punctuator? (c :: cs) with
    | none =>
      rw [hp] at h
      cases h
    | some p =>
      obtain ⟨w, k⟩ := p
      rw [hp] at h
      cases h
      cases Lexer.isWord_punctuators _ (List.mem_of_find?_eq_some hp)

/-! ## One token behind the other -/

theorem stopOf_cons (offset : Nat) (t : Token) (ts : List Token) : stopOf offset (t :: ts) = stopOf t.span.stop ts := by
  unfold stopOf
  rcases ts with _ | ⟨u, ts⟩
  · rfl
  · rw [List.getLast?_cons_cons, List.getLast?_eq_some_getLast (List.cons_ne_nil u ts)]
    rfl

theorem Placed.le (h : Placed source offset t) : offset ≤ t.span.start := by
  obtain ⟨gap, rest, hs, -⟩ := h.gap
  unfold Text.slice at hs
  split at hs
  · assumption
  · cases hs

theorem Lossless.single (h : Placed source offset t) (hk : t.kind = .eof)
    (hs : t.span = ⟨byteLength source, byteLength source⟩) : Lossless source offset [t] where
  ends := ⟨[], t, rfl, hk, hs, nofun⟩
  behind := by simpa using h.le
  apart := List.pairwise_singleton _ _
  placed us u vs he := by
    rcases us with _ | ⟨w, us⟩
    · cases he
      exact h
    · exact absurd (List.cons.inj he).2.symm (List.append_ne_nil_of_right_ne_nil _ (List.cons_ne_nil _ _))

/-- One token more in front. -/
theorem Lossless.cons (h : Placed source offset t) (hk : t.kind ≠ .eof) (hts : Lossless source t.span.stop ts) :
    Lossless source offset (t :: ts) where
  ends := by
    obtain ⟨us, e, rfl, he, hs, hus⟩ := hts.ends
    exact ⟨t :: us, e, rfl, he, hs, List.forall_mem_cons.2 ⟨hk, hus⟩⟩
  behind := by
    refine List.forall_mem_cons.2 ⟨h.le, fun u hu => ?_⟩
    have h₁ := h.le
    have h₂ := h.filled hk
    have h₃ := hts.behind u hu
    omega
  apart := List.pairwise_cons.2 ⟨hts.behind, hts.apart⟩
  placed us u vs he := by
    rcases us with _ | ⟨w, us⟩
    · cases he
      exact h
    · cases he
      rw [stopOf_cons]
      exact hts.placed us u vs rfl

end Token

namespace Lexer

open Token (Bare Placed Lossless)

variable {l : Lexer} {t : Token} {n : Nat} {ts : List Token} {source : List Char} {offset : Nat}

/-- The lexer after so many calls, whatever they come to. -/
def calls (n : Nat) (l : Lexer) : Lexer := (fun l => l.next.after)^[n] l

/-- The next call comes to the end of the text. -/
def AtEnd (l : Lexer) : Prop := ∃ t, l.next.outcome = .ok t ∧ t.kind = .eof

/-! ## Going forward -/

theorem pos_lt_skip {c : Cursor} (hc : c.rest ≠ []) (hn : 0 < n) : c.pos < (c.skip n).pos := by
  obtain ⟨d, r, hr⟩ := List.exists_cons_of_ne_nil hc
  obtain ⟨n, rfl⟩ := Nat.exists_eq_add_one.2 hn
  have hd : 0 < d.utf8Size := d.utf8Size_pos
  rw [Cursor.skip, hr, List.take_succ_cons, Text.byteLength_cons]
  show c.pos < c.pos + (d.utf8Size + _)
  omega

/-- **Each call goes forward** that does not come to the end. -/
theorem pos_lt_next_after (h : ¬ l.AtEnd) : l.cursor.pos < l.next.after.cursor.pos := by
  have hstart : l.cursor.pos ≤ l.next.start.pos := by
    rw [next_start]
    exact Nat.le_add_right _ _
  refine Nat.lt_of_le_of_lt hstart ?_
  unfold AtEnd at h
  unfold next at h ⊢
  dsimp only at h ⊢
  split
  · rename_i hc
    refine pos_lt_skip ?_ (by omega)
    have := Token.trivia_lt_of_openComment hc
    show l.cursor.rest.drop _ ≠ []
    rw [← List.length_pos_iff, List.length_drop]
    omega
  · rename_i hc
    rw [if_neg hc] at h
    rw [stepOf_after, stepOf_start]
    cases hr : (l.cursor.skip (Token.trivia l.cursor.rest).size).rest with
    | nil =>
      rw [hr] at h
      exact absurd ⟨_, rfl, rfl⟩ h
    | cons c cs =>
      exact pos_lt_skip (by rw [hr]; nofun) (scan_pos _ _ _)

theorem calls_succ (n : Nat) (l : Lexer) : l.calls (n + 1) = (l.calls n).next.after := Function.iterate_succ_apply' _ n l

theorem before_calls (l : Lexer) (n : Nat) : l.Before (l.calls n) := by
  induction n with
  | zero => exact .refl l
  | succ n ih => exact calls_succ n l ▸ ih.trans (before_next_after _)

/-- The text that is left gets shorter. -/
theorem length_next_after_lt (h : ¬ l.AtEnd) : l.next.after.cursor.rest.length < l.cursor.rest.length := by
  obtain ⟨text, hr, hp⟩ := before_next_after l
  have hlt := pos_lt_next_after h
  rcases text with _ | ⟨c, text⟩
  · rw [Text.byteLength_nil] at hp
    omega
  · rw [hr, List.cons_append, List.length_cons, List.length_append]
    omega

/-- **The end is reached**, over faults too. -/
theorem exists_atEnd (l : Lexer) : ∃ n, (l.calls n).AtEnd := by
  generalize hn : l.cursor.rest.length = n
  induction n using Nat.strongRecOn generalizing l with
  | ind n ih =>
    by_cases h : l.AtEnd
    · exact ⟨0, h⟩
    · obtain ⟨m, hm⟩ := ih _ (hn ▸ length_next_after_lt h) l.next.after rfl
      exact ⟨m + 1, hm⟩

/-! ## Covering the text -/

/-- What is read where nothing but trivia is left. -/
theorem outcome_of_bare (h : Bare l.cursor.rest) : l.next.outcome = .ok ⟨.eof, "",
    ⟨l.cursor.pos + byteLength l.cursor.rest, l.cursor.pos + byteLength l.cursor.rest⟩, l.cursor.rest.any endsLine⟩ := by
  have htake : l.cursor.rest.take (Token.trivia l.cursor.rest).size = l.cursor.rest :=
    List.take_of_length_le (List.drop_eq_nil_iff.1 h.2)
  have hr : (l.cursor.skip (Token.trivia l.cursor.rest).size).rest = [] := h.2
  unfold next
  dsimp only
  rw [h.1, if_neg (by simp), hr, Token.newline_of_bare h]
  unfold Cursor.skip
  rw [htake]
  rfl

/-- What is left, cut out and in front of nothing. -/
theorem placed_of_bare (hl : (ofSource source).Before l) (h : Bare l.cursor.rest) (ht : l.next.outcome = .ok t) :
    Placed source l.cursor.pos t ∧ t.kind = .eof ∧ t.span = ⟨byteLength source, byteLength source⟩ := by
  have hend : l.cursor.pos + byteLength l.cursor.rest = byteLength source := by
    obtain ⟨pre, rfl, hp⟩ := hl.split
    rw [hp, Text.byteLength_append]
  have hnil := Text.dropBytes_byteLength_append source []
  rw [List.append_nil] at hnil
  rw [outcome_of_bare h, hend] at ht
  cases ht
  refine ⟨⟨fun hk => absurd rfl hk, fun _ => ?_, nofun, l.cursor.rest, [], ?_, hnil, h.skipped, rfl⟩, rfl, rfl⟩
  · unfold Text.slice
    dsimp only
    rw [if_pos (Nat.le_refl _), hnil, Nat.sub_self]
    rfl
  · rw [← hend]
    exact hl.slice (List.append_nil _).symm

/-- What is read is the next token behind the place. -/
theorem placed_of_front {g s x v : List Char} (hl : (ofSource source).Before l)
    (hf : l.Front g s x t.kind v t.newlineBefore) (ht : l.next.outcome = .ok t) : Placed source l.cursor.pos t := by
  obtain ⟨pre, rfl, hp⟩ := hl.split
  have hspan : t.span = ⟨byteLength (pre ++ g), byteLength (pre ++ g) + byteLength s⟩ ∧ t.text = String.ofList v := by
    rw [hf.next] at ht
    have ht := Except.ok.inj ht
    rw [Text.byteLength_append, ← hp]
    exact ⟨(congrArg Token.span ht).symm, (congrArg Token.text ht).symm⟩
  obtain ⟨hspan, htext⟩ := hspan
  have hslice : Text.slice t.span.start t.span.stop (pre ++ l.cursor.rest) = some s := by
    rw [hspan, hf.rest, ← List.append_assoc]
    exact Text.slice_piece _ _ _
  have hscan := hf.scan
  have htake : (s ++ x).take s.length = s := List.take_left
  refine ⟨fun _ => ?_, fun hk => ?_, fun hk => ?_, g, s ++ x, ?_, ?_, hf.gap.skipped _, hf.gap.any_endsLine.symm⟩
  · rw [hspan]
    have := Token.byteLength_eq_zero.not.2 hf.some
    dsimp only
    omega
  · rw [hslice, htext, String.toList_ofList, Token.scan_text hscan hk, htake]
  · rw [hk] at hscan
    obtain ⟨quote, body, hq, hs⟩ := Token.exists_quotes_of_scan hscan
    exact ⟨quote, body, hq, hslice.trans (congrArg some (htake.symm.trans hs))⟩
  · rw [hspan, hp, hf.rest, Text.byteLength_append]
    exact Text.slice_piece _ _ _
  · rw [hspan, hf.rest, ← List.append_assoc]
    exact Text.dropBytes_byteLength_append _ _

/-- **The tokens up to the end are all of the text.** -/
theorem lossless_of_tokens {n : Nat} (hl : (ofSource source).Before l) (hn : l.cursor.rest.length < n)
    (h : l.tokens n = ts.map .ok) : Lossless source l.cursor.pos ts := by
  induction n generalizing l ts with
  | zero => omega
  | succ n ih =>
    rw [tokens] at h
    cases ho : l.next.outcome with
    | error d =>
      rw [ho] at h
      rcases ts with _ | ⟨t, ts⟩ <;> cases h
    | ok t =>
      rw [ho] at h
      dsimp only at h
      by_cases hk : t.kind = .eof
      · rw [if_pos hk] at h
        obtain ⟨u, rfl, hu⟩ := List.map_eq_singleton_iff.1 h.symm
        obtain rfl := Except.ok.inj hu
        obtain ⟨hp, -, hs⟩ := placed_of_bare hl (eof_iff_bare.1 ⟨u, ho, hk⟩) ho
        exact .single hp hk hs
      · rw [if_neg hk] at h
        obtain ⟨u, us, rfl, hu, hus⟩ := List.map_eq_cons_iff.1 h.symm
        obtain rfl := Except.ok.inj hu
        obtain ⟨g, s, x, v, hf⟩ := front_of_next ho hk
        have hend : ¬ l.AtEnd := by
          rintro ⟨w, hw, hk'⟩
          cases ho.symm.trans hw
          exact hk hk'
        have hlt := length_next_after_lt hend
        refine .cons (placed_of_front hl hf ho) hk ?_
        rw [next_span ho]
        exact ih (hl.trans (before_next_after l)) (by omega) hus.symm

theorem exists_tokens_of_ok {os : List (Except Diagnostic Token)} (h : ∀ d, .error d ∉ os) :
    ∃ ts : List Token, os = ts.map .ok := by
  induction os with
  | nil => exact ⟨[], rfl⟩
  | cons o os ih =>
    obtain ⟨ts, hts⟩ := ih fun d hd => h d (List.mem_cons_of_mem _ hd)
    cases o with
    | error d => exact absurd List.mem_cons_self (h d)
    | ok t => exact ⟨t :: ts, congrArg (.ok t :: ·) hts⟩

/-- **Reading token by token loses nothing**, from whatever place of a text.  A call that does not come to the end goes forward,
to a place of the text, and calls enough come to the end.  If none of them fails, the tokens are all of the text. -/
theorem allTokens_lossless (h : Text.isBoundary offset source = true) : ∃ l, at? source offset = some l ∧
    (∀ n, ¬ (l.calls n).AtEnd → (l.calls n).cursor.pos < (l.calls (n + 1)).cursor.pos ∧
      Text.isBoundary (l.calls (n + 1)).cursor.pos source = true) ∧
    (∃ n, (l.calls n).AtEnd) ∧
    ((∀ d, .error d ∉ l.allTokens) → ∃ ts, l.allTokens = ts.map .ok ∧ Lossless source offset ts) := by
  obtain ⟨r, hr⟩ := Option.isSome_iff_exists.1 h
  have hat : at? source offset = some ⟨⟨offset, r⟩, true⟩ := by
    unfold at? Cursor.at?
    rw [hr]
    rfl
  have hl := before_of_at hat
  refine ⟨_, hat, fun n hn => ⟨?_, (hl.trans (before_calls _ _)).isBoundary.1⟩, exists_atEnd _, fun hok => ?_⟩
  · rw [calls_succ]
    exact pos_lt_next_after hn
  · obtain ⟨ts, hts⟩ := exists_tokens_of_ok hok
    exact ⟨ts, hts, lossless_of_tokens hl (Nat.lt_succ_self _) hts⟩

theorem allTokens_lossless_sample : ∃ l ts, at? "é/* \n */a + 'b' // c".toList 2 = some l ∧ l.allTokens = ts.map .ok ∧
    Lossless "é/* \n */a + 'b' // c".toList 2 ts := by
  obtain ⟨l, hl, -, -, h⟩ := @allTokens_lossless "é/* \n */a + 'b' // c".toList 2 (by decide)
  have hat : at? "é/* \n */a + 'b' // c".toList 2 = some ⟨⟨2, "/* \n */a + 'b' // c".toList⟩, true⟩ := by decide +kernel
  have hall : (allTokens ⟨⟨2, "/* \n */a + 'b' // c".toList⟩, true⟩).all (·.toBool) = true := by decide +kernel
  rw [← Option.some.inj (hl.symm.trans hat), List.all_eq_true] at hall
  obtain ⟨ts, hts, hlossless⟩ := h fun d hd => nomatch hall _ hd
  exact ⟨l, ts, hl, hts, hlossless⟩

end Lexer

end Readback
