import Readback.Proofs.Grammar.Cut
import Readback.Proofs.Grammar.Read
import Readback.Proofs.Grammar.Unique
import Readback.Proofs.Snippet.Inert
/-!
# Layout

Of what stands between two tokens only one thing is ever asked, and that is whether a line ends in it.  So the blanks and the
comments in a program can be replaced by others (`parseProgram_relaid`).  A slash may be an operator or open a regular
expression, and a comment may look like either; so the tokens that are kept are those that the reader took, and these can be
told from its tree.
-/
namespace Readback

open Token (Kind Gap Bare)
open Text (endsLine byteLength)

/-! ## Line ends in trivia -/

namespace Token

variable {g cs : List Char} {nl : Bool}

/-- **A line ends in a gap just where there is a line end among its characters.** -/
theorem Gap.any_endsLine (h : Gap g nl) : g.any endsLine = nl := by
  induction h with
  | none => rfl
  | space _ _ ih => rw [List.any_cons, ih]
  | @line body g nl hb _ _ ih =>
    have hbody : body.any endsLine = false := by simpa using hb
    rw [List.any_cons, List.any_cons, List.any_append, hbody, ih]
    rfl
  | @block body g nl _ _ ih =>
    rw [List.any_cons, List.any_cons, List.any_append, List.any_cons, List.any_cons, ih]
    rfl

/-- The same is true of trivia at the end of a text, whose last comment may go on to the end. -/
theorem newline_of_bare (h : Bare cs) : (trivia cs).newline = cs.any endsLine := by
  refine bare_induction (P := fun cs => (trivia cs).newline = cs.any endsLine) ?line ?block ?space ?nil h
  case line =>
    intro body r hb hr ih
    have hbody : body.any endsLine = false := by simpa using hb
    rw [trivia_line, lineBody_append hb hr, List.drop_left, List.any_cons, List.any_cons, List.any_append, hbody, ← ih]
    simp [Trivia.after, show endsLine '/' = false from rfl]
  case block =>
    intro body r hb ih
    rw [trivia_block (commentBody_close hb _), drop_comment, List.any_cons, List.any_cons, List.any_append, List.any_cons,
      List.any_cons, ← ih]
    rfl
  case space =>
    intro c r hs ih
    rw [trivia_space hs, List.any_cons, ← ih]
    rfl
  case nil =>
    rw [trivia_nil]
    rfl

/-- Trivia is complete at the end of a text when it is in front of a line end. -/
theorem bare_of_gap (h : Gap (cs ++ ['\n']) nl) : Bare cs := by
  rw [← bare_append (c := '\n') rfl]
  have ht := h.trivia_append []
  rw [List.append_nil, trivia_nil] at ht
  unfold Bare
  rw [ht]
  simp [Trivia.after, Trivia.none]

end Token

namespace Lexer

variable {l l' l'' : Lexer} {ts us : List Token} {t u : Token}

/-- **At the end of a text** the token in hand says whether a line ended in front of it, and no more. -/
theorem hand_of_bare (h : Bare l.cursor.rest) : l.Ready ∧
    l.hand = ⟨.eof, "", ⟨l.hand.span.start, l.hand.span.stop⟩, l.cursor.rest.any endsLine⟩ := by
  have hn := Token.newline_of_bare h
  have hr : (l.cursor.skip (Token.trivia l.cursor.rest).size).rest = [] := h.2
  have ho : ∃ s : Span, l.next.outcome = .ok ⟨.eof, "", s, l.cursor.rest.any endsLine⟩ := by
    unfold next
    dsimp only
    rw [h.1, if_neg (by simp), hr, ← hn]
    exact ⟨_, rfl⟩
  obtain ⟨s, ho⟩ := ho
  exact ⟨⟨_, ho⟩, by rw [hand_of_outcome ho]⟩

theorem bare_of_eof (hl : l.Ready) (hk : l.hand.kind = .eof) : Bare l.cursor.rest :=
  eof_iff_bare.1 ⟨_, hl.outcome, hk⟩

/-! ## The text of a token -/

/-- A gap, and the text of what is taken, which starts where the token in hand does. -/
structure Piece (l : Lexer) (g w : List Char) (l' : Lexer) : Prop where
  rest  : l.cursor.rest = g ++ (w ++ l'.cursor.rest)
  start : l.hand.span.start = l.cursor.pos + byteLength g
  stop  : l'.cursor.pos = l.cursor.pos + byteLength g + byteLength w
  some  : w ≠ []

theorem Steps.piece (h : l.Steps l') :
    ∃ g w v, l.Front g w l'.cursor.rest l.hand.kind v l.hand.newlineBefore ∧ l.Piece g w l' := by
  obtain ⟨g, w, x, v, hf⟩ := front_of_next h.ready.outcome h.more
  have hn := hf.next
  have hx : l'.cursor.rest = x := by rw [h.after, hn]
  refine ⟨g, w, v, hx ▸ hf, hx ▸ hf.rest, ?_, ?_, hf.some⟩
  · rw [hand_of_outcome (congrArg Step.outcome hn)]
  · rw [h.after, hn]

theorem Rereads.piece (h : l.Rereads u l') :
    ∃ g s a v, l.Front g s (a ++ l'.cursor.rest) l.hand.kind v l.hand.newlineBefore ∧ a ≠ [] ∧
      Token.regex (s ++ a ++ l'.cursor.rest) = ⟨(s ++ a).length, .ok ()⟩ ∧ l'.regexAllowed = false ∧
      u.text = String.ofList (s ++ a) ∧ l.Piece g (s ++ a) l' := by
  have hk := h.ne_eof
  obtain ⟨g, s, z, v, hf⟩ := front_of_next h.ready.outcome hk
  have hn := hf.next
  obtain ⟨a, t, ha, hafter, hstart, ht⟩ := Grammar.rereads_front h
  obtain rfl : z = a ++ l'.cursor.rest := by rw [← hafter, hn]
  have hs : l.next.start = ⟨l.cursor.pos + byteLength g, s ++ (a ++ l'.cursor.rest)⟩ := by rw [hn]
  obtain rfl : t = s ++ a := by
    rw [hs, ← List.append_assoc] at hstart
    exact (List.append_cancel_right hstart).symm
  have hagain : l.again = _ := regexAt_of_regex hstart ht _ _
  have hu := h.outcome
  rw [hagain] at hu
  cases hu
  refine ⟨g, s, a, v, hf, ha, ht, by rw [h.after, hagain], rfl, ?_, ?_, ?_, by simp [ha]⟩
  · rw [hf.rest, List.append_assoc]
  · rw [hand_of_outcome (congrArg Step.outcome hn)]
  · rw [h.after, hagain, hs]

theorem Piece.start_lt {g w : List Char} (h : l.Piece g w l') :
    l.cursor.pos ≤ l.hand.span.start ∧ l.hand.span.start < l'.cursor.pos := by
  have hw : 0 < byteLength w := by
    obtain ⟨c, cs, rfl⟩ := List.exists_cons_of_ne_nil h.some
    have := c.utf8Size_pos
    rw [Text.byteLength_cons]
    omega
  rw [h.start, h.stop]
  omega

theorem Steps.start_lt (h : l.Steps l') : l.cursor.pos ≤ l.hand.span.start ∧ l.hand.span.start < l'.cursor.pos := by
  obtain ⟨_, _, _, -, hp⟩ := h.piece
  exact hp.start_lt

theorem Rereads.start_lt (h : l.Rereads u l') :
    l.cursor.pos ≤ l.hand.span.start ∧ l.hand.span.start < l'.cursor.pos := by
  obtain ⟨_, _, _, _, -, -, -, -, -, hp⟩ := h.piece
  exact hp.start_lt

/-! ## One path -/

/-- The tokens that are taken from a place on start behind it. -/
theorem Path.start_le (h : l.Path ts l') : ∀ t ∈ ts, l.cursor.pos ≤ t.span.start := by
  induction h with
  | stay => exact fun _ ht => nomatch ht
  | step h₁ _ ih =>
    have h := h₁.start_lt
    intro t ht
    rcases List.mem_cons.1 ht with rfl | ht
    · exact h.1
    · have := ih t ht
      omega
  | reread h₁ _ ih =>
    have h := h₁.start_lt
    intro t ht
    rcases List.mem_cons.1 ht with rfl | ht
    · rw [h₁.span]
      exact h.1
    · have := ih t ht
      omega

/-- A slash is not taken by itself where a regular expression starts with it. -/
theorem not_steps_of_rereads {l₁ l₂ : Lexer} (h₁ : l.Steps l₁) (h₂ : l₁.Path ts l') (h : l.Rereads u l₂)
    (hs : (l.hand :: ts).filterMap Token.regex? = (u :: us).filterMap Token.regex?) : False := by
  have hk : l.hand.kind ≠ .regex := by rcases h.slash with hk | ⟨hk, -⟩ <;> rw [hk] <;> decide
  rw [List.filterMap_cons_none (Token.regex?_of_ne hk), List.filterMap_cons_some (Token.regex?_of_eq h.kind)] at hs
  have hm : u.span ∈ ts.filterMap Token.regex? := hs ▸ List.mem_cons_self
  obtain ⟨t, ht, hr⟩ := List.mem_filterMap.1 hm
  unfold Token.regex? at hr
  split at hr
  · -- the expression starts where the slash does, and what is taken behind the slash does not
    have h₃ := h₂.start_le t ht
    have h₄ := h₁.start_lt
    rw [Option.some.inj hr, h.span] at h₃
    simp only [upTo] at h₃
    omega
  · cases hr

theorem regexes_of_cons (hs : (u :: ts).filterMap Token.regex? = (u :: us).filterMap Token.regex?) :
    ts.filterMap Token.regex? = us.filterMap Token.regex? := by
  rw [List.filterMap_cons, List.filterMap_cons] at hs
  split at hs <;> simp_all

/-- **There is one path to the end of a text**, once it is said where its regular expressions are. -/
theorem Path.unique (h : l.Path ts l') (hl : l'.hand.kind = .eof) (h' : l.Path us l'') (hl' : l''.hand.kind = .eof)
    (hs : ts.filterMap Token.regex? = us.filterMap Token.regex?) : ts = us := by
  induction h generalizing us with
  | stay =>
    cases h' with
    | stay => rfl
    | step h₁ => exact absurd hl h₁.more
    | reread h₁ => exact absurd hl h₁.ne_eof
  | @step l l₁ _ ts h₁ h₂ ih =>
    cases h' with
    | stay => exact absurd hl' h₁.more
    | step h₁' h₂' =>
      cases h₁.unique h₁'
      rw [ih hl h₂' (regexes_of_cons hs)]
    | reread h₁' h₂' => exact (not_steps_of_rereads h₁ h₂ h₁' hs).elim
  | @reread l l₁ _ u ts h₁ h₂ ih =>
    cases h' with
    | stay => exact absurd hl' h₁.ne_eof
    | step h₁' h₂' => exact (not_steps_of_rereads h₁' h₂' h₁ hs.symm).elim
    | reread h₁' h₂' =>
      cases h₁.outcome.symm.trans h₁'.outcome
      cases h₁.after.trans h₁'.after.symm
      rw [ih hl h₂' (regexes_of_cons hs)]

end Lexer

/-! ## Texts in another layout -/

/-- **A text in another layout.**  What stands in front of the tokens of a text, between them and behind them is replaced by
other blanks and complete comments.  A blank comes first in these, and a line ends in them just where one did before.  The rest
of the old text begins at `pos`. -/
inductive Relaid : Nat → List Char → List Token → List Char → Prop
  | tail {pos : Nat} {old new : List Char} {nl : Bool} (hb : new.head?.any Token.isSpace = true)
      (hn : Gap (new ++ ['\n']) nl) (hl : new.any endsLine = old.any endsLine) : Relaid pos old [] new
  | token {pos : Nat} {t : Token} {ts : List Token} {old new w rest rest' : List Char}
      (hb : new.head?.any Token.isSpace = true) (hn : Gap new (old.any endsLine))
      (hs : t.span = ⟨pos + byteLength old, pos + byteLength old + byteLength w⟩)
      (h : Relaid t.span.stop rest ts rest') :
      Relaid pos (old ++ (w ++ rest)) (t :: ts) (new ++ (w ++ rest'))

theorem Relaid.blank {pos : Nat} {old new : List Char} {ts : List Token} (h : Relaid pos old ts new) :
    new.head?.any Token.isSpace = true := by
  cases h with
  | tail hb => exact hb
  | @token _ _ _ _ new _ _ _ hb =>
    cases new with
    | nil => cases hb
    | cons c cs => exact hb

/-- A text that begins with a blank may stand behind any token. -/
theorem Relaid.fence {pos : Nat} {old new : List Char} {ts : List Token} (h : Relaid pos old ts new) (x : List Char) :
    Token.Fence x new := by
  have hb := h.blank
  cases new with
  | nil => cases hb
  | cons c cs => exact .of_mem (Token.mem_fences_of_isSpace hb) x cs

theorem Relaid.ne_slash {pos : Nat} {old new : List Char} {ts : List Token} (h : Relaid pos old ts new) :
    new.head? ≠ some '/' := by
  intro hs
  have hb := h.blank
  rw [hs] at hb
  cases hb

/-- The same token, behind another gap and in front of another text. -/
theorem Lexer.Front.relaid {l : Lexer} {g w r x y v g' : List Char} {k : Kind} {nl nl' : Bool}
    (h : l.Front g w (r ++ x) k v nl) (hf : Token.Fence x y) (hy : y.head? ≠ Option.some '/') (hg : Gap g' nl') (n : Nat) :
    Lexer.Front ⟨⟨n, g' ++ (w ++ (r ++ y))⟩, l.regexAllowed⟩ g' w (r ++ y) k v nl' := by
  have hs := h.swap hf (fun _ hc => absurd hc hy) 0
  exact ⟨rfl, hg, hs.bare, hs.some, hs.scan⟩

theorem Text.append_inj_of_byteLength {a b c d : List Char} (h : a ++ b = c ++ d) (hl : byteLength a = byteLength c) :
    a = c ∧ b = d := by
  have h₁ := takeBytes_byteLength_append a b
  rw [h, hl, takeBytes_byteLength_append] at h₁
  cases h₁
  exact ⟨rfl, List.append_cancel_left h⟩

namespace Grammar

variable {l l₁ l' k : Lexer} {ts us : List Token} {t u : Token} {m : Move} {on : List Token → Lexer → Prop}
  {φ : Lexer → Lexer} {old new : List Char}

/-- A way to copy a text from a place on: the places where the tokens are taken correspond to places of the other text, the
first one to `k`. -/
structure Begins (m : Move) (on : List Token → Lexer → Prop) (φ : Lexer → Lexer) (ts : List Token) (l k : Lexer) : Prop where
  copy   : Copy m on φ
  first  : on ts l
  place  : φ l = k
  ready  : k.Ready
  behind : ∀ us x, on us x → l.cursor.pos ≤ x.cursor.pos ∧ l.hand.span.start ≤ x.hand.span.start

open Classical in
/-- **One token more in front.** -/
theorem Begins.extend {k₁ : Lexer} (B : Begins m on φ ts l₁ k₁) (hk : k.Ready)
    (hl : Like ⟨fun _ => k.hand.span.start, fun _ => k.cursor.pos⟩ l.hand k.hand)
    (hpos : l.cursor.pos < l₁.cursor.pos) (hstart : l.hand.span.start < l₁.hand.span.start)
    (hsteps : t = l.hand → ∀ l', l.Steps l' → l' = l₁ ∧ k.Steps k₁)
    (hagain : ∀ l', l.Rereads t l' → l' = l₁ ∧ ∃ u', k.Rereads u' k₁ ∧ u'.text = t.text) :
    ∃ m' on' φ', Begins m' on' φ' (t :: ts) l k := by
  have hlt : ∀ us x, on us x → l.cursor.pos < x.cursor.pos ∧ l.hand.span.start < x.hand.span.start := by
    intro us x hx
    have := B.behind us x hx
    omega
  have hne : ∀ us x, on us x → x ≠ l := by
    rintro us x hx rfl
    exact Nat.lt_irrefl _ (hlt us x hx).1
  refine ⟨⟨fun p => if p = l.hand.span.start then k.hand.span.start else m.start p,
        fun p => if p = l.cursor.pos then k.cursor.pos else m.stop p⟩,
      fun us x => (us = t :: ts ∧ x = l) ∨ on us x, fun x => if x = l then k else φ x,
    ⟨?_, ?_, ?_, ?_⟩, .inl ⟨rfl, rfl⟩, if_pos rfl, hk, ?_⟩
  · rintro us x (⟨-, rfl⟩ | hx)
    · rw [if_pos rfl]
      exact ⟨hl.kind, hl.text, hl.newline, (if_pos rfl).symm⟩
    · rw [if_neg (hne us x hx)]
      have hc := B.copy.hand hx
      have := (hlt us x hx).2
      exact ⟨hc.kind, hc.text, hc.newline, hc.start.trans (if_neg (by omega)).symm⟩
  · rintro us x (⟨-, rfl⟩ | hx)
    · rw [if_pos rfl]
      exact (if_pos rfl).symm
    · rw [if_neg (hne us x hx)]
      have := (hlt us x hx).1
      exact (B.copy.stop hx).trans (if_neg (by omega)).symm
  · rintro us x x' (⟨he, rfl⟩ | hx) h
    · obtain ⟨rfl, rfl⟩ := List.cons.inj he
      obtain ⟨rfl, hs⟩ := hsteps rfl x' h
      rw [if_pos rfl, if_neg (hne _ _ B.first), B.place]
      exact ⟨.inr B.first, hs⟩
    · obtain ⟨ho, hs⟩ := B.copy.steps hx h
      rw [if_neg (hne _ _ hx), if_neg (hne _ _ ho)]
      exact ⟨.inr ho, hs⟩
  · rintro us x u x' (⟨he, rfl⟩ | hx) h
    · obtain ⟨rfl, rfl⟩ := List.cons.inj he
      obtain ⟨rfl, hs⟩ := hagain x' h
      rw [if_pos rfl, if_neg (hne _ _ B.first), B.place]
      exact ⟨.inr B.first, hs⟩
    · obtain ⟨ho, hs⟩ := B.copy.again hx h
      rw [if_neg (hne _ _ hx), if_neg (hne _ _ ho)]
      exact ⟨.inr ho, hs⟩
  · rintro us x (⟨-, rfl⟩ | hx)
    · exact ⟨Nat.le_refl _, Nat.le_refl _⟩
    · have := hlt us x hx
      omega

/-- The end of a text corresponds to the end of one in another layout. -/
theorem begins_tail (hl : l.Ready) (hk : l.hand.kind = .eof) {nl : Bool} (hn : Gap (new ++ ['\n']) nl)
    (he : new.any endsLine = l.cursor.rest.any endsLine) (n : Nat) :
    ∃ m on φ, Begins m on φ [] l ⟨⟨n, new⟩, l.regexAllowed⟩ := by
  obtain ⟨-, hold⟩ := Lexer.hand_of_bare (Lexer.bare_of_eof hl hk)
  obtain ⟨hr, hnew⟩ := @Lexer.hand_of_bare ⟨⟨n, new⟩, l.regexAllowed⟩ (Token.bare_of_gap hn)
  generalize hk' : (⟨⟨n, new⟩, l.regexAllowed⟩ : Lexer) = k at hr hnew
  refine ⟨⟨fun _ => k.hand.span.start, fun _ => k.cursor.pos⟩, fun us x => us = [] ∧ x = l, fun _ => k,
    ⟨?_, ?_, ?_, ?_⟩, ⟨rfl, rfl⟩, rfl, hr, ?_⟩
  · rintro us x ⟨-, rfl⟩
    refine ⟨?_, ?_, ?_, rfl⟩
    · rw [hold, hnew]
    · rw [hold, hnew]
    · rw [hold, hnew, ← he, ← hk']
  · exact fun _ => rfl
  · rintro us x x' ⟨h, -⟩
    cases h
  · rintro us x u x' ⟨h, -⟩
    cases h
  · rintro us x ⟨-, rfl⟩
    exact ⟨Nat.le_refl _, Nat.le_refl _⟩

/-- The text of a token that is kept, in the other layout. -/
theorem relaid_piece {g w : List Char} (hp : l.Piece g w l₁) (ht : t.span = l.upTo l₁)
    (h : Relaid l.cursor.pos l.cursor.rest (t :: ts) new) :
    ∃ g' new', new = g' ++ (w ++ new') ∧ Gap g' (g.any endsLine) ∧ Relaid l₁.cursor.pos l₁.cursor.rest ts new' := by
  generalize hrest : l.cursor.rest = rest at h
  cases h with
  | @token _ _ _ old g' w' rest₁ new' hb hn hs h =>
    rw [ht, Lexer.upTo, hp.start, hp.stop] at hs
    obtain ⟨hs₁, hs₂⟩ := Span.mk.inj hs
    obtain ⟨rfl, hrest⟩ := Text.append_inj_of_byteLength (hrest.symm.trans hp.rest) (by omega)
    obtain ⟨rfl, rfl⟩ := Text.append_inj_of_byteLength hrest (by omega)
    rw [ht] at h
    exact ⟨g', new', rfl, hn, h⟩

theorem start_le (hl : l.Ready) : l.cursor.pos ≤ l.hand.span.start := by
  rw [Lexer.next_span hl.outcome, Lexer.next_start]
  exact Nat.le_add_right _ _

/-- The tokens that are in front of two places, if they are of the same kind and the same value. -/
theorem like_of_front {g g' w w' x x' v : List Char} {κ : Kind} {nl : Bool} (h : l.Front g w x κ v nl)
    (h' : k.Front g' w' x' κ v nl) : Like ⟨fun _ => k.hand.span.start, fun _ => k.cursor.pos⟩ l.hand k.hand := by
  rw [hand_of_next h.next rfl, hand_of_next h'.next rfl]
  exact ⟨rfl, rfl, rfl, rfl⟩

/-- A token that is taken next is taken in the other layout too. -/
theorem begins_step (h : l.Steps l₁)
    (ih : ∀ {new} n, Relaid l₁.cursor.pos l₁.cursor.rest ts new → ∃ m on φ, Begins m on φ ts l₁ ⟨⟨n, new⟩, l₁.regexAllowed⟩)
    (hr : Relaid l.cursor.pos l.cursor.rest (l.hand :: ts) new) (n : Nat) :
    ∃ m on φ, Begins m on φ (l.hand :: ts) l ⟨⟨n, new⟩, l.regexAllowed⟩ := by
  obtain ⟨g, w, v, hf, hpiece⟩ := h.piece
  obtain ⟨g', new', rfl, hg, hr'⟩ := relaid_piece hpiece h.span hr
  obtain ⟨m, on, φ, B⟩ := ih (n + byteLength g' + byteLength w) hr'
  rw [hf.gap.any_endsLine] at hg
  have hf' := @Lexer.Front.relaid l g w [] _ _ _ _ _ _ _ hf (hr'.fence _) hr'.ne_slash hg n
  have hbit : l₁.regexAllowed = Lexer.allowsRegex l.regexAllowed l.hand.kind := by rw [h.after, hf.next]
  have htakes := takes_of_front hf' h.more (hbit ▸ B.ready)
  rw [← hbit] at htakes
  have hpos := h.start_lt
  have hpos₁ := start_le h.ready'
  refine B.extend htakes.ready (like_of_front hf hf') (by omega) (by omega) ?_ ?_
  · rintro - l₂ h'
    exact ⟨h'.unique h, htakes.toSteps⟩
  · exact fun l₂ h' => absurd rfl h'.ne_hand

/-- A slash that is read once more next is read so in the other layout too. -/
theorem begins_reread (h : l.Rereads t l₁)
    (ih : ∀ {new} n, Relaid l₁.cursor.pos l₁.cursor.rest ts new → ∃ m on φ, Begins m on φ ts l₁ ⟨⟨n, new⟩, l₁.regexAllowed⟩)
    (hr : Relaid l.cursor.pos l.cursor.rest (t :: ts) new) (n : Nat) :
    ∃ m on φ, Begins m on φ (t :: ts) l ⟨⟨n, new⟩, l.regexAllowed⟩ := by
  obtain ⟨g, s, a, v, hf, ha, hregex, hbit, htext, hpiece⟩ := h.piece
  obtain ⟨g', new', rfl, hg, hr'⟩ := relaid_piece hpiece h.span hr
  obtain ⟨m, on, φ, B⟩ := ih (n + byteLength g' + byteLength (s ++ a)) hr'
  rw [hf.gap.any_endsLine] at hg
  have hf' := hf.relaid (hr'.fence _) hr'.ne_slash hg n
  have hlike := like_of_front hf hf'
  rw [List.append_assoc]
  generalize hk' : (⟨⟨n, g' ++ (s ++ (a ++ new'))⟩, l.regexAllowed⟩ : Lexer) = k at hf' hlike
  have hready : k.Ready := ⟨_, congrArg Lexer.Step.outcome hf'.next⟩
  have hstart : k.next.start = ⟨n + byteLength g', s ++ a ++ new'⟩ := by rw [hf'.next, List.append_assoc, ← hk']
  have hagain : k.again = _ := Lexer.regexAt_of_regex (congrArg Cursor.rest hstart)
    (Token.regex_fence hregex (hr'.fence _)) k.next.after.regexAllowed k.hand.newlineBefore
  have hrereads : ∃ u', k.Rereads u' ⟨⟨n + byteLength g' + byteLength (s ++ a), new'⟩, l₁.regexAllowed⟩ ∧
      u'.text = t.text := by
    refine ⟨_, ⟨hready, ?_, congrArg Lexer.Step.outcome hagain, ?_, B.ready⟩, htext.symm⟩
    · rw [hlike.kind, hlike.text]
      exact h.slash
    · rw [hagain, hbit, hstart]
  have hpos := h.start_lt
  have hpos₁ := start_le h.ready'
  refine B.extend hready hlike (by omega) (by omega) ?_ ?_
  · exact fun he => absurd he h.ne_hand
  · intro l₂ h'
    exact ⟨h'.after.trans h.after.symm, hrereads⟩

/-- **Places of a text in another layout** correspond to those of the text, along the tokens that are kept. -/
theorem exists_begins (hp : l.Path ts l') (hl : l.Ready) (hk : l'.hand.kind = .eof)
    (hr : Relaid l.cursor.pos l.cursor.rest ts new) (n : Nat) :
    ∃ m on φ, Begins m on φ ts l ⟨⟨n, new⟩, l.regexAllowed⟩ := by
  induction hp generalizing new n with
  | @stay l =>
    generalize hrest : l.cursor.rest = rest at hr
    cases hr with
    | tail _ hn he => exact begins_tail hl hk hn (hrest ▸ he) n
  | step h₁ _ ih => exact begins_step h₁ (fun n hr => ih h₁.ready' hk hr n) hr n
  | reread h₁ _ ih => exact begins_reread h₁ (fun n hr => ih h₁.ready' hk hr n) hr n

end Grammar

open Grammar

/-- **The tokens that were taken when a text was read as a program**: one after the other up to its end, and a slash was read
once more as a regular expression just where the program has one. -/
def Taken (source : List Char) (p : Program) (ts : List Token) : Prop :=
  ∃ l, (Lexer.ofSource source).Path ts l ∧ l.Ready ∧ l.hand.kind = .eof ∧
    ts.filterMap Token.regex? = (p.body.map Node.stmt).flatMap Node.regexes

theorem Taken.unique {source : List Char} {p : Program} {ts us : List Token} (h : Taken source p ts)
    (h' : Taken source p us) : us = ts := by
  obtain ⟨_, hp, -, he, hs⟩ := h
  obtain ⟨_, hp', -, he', hs'⟩ := h'
  exact hp'.unique he' hp he (hs'.trans hs.symm)

/-- There is a text in another layout: with one more blank in front of every token, and one at the end. -/
theorem exists_relaid {l l' : Lexer} {ts : List Token} (hp : l.Path ts l') (hl : l'.Ready) (hk : l'.hand.kind = .eof) :
    ∃ new, Relaid l.cursor.pos l.cursor.rest ts new := by
  have hblank : ∀ cs : List Char, (' ' :: cs).any endsLine = cs.any endsLine := fun _ => rfl
  have gap : ∀ {g : List Char} {nl : Bool}, Gap g nl → Gap (' ' :: g) (g.any endsLine) := by
    intro g nl h
    rw [h.any_endsLine]
    exact .space (c := ' ') rfl h
  induction hp with
  | stay =>
    obtain ⟨nl, hg⟩ := Token.gap_of_bare (Lexer.bare_of_eof hl hk)
    exact ⟨_, .tail rfl (gap hg) (hblank _)⟩
  | @step l l₁ _ _ h₁ _ ih =>
    obtain ⟨g, w, v, hf, hpiece⟩ := h₁.piece
    obtain ⟨new, hr⟩ := ih hl hk
    rw [hpiece.rest]
    refine ⟨_, .token rfl (gap hf.gap) ?_ (h₁.stop.symm ▸ hr)⟩
    rw [h₁.span, Lexer.upTo, hpiece.start, hpiece.stop]
  | @reread l l₁ _ u _ h₁ _ ih =>
    obtain ⟨g, s, a, v, hf, -, -, -, -, hpiece⟩ := h₁.piece
    obtain ⟨new, hr⟩ := ih hl hk
    have hstop : u.span.stop = l₁.cursor.pos := congrArg Span.stop h₁.span
    rw [hpiece.rest]
    refine ⟨_, .token rfl (gap hf.gap) ?_ (hstop.symm ▸ hr)⟩
    rw [h₁.span, Lexer.upTo, hpiece.start, hpiece.stop]

theorem Taken.exists_relaid {source : List Char} {p : Program} {ts : List Token} (h : Taken source p ts) :
    ∃ text, Relaid 0 source ts text := by
  obtain ⟨_, hp, hl, hk, -⟩ := h
  exact Readback.exists_relaid hp hl hk

/-- **Layout carries no meaning beyond line breaks.**  The tokens that were taken when a program was read are determined by the
program; and any text that has them in another layout is the same program, but for the spans. -/
theorem parseProgram_relaid {source : String} {p : Program} (h : parseProgram source = .ok p) :
    ∃ ts, Taken source.toList p ts ∧ (∀ us, Taken source.toList p us → us = ts) ∧
      ∀ text, Relaid 0 source.toList ts text →
        ∃ p', parseProgram (String.ofList text) = .ok p' ∧ p'.bare = p.bare := by
  obtain ⟨hl, body, l', hd, rfl⟩ := parseProgram_eq_ok.1 h
  obtain ⟨ts, hp, hs, -⟩ := hd.way Copy.stay
  have hr := ready_of_goes hp.goes hl
  have ht : Taken source.toList ⟨.script, body, ⟨0, byteLength source.toList⟩⟩ ts := ⟨l', hp, hr, hd.eof, hs⟩
  refine ⟨ts, ht, fun us hu => ht.unique hu, fun text htext => ?_⟩
  obtain ⟨m, on, φ, B⟩ := exists_begins hp hl hd.eof htext 0
  -- along the way of the copy the same tokens are taken
  obtain ⟨us, hp', hs', hq⟩ := hd.way B.copy
  obtain rfl := hp'.unique hd.eof hp hd.eof (hs'.trans hs.symm)
  obtain ⟨-, hd'⟩ := hq [] (by rw [List.append_nil]; exact B.first)
  rw [B.place] at hd'
  have hready : (Lexer.ofSource (String.ofList text).toList).Ready := by
    rw [String.toList_ofList]
    exact B.ready
  have hall : DerivesAll (.ofSource (String.ofList text).toList) (moveBody m body) (φ l') := by
    rw [String.toList_ofList]
    exact hd'
  refine ⟨_, parseProgram_eq_ok.2 ⟨hready, _, _, hall, rfl⟩, ?_⟩
  simp only [Program.bare, moveBody_eq_map, List.map_map, Function.comp_def, Stmt.bare_move, Span.move_erase _ ⟨0, 0⟩]

/-- The slash behind the parenthesis opens a regular expression, the one behind the name divides, and the line break counts. -/
theorem parseProgram_relaid_sample : ∃ p, parseProgram "if (a) /b/.c /d\n++e//" = .ok p ∧
    ∃ ts, Taken "if (a) /b/.c /d\n++e//".toList p ts ∧
      (∀ us, Taken "if (a) /b/.c /d\n++e//".toList p us → us = ts) ∧
      (∃ text, Relaid 0 "if (a) /b/.c /d\n++e//".toList ts text) ∧
      ∀ text, Relaid 0 "if (a) /b/.c /d\n++e//".toList ts text →
        ∃ p', parseProgram (String.ofList text) = .ok p' ∧ p'.bare = p.bare := by
  obtain ⟨p, hp⟩ := eq_ok_of_isOk (x := parseProgram "if (a) /b/.c /d\n++e//") (by decide +kernel)
  obtain ⟨ts, ht, hu, hr⟩ := parseProgram_relaid hp
  exact ⟨p, hp, ts, ht, hu, ht.exists_relaid, hr⟩

end Readback
