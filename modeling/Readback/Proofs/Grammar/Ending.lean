import Readback.Proofs.Grammar.Guarded
import Readback.Proofs.Grammar.Slices
import Readback.Proofs.Grammar.Spans
/-!
# The end of a parse

A reading is allowed so many steps, and more steps than characters are left are enough for it: they change nothing, and the
allowance does not run out.  So the rules are what they refer to each other as, with no allowance at all (`read_ends`), and a
parse comes to an end on every text, from every offset.
-/
namespace Readback

namespace Lexer

theorem pos_le_start {l : Lexer} (h : l.Ready) : l.cursor.pos ≤ l.hand.span.start := by
  obtain ⟨_, -, hp⟩ := before_next l
  rw [next_span h.outcome]
  exact hp ▸ Nat.le_add_right _ _

end Lexer

namespace Grammar

variable {b : Bool} {l l' : Lexer} {r : Rule}

/-! ## Steps enough -/

/-- **With more steps than characters are left, the rules come to an end**, and to the same one with however many more. -/
theorem rules_ends {n m : Nat} (hl : l.Ready) (ha : r.Applies l) (hn : l.left < n) (hm : l.left < m) :
    Ends b (rules n r) (rules m r) l (r.Passes l) := by
  induction n generalizing m r b l with
  | zero => omega
  | succ n ih =>
    obtain ⟨m, rfl⟩ : ∃ k, m = k + 1 := ⟨m - 1, by omega⟩
    have agree : Agree (rules n) (rules m) l := fun r b l' hl' ho ha => by
      -- behind a token that was taken there is less left
      have := ho.left_lt
      exact (ih hl' ha (by omega) (by omega)).imp fun _ => Rule.Passes.goes
    exact rule_ends agree hl r ha b

theorem read_ends_rules {n : Nat} (hl : l.Ready) (ha : r.Applies l) (hn : l.left < n) :
    Ends b (read r) (rules n r) l (r.Passes l) :=
  .goesOn (read_apply r b) rfl (rules_ends hl ha (Nat.lt_succ_self _) hn)

theorem agree_rules_read {n : Nat} (hn : l.left ≤ n) : Agree (rules n) read l := fun r b _ hl ho ha =>
  .goesOn rfl (read_apply r b) ((rules_ends hl ha (ho.left_lt.trans_le hn) (Nat.lt_succ_self _)).imp fun _ => Rule.Passes.goes)

theorem read_ends_self (hl : l.Ready) (ha : r.Applies l) : Ends b (read r) (read r) l (r.Passes l) :=
  .goesOn rfl (read_apply r b) (read_ends_rules hl ha (Nat.lt_succ_self _))

theorem agree_read : Agree read read l := fun _ _ _ hl _ ha => (read_ends_self hl ha).imp fun _ => Rule.Passes.goes

/-- **What a rule reads is what it says, of what the rules read that it refers to.** -/
theorem read_ends (hl : l.Ready) (ha : r.Applies l) : Ends b (read r) (rule read r) l (r.Passes l) :=
  .goesOn (read_apply r b) rfl (rule_ends (agree_rules_read (Nat.le_refl _)) hl r ha b)

/-- Statements are read to the end of the text, with more steps than characters are left. -/
theorem statements_ends {n m : Nat} (hl : l.Ready) (hn : l.left < n) (hm : l.left < m) :
    Ends false (statements n) (statements m) l fun l' => l.Goes l' ∧ l'.hand.kind = .eof := by
  induction n generalizing m l with
  | zero => omega
  | succ n ih =>
    obtain ⟨m, rfl⟩ : ∃ k, m = k + 1 := ⟨m - 1, by omega⟩
    refine .at_ (fun hk => .pure hl ⟨.stay, hk⟩) fun _ => ?_
    have step : Ends false (read .statement) (read .statement) l (Opens l) := read_ends_self hl nofun
    refine step.bind fun first l₁ hr₁ h₁ => ?_
    have := h₁.left_lt
    exact (ih hr₁ (by omega) (by omega)).bind fun _ l₂ hr₂ h₂ => .pure hr₂ ⟨h₁.goes.trans h₂.1, h₂.2⟩

/-! ## The first token -/

theorem start_of_error {α : Type} {d : Diagnostic} (x : Reading α) (hd : l.next.outcome = .error d) :
    start l x = .refused d := by
  unfold start State.first
  dsimp only
  rw [hd]
  rfl

/-- Readings that come to the same end from the first token on do so from the start. -/
theorem start_ends {α : Type} {x y : Reading α} (h : l.Ready → start l x = start l y ∧ start l x ≠ .exhausted) :
    start l x = start l y ∧ start l x ≠ .exhausted := by
  cases ho : l.next.outcome with
  | ok t => exact h ⟨t, ho⟩
  | error d =>
    rw [start_of_error x ho, start_of_error y ho]
    exact ⟨rfl, nofun⟩

/-- **An expression is read to an end** at every place, and more steps change nothing. -/
theorem expressionOutcome_ends {n : Nat} (hn : l.left < n) :
    expressionOutcome l = start l (rules n .expression) ∧ expressionOutcome l ≠ .exhausted := by
  refine start_ends fun hl => ?_
  obtain ⟨n, rfl⟩ : ∃ k, n = k + 1 := ⟨n - 1, by omega⟩
  have h : Ends false (read .expression) (rules (n + 1) .expression) l (Opens l) := read_ends_rules hl nofun hn
  have fresh : Fresh (rules (n + 1) .expression) := fun s k nl => fresh_expression s k nl
  rw [start_of_ready hl fresh_read_expression, start_of_ready hl fresh]
  exact ⟨h.eq, h.ne_exhausted⟩

/-- **A program is read to an end**, whatever the text is, and more steps change nothing. -/
theorem programOutcome_ends {source : List Char} {n : Nat} (hn : source.length < n) :
    programOutcome source = start (.ofSource source) (statements n) ∧ programOutcome source ≠ .exhausted := by
  refine start_ends fun hl => ?_
  obtain ⟨n, rfl⟩ : ∃ k, n = k + 1 := ⟨n - 1, by omega⟩
  have hleft := left_le_length (.ofSource source)
  have hsize : (Lexer.ofSource source).cursor.rest.length = source.length := rfl
  by_cases hk : (Lexer.ofSource source).hand.kind = .eof
  · rw [start_statements_of_eof hl hk, start_statements_of_eof hl hk]
    exact ⟨rfl, nofun⟩
  · have h := statements_ends (n := source.length + 1) (m := n + 1) hl (by omega) (by omega)
    rw [start_statements_of_ne hl hk, start_statements_of_ne hl hk]
    exact ⟨h.eq, h.ne_exhausted⟩

/-! ## Slashes that are read once more -/

/-- Behind a slash that was read once more: a regular expression was taken that begins with the slash, and what is read once
more from here on is further on. -/
def Reread (l l' : Lexer) : Prop :=
  ∃ u, l.Rereads u l' ∧ u.kind = .regex ∧ u.span = ⟨l.hand.span.start, l'.cursor.pos⟩ ∧
    l.hand.span.start < l'.cursor.pos ∧ ∀ m, l'.Goes m → m.HoldsSlash → l'.cursor.pos ≤ m.hand.span.start

theorem reread_of_rereads {u : Token} (h : l.Rereads u l') : Reread l l' :=
  ⟨u, h, h.kind, h.span, h.start_lt.2, fun _ hg hs => (pos_le_of_goes hg).trans (Lexer.pos_le_start hs.1)⟩

/-- **A slash where an operand has to be** is read once more as a regular expression, and that is taken. -/
theorem primary_reread (rs rs' : Rules) (h : l.HoldsSlash) : Ends b (primary rs) (primary rs') l (Reread l) := by
  have slash := (@slash_ends b l l.hand.span.start h).imp fun _ ⟨_, hu⟩ => reread_of_rereads hu
  refine .token ?_
  dsimp only
  rcases h.2 with hk | ⟨hk, ht⟩
  · rw [hk]
    exact slash
  · rw [hk]
    dsimp only
    rw [if_pos ⟨rfl, ht⟩]
    exact slash

/-! ## Everything on the way -/

/-- **What reading does at a place of a text**: it goes on to places of the text; it comes to an end, and has taken a token
then; what goes round in a loop, or refers to a rule, does so behind a token that was taken; after a slash that was read once
more, only what is further on is; and all that is cut out of the text is in it. -/
structure Advances (source : List Char) (l : Lexer) : Prop where
  goes            : ∀ l', l.Goes l' → Lexer.Reached source l'
  less            : ∀ l', Opens l l' → l'.left < l.left ∧ l.cursor.pos < l'.cursor.pos
  unfolds         : l.Ready → ∀ b r, r.Applies l → Ends b (read r) (rule read r) l (r.Passes l)
  statement_ends  : l.Ready → ∀ b, Ends b (statement read) (statement read) l (Opens l)
  assignment_ends : l.Ready → ∀ b, Ends b (assignment read) (assignment read) l (Opens l)
  primary_ends    : l.Ready → ∀ b, Ends b (primary read) (primary read) l (Opens l)
  guarded         : l.Ready → ∀ rs rs', Agree rs rs' l → ∀ b r, r.Applies l → Ends b (rule rs r) (rule rs' r) l (r.Passes l)
  reread          : l.HoldsSlash → ∀ b, Ends b (primary read) (primary read) l (Reread l)
  sliced          : Lexer.Sliced source l

theorem advances {source : List Char} (h : Lexer.Reached source l) : Advances source l where
  goes _ hg := h.of_goes hg
  less _ ho := ⟨ho.left_lt, ho.start_lt.1.trans_lt ho.start_lt.2⟩
  unfolds hl _ _ ha := read_ends hl ha
  statement_ends hl _ := statement_ends agree_read .stay hl
  assignment_ends hl _ := assignment_ends agree_read .stay hl
  primary_ends hl _ := primary_ends agree_read .stay hl
  guarded hl _ _ hagree b r ha := rule_ends hagree hl r ha b
  reread hs _ := primary_reread read read hs
  sliced := h.sliced

end Grammar

open Grammar

/-- **Parsing ends on every text**, as a program and as an expression from every offset: it is done or refused before its steps
run out, and with more steps it would be the same.  At every place on the way a token is taken before anything is read again,
and nothing is cut out of the text that is not in it. -/
theorem parse_ends (source : String) :
    (programOutcome source.toList ≠ .exhausted ∧ ∀ n, source.toList.length < n →
      programOutcome source.toList = start (.ofSource source.toList) (statements n)) ∧
    (∀ offset, match Lexer.at? source.toList offset with
      | none   => ∃ d, parseExpressionAt source offset = .error d
      | some l => parseExpressionAt source offset = (expressionOutcome l).result ∧ expressionOutcome l ≠ .exhausted ∧
          ∀ n, l.left < n → expressionOutcome l = start l (rules n .expression)) ∧
    ∀ l, Lexer.Reached source.toList l → Advances source.toList l := by
  refine ⟨⟨?_, fun n hn => ?_⟩, fun offset => ?_, fun l hl => advances hl⟩
  · exact (programOutcome_ends (Nat.lt_succ_self _)).2
  · exact (programOutcome_ends hn).1
  · unfold parseExpressionAt
    cases Lexer.at? source.toList offset with
    | none => exact ⟨_, rfl⟩
    | some l => exact ⟨rfl, (expressionOutcome_ends (Nat.lt_succ_self _)).2, fun n hn => (expressionOutcome_ends hn).1⟩

/-- Behind a block a slash opens a regular expression, with a letter of two bytes in it. -/
theorem parse_ends_slash : ∃ source l l', source = "\x7b\x7d /é/.x" ∧ Lexer.Reached source.toList l ∧ l.HoldsSlash ∧
    programOutcome source.toList ≠ .exhausted ∧
    (∃ e, primary read (l.state false) = .done e (l'.state false)) ∧ Reread l l' ∧ Lexer.Sliced source.toList l' := by
  obtain ⟨⟨hends, -⟩, -, hplaces⟩ := parse_ends "\x7b\x7d /é/.x"
  have reached : Lexer.Reached "\x7b\x7d /é/.x".toList (Lexer.ofSource "\x7b\x7d /é/.x".toList).next.after.next.after :=
    .next (.next (@Lexer.Reached.start _ 0 _ rfl))
  have slash : (Lexer.ofSource "\x7b\x7d /é/.x".toList).next.after.next.after.HoldsSlash :=
    ⟨eq_ok_of_isOk (by decide +kernel), .inl (by decide +kernel)⟩
  have hread : (primary read ((Lexer.ofSource "\x7b\x7d /é/.x".toList).next.after.next.after.state false)).result.isOk =
    true := by decide +kernel
  cases (hplaces _ reached).reread slash false with
  | refused hx =>
    rw [hx] at hread
    cases hread
  | @done e l' hx _ _ hagain =>
    have goes : Lexer.Goes _ l' := hagain.elim fun _ h => h.1.goes
    exact ⟨_, _, l', rfl, reached, slash, hends, ⟨e, hx⟩, hagain, (hplaces _ ((hplaces _ reached).goes _ goes)).sliced⟩

end Readback
