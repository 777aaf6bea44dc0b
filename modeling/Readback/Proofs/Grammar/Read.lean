import Readback.Proofs.Grammar.Complete
import Readback.Proofs.Grammar.Sound
import Readback.Proofs.Token.Front
/-!
# Reading is the grammar

The readings that are offered to callers find exactly the phrases of the grammar: the expression that starts at a place,
and the statements that a text is.
-/
namespace Readback.Grammar

open Reading
open Token (Kind)

/-! ## The first token

Before the first token no token has ended, and no line has: nothing asks where, nor whether. -/

/-- The reading takes a token before it asks where the last one ended, or whether a line ended behind it. -/
def Fresh {α : Type} (x : Reading α) : Prop :=
  ∀ (s : State) (k : Nat) (nl : Bool), x { s with previousEnd := k, token := { s.token with newlineBefore := nl } } = x s

section

variable {α β : Type} {rules : Rules}

theorem Fresh.bind {x : Reading α} {f : α → Reading β} (h : Fresh x) : Fresh (x >>= f) := by
  intro s k nl
  rw [bind_apply, bind_apply, h]

theorem Fresh.token {f : Token → Reading α} (h : ∀ t, Fresh (f t))
    (hf : ∀ t nl, f { t with newlineBefore := nl } = f t) : Fresh (token >>= f) := by
  intro s k nl
  exact (congrFun (hf s.token nl) _).trans (h s.token s k nl)

theorem Fresh.at_ {c : Kind} {f : Bool → Reading α} (h : ∀ c, Fresh (f c)) : Fresh (at? c >>= f) :=
  fun s k nl => h _ s k nl

theorem Fresh.place {f : Nat → Reading α} (h : ∀ n, Fresh (f n)) : Fresh (place >>= f) := fun s k nl => h _ s k nl

/-- A token is taken, and nothing asks it whether a line ended in front of it. -/
theorem Fresh.advance {f : Token → Reading α} (hf : ∀ t nl, f { t with newlineBefore := nl } = f t) :
    Fresh (advance >>= f) := by
  intro s k nl
  rw [bind_apply, bind_apply]
  unfold Reading.advance
  dsimp only
  cases s.lexer.next.outcome with
  | error d => rfl
  | ok t => exact congrFun (hf s.token nl) _

theorem Fresh.refuse {fault : Fault} : Fresh (refuse fault : Reading α) := fun _ _ _ => rfl

theorem Fresh.expect {c : Kind} {fault : Fault} {f : Token → Reading α}
    (hf : ∀ t nl, f { t with newlineBefore := nl } = f t) : Fresh (expect c fault >>= f) := by
  show Fresh (at? c >>= fun here => (if here then Reading.advance else Reading.refuse fault) >>= f)
  refine Fresh.at_ fun here => ?_
  split
  · exact Fresh.advance hf
  · exact Fresh.refuse.bind

theorem fresh_regexLiteral (start : Nat) : Fresh (regexLiteral start) := Fresh.advance fun _ _ => rfl

theorem fresh_slash (start : Nat) : Fresh (do rereadRegex; regexLiteral start) := by
  intro s k nl
  rw [bind_apply, bind_apply]
  unfold rereadRegex Lexer.regexAt Lexer.stepOf
  dsimp only
  cases (Token.regex s.start.rest).outcome with
  | error e => rfl
  | ok => exact fresh_regexLiteral start ⟨⟨.regex, _, _, s.token.newlineBefore⟩, _, _, s.previousEnd, s.inFunction⟩ k nl

theorem fresh_primary : Fresh (primary rules) := by
  refine Fresh.token (fun t => ?_) fun _ _ => rfl
  dsimp only
  split <;> first
    | exact Fresh.advance fun _ _ => rfl
    | exact fresh_slash _
    | exact Fresh.refuse
    | skip
  split
  · exact fresh_slash _
  · exact fun _ _ _ => rfl

theorem fresh_construct : Fresh (construct rules) := Fresh.place fun _ => Fresh.advance fun _ _ => rfl

theorem fresh_assignment : Fresh (assignment rules) := by
  have operand : Fresh (operand rules) := Fresh.at_ fun c => by
    split
    · exact fresh_construct
    · exact fresh_primary
  have unary : Fresh (unary rules) := by
    refine Fresh.token (fun t => ?_) fun _ _ => rfl
    split
    · exact Fresh.advance fun _ _ => rfl
    · exact Fresh.advance fun _ _ => rfl
    · exact operand.bind.bind
  exact unary.bind.bind.bind

theorem fresh_expression : Fresh (expression rules) := fresh_assignment.bind

theorem fresh_statement : Fresh (statement rules) := by
  refine Fresh.token (fun t => ?_) fun _ _ => rfl
  dsimp only
  split <;> first
    | exact Fresh.advance fun _ _ => rfl
    | exact Fresh.bind (Fresh.expect fun _ _ => rfl)
    | skip
  split
  · have declaration (kind : DeclKind) : Fresh (declaration rules kind) := Fresh.advance fun _ _ => rfl
    exact (declaration _).bind
  · exact fresh_expression.bind

end

variable {l : Lexer} {α : Type}

theorem start_apply {x : Reading α} (hl : l.Ready) :
    start l x = x { l.state false with previousEnd := l.hand.span.start } := by
  unfold start State.first
  dsimp only
  rw [hl.outcome]
  rfl

theorem start_of_ready {x : Reading α} (hl : l.Ready) (hx : Fresh x) : start l x = x (l.state false) :=
  (start_apply hl).trans (hx (l.state false) l.hand.span.start l.hand.newlineBefore)

/-- Two places in front of the same token are told apart only by what is in front of it. -/
theorem state_of_front {l l' : Lexer} {g g' t r v : List Char} {k : Kind} {nl nl' : Bool} (h : l.Front g t r k v nl)
    (h' : l'.Front g' t r k v nl') (hb : l'.regexAllowed = l.regexAllowed)
    (hp : l'.cursor.pos + Text.byteLength g' = l.cursor.pos + Text.byteLength g) (b : Bool) :
    l'.state b = { l.state b with previousEnd := l'.cursor.pos, token := { l.hand with newlineBefore := nl' } } := by
  have hh := Lexer.hand_of_outcome (congrArg Lexer.Step.outcome h.next)
  have hh' := Lexer.hand_of_outcome (congrArg Lexer.Step.outcome h'.next)
  unfold Lexer.state
  rw [hh, hh', h.next, h'.next, hp, hb]

theorem ready_of_start {x : Reading α} {a : α} {s' : State} (h : start l x = .done a s') : l.Ready := by
  unfold start State.first at h
  dsimp only at h
  cases ho : l.next.outcome with
  | ok t => exact ⟨t, ho⟩
  | error d =>
    rw [ho] at h
    cases h

theorem result_eq_ok {x : Outcome α} {a : α} : x.result = .ok a ↔ ∃ s', x = .done a s' := by
  unfold Outcome.result
  cases x <;> simp

/-! ## Expressions -/

theorem read_apply (r : Rule) (b : Bool) : read r (l.state b) = rules (l.left + 1) r (l.state b) := rfl

theorem fresh_read_expression : Fresh (read .expression) := fun s k nl => fresh_expression s k nl

theorem fresh_read_statement : Fresh (read .statement) := fun s k nl => fresh_statement s k nl

/-- **The expression that is read at a place is the one that the grammar has there.** -/
theorem expressionOutcome_iff {e : Expr} {s' : State} :
    expressionOutcome l = .done e s' ↔
      l.Ready ∧ ∃ l', l'.Ready ∧ s' = l'.state false ∧ Derives false .expression l e l' := by
  unfold expressionOutcome
  constructor
  · intro h
    have hl := ready_of_start h
    rw [start_of_ready hl fresh_read_expression, read_apply] at h
    exact ⟨hl, rules_sound (l.left + 1) .expression false l hl e s' h⟩
  · rintro ⟨hl, l', -, rfl, h⟩
    rw [start_of_ready hl fresh_read_expression, read_apply]
    exact h.complete l.left (Nat.le_refl _)

/-- **In front of the same token there is the same expression.** -/
theorem Derives.of_front {l m l' : Lexer} {e : Expr} {g g' t r v : List Char} {k : Kind} {nl nl' : Bool}
    (h : Derives false .expression m e l') (hm : m.Front g t r k v nl) (hl : l.Front g' t r k v nl')
    (hb : l.regexAllowed = m.regexAllowed)
    (hp : l.cursor.pos + Text.byteLength g' = m.cursor.pos + Text.byteLength g) : ∃ l'', Derives false .expression l e l'' := by
  have hread : read .expression (m.state false) = _ := h.complete m.left (Nat.le_refl _)
  rw [← fresh_read_expression (m.state false) l.cursor.pos nl'] at hread
  have hstate := state_of_front hm hl hb hp false
  obtain ⟨l'', -, -, hd⟩ :=
    rules_sound (l.left + 1) .expression false l ⟨_, congrArg Lexer.Step.outcome hl.next⟩ e _ (hstate ▸ hread)
  exact ⟨l'', hd⟩

/-! ## Programs -/

theorem statements_sound : ∀ (n : Nat) (l : Lexer), l.Ready → Yields false (statements n) l (DerivesAll l)
  | 0, _, _      => .exhausted
  | n + 1, l, hl => by
    refine .at_ (fun hk => .pure hl (.done hk)) fun hk => ?_
    have hs : Yields false (read .statement) l (Derives false .statement l) :=
      fun a s' h => rules_sound (l.left + 1) .statement false l hl a s' h
    refine hs.bind fun first l₁ hr₁ h₁ => ?_
    exact (statements_sound n l₁ hr₁).bind fun _ _ hr h₂ => .pure hr (.more hk h₁ h₂)

theorem statements_complete {body : List Stmt} {l' : Lexer} (h : DerivesAll l body l') :
    ∀ n, l.left < n → statements n (l.state false) = .done body (l'.state false) := by
  induction h with
  | done hk =>
    intro n hn
    obtain ⟨n, rfl⟩ : ∃ m, n = m + 1 := ⟨n - 1, by omega⟩
    unfold statements
    rw [at_bind, hk, beq_self_eq_true, if_pos rfl]
    rfl
  | @more l first l₁ rest l' hk h₁ h₂ ih =>
    intro n hn
    obtain ⟨n, rfl⟩ : ∃ m, n = m + 1 := ⟨n - 1, by omega⟩
    have : l₁.left + 1 ≤ l.left := h₁.left_add_least_le
    have e₁ : read .statement (l.state false) = _ := h₁.complete l.left (Nat.le_refl _)
    unfold statements
    rw [at_bind, if_neg (by simpa using hk), bind_of_done e₁, bind_of_done (ih n (by omega))]
    rfl

/-- Statements are read the same wherever the token before the first one ended. -/
theorem fresh_statements {s : State} (hs : s.token.kind ≠ .eof) (n k : Nat) (nl : Bool) :
    statements (n + 1) { s with previousEnd := k, token := { s.token with newlineBefore := nl } } = statements (n + 1) s := by
  have hs : (s.token.kind == .eof) = false := by simpa using hs
  unfold statements
  rw [bind_apply, bind_apply]
  simp only [at?, hs, Bool.false_eq_true, if_false]
  exact Fresh.bind fresh_read_statement s k nl

/-- **In front of the same token there are the same statements.** -/
theorem DerivesAll.of_front {l m l' : Lexer} {body : List Stmt} {g g' t r v : List Char} {k : Kind} {nl nl' : Bool}
    (h : DerivesAll m body l') (hm : m.Front g t r k v nl) (hl : l.Front g' t r k v nl') (hk : k ≠ .eof)
    (hb : l.regexAllowed = m.regexAllowed)
    (hp : l.cursor.pos + Text.byteLength g' = m.cursor.pos + Text.byteLength g) : ∃ f, DerivesAll l body f := by
  have hhand : m.hand.kind = k := by rw [Lexer.hand_of_outcome (congrArg Lexer.Step.outcome hm.next)]
  have hread := statements_complete h _ (Nat.lt_succ_self _)
  rw [← fresh_statements (s := m.state false) (hhand ▸ hk) m.left l.cursor.pos nl'] at hread
  have hstate := state_of_front hm hl hb hp false
  obtain ⟨f, -, -, hd⟩ := statements_sound _ l ⟨_, congrArg Lexer.Step.outcome hl.next⟩ body _ (hstate ▸ hread)
  exact ⟨f, hd⟩

/-- What is read of a text with no statements is none, wherever the token before the first one ended. -/
theorem start_statements_of_eof {n : Nat} (hl : l.Ready) (hk : l.hand.kind = .eof) :
    start l (statements (n + 1)) = .done [] { l.state false with previousEnd := l.hand.span.start } := by
  rw [start_apply hl]
  unfold statements
  rw [bind_apply]
  simp only [at?, Lexer.state, hk, beq_self_eq_true, if_true]
  rfl

theorem start_statements_of_ne {n : Nat} (hl : l.Ready) (hk : l.hand.kind ≠ .eof) :
    start l (statements (n + 1)) = statements (n + 1) (l.state false) :=
  (start_apply hl).trans (fresh_statements (s := l.state false) hk n l.hand.span.start l.hand.newlineBefore)

theorem start_statements {n : Nat} (hl : l.Ready) :
    (start l (statements (n + 1))).result = (statements (n + 1) (l.state false)).result := by
  by_cases hk : l.hand.kind = .eof
  · rw [start_statements_of_eof hl hk]
    unfold statements
    rw [at_bind, hk, beq_self_eq_true, if_pos rfl]
    rfl
  · rw [start_statements_of_ne hl hk]

theorem left_le_length (l : Lexer) : l.left ≤ l.cursor.rest.length := Lexer.length_next_start l

/-- **The program that a text is read as is the one that the grammar makes of it.** -/
theorem programOutcome_iff {source : List Char} {body : List Stmt} :
    (programOutcome source).result = .ok body ↔
      (Lexer.ofSource source).Ready ∧ ∃ l', DerivesAll (.ofSource source) body l' := by
  unfold programOutcome
  constructor
  · intro h
    obtain ⟨s₀, hs⟩ := result_eq_ok.1 h
    have hl := ready_of_start hs
    rw [start_statements hl] at h
    obtain ⟨s', hs'⟩ := result_eq_ok.1 h
    obtain ⟨l', -, -, hd⟩ := statements_sound _ _ hl body s' hs'
    exact ⟨hl, l', hd⟩
  · rintro ⟨hl, l', h⟩
    rw [start_statements hl]
    exact result_eq_ok.2 ⟨_, statements_complete h _ (Nat.lt_succ_of_le (left_le_length (.ofSource source)))⟩

end Grammar

open Grammar

/-- **A text is a program** when the grammar has statements from its start to its end. -/
theorem parseProgram_eq_ok {source : String} {p : Program} :
    parseProgram source = .ok p ↔ (Lexer.ofSource source.toList).Ready ∧
      ∃ body l', DerivesAll (.ofSource source.toList) body l' ∧
        p = ⟨.script, body, ⟨0, Text.byteLength source.toList⟩⟩ := by
  unfold parseProgram
  constructor
  · intro h
    cases ho : (programOutcome source.toList).result with
    | error d => rw [ho] at h; cases h
    | ok body =>
      rw [ho] at h
      cases h
      obtain ⟨hl, l', hd⟩ := programOutcome_iff.1 ho
      exact ⟨hl, body, l', hd, rfl⟩
  · rintro ⟨hl, body, l', hd, rfl⟩
    rw [programOutcome_iff.2 ⟨hl, l', hd⟩]
    rfl

/-- **An expression starts at a place of a text** when the grammar has one there. -/
theorem parseExpressionAt_eq_ok {source : String} {offset : Nat} {e : Expr} :
    parseExpressionAt source offset = .ok e ↔
      ∃ l, Lexer.at? source.toList offset = some l ∧ l.Ready ∧ ∃ l', l'.Ready ∧ Derives false .expression l e l' := by
  unfold parseExpressionAt
  cases hl : Lexer.at? source.toList offset with
  | none => simp
  | some l =>
    constructor
    · intro h
      obtain ⟨s', hs⟩ := result_eq_ok.1 h
      obtain ⟨hr, l', hr', -, hd⟩ := expressionOutcome_iff.1 hs
      exact ⟨l, rfl, hr, l', hr', hd⟩
    · rintro ⟨_, ⟨⟩, hr, l', hr', hd⟩
      exact result_eq_ok.2 ⟨_, expressionOutcome_iff.2 ⟨hr, l', hr', rfl, hd⟩⟩

/-- What is known to have a value has one. -/
theorem eq_ok_of_isOk {ε α : Type} {x : Except ε α} (h : x.isOk = true) : ∃ a, x = .ok a := by
  cases x with
  | ok a => exact ⟨a, rfl⟩
  | error e => cases h

/-- What was found where it was tested. -/
theorem eq_ok_of_any {ε α : Type} {p : α → Bool} {x : Except ε α} (h : x.toOption.any p = true) :
    ∃ a, x = .ok a ∧ p a = true := by
  cases x with
  | ok a => exact ⟨a, rfl, h⟩
  | error e => cases h

end Readback
