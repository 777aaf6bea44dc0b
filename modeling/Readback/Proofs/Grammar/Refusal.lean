import Readback.Proofs.Grammar.Ending
/-!
# What a refusal points at

A reading goes from place to place of its text, and the tokens that it has in hand are in the text.  So a diagnostic points into
the text, whichever rule it comes from and however far that has read: at a token, or at what should have been one.
-/
namespace Readback

open Text (byteLength)

/-- The span is some of the text, from a place between two characters to another. -/
structure Span.InText (source : List Char) (s : Span) : Prop where
  le    : s.start ≤ s.stop
  bound : s.stop ≤ byteLength source
  start : Text.isBoundary s.start source = true
  stop  : Text.isBoundary s.stop source = true

/-- The diagnostic is one of the lexer or the parser, and points into the text. -/
structure Diagnostic.PointsInto (source : List Char) (d : Diagnostic) : Prop where
  stage : d.stage = .lexer ∨ d.stage = .parser
  span  : ∃ s, d.span = some s ∧ s.InText source

/-! ## Tokens -/

namespace Lexer

/-- What is read is in the text, what is wrong too, and reading goes on at a place of it. -/
structure Step.InText (source : List Char) (s : Step) : Prop where
  token : ∀ t, s.outcome = .ok t → t.span.InText source
  fault : ∀ d, s.outcome = .error d → d.PointsInto source
  start : (ofSource source).Before ⟨s.start, true⟩
  after : (ofSource source).Before s.after

variable {source : List Char} {l : Lexer} {c : Cursor} {bit newline : Bool}

theorem span_inText (h : (ofSource source).Before ⟨c, true⟩) (n : Nat) : (c.span n).InText source := by
  obtain ⟨hb, hle⟩ := h.isBoundary
  obtain ⟨hb', hle'⟩ := (h.skip n).isBoundary
  exact ⟨Nat.le_add_right _ _, hle', hb, hb'⟩

theorem refuse_pointsInto (h : (ofSource source).Before ⟨c, true⟩) (fault : Token.Fault) (n : Nat) :
    (refuse fault (c.span n)).PointsInto source := ⟨.inl rfl, _, rfl, span_inText h n⟩

theorem stepOf_inText (h : (ofSource source).Before ⟨c, true⟩) (s : Token.Scan (Token.Kind × List Char)) :
    (stepOf c bit newline s).InText source := by
  unfold stepOf
  split
  · exact ⟨fun _ ht => Except.ok.inj ht ▸ span_inText h _, nofun, h, h.skip _⟩
  · exact ⟨nofun, fun _ hd => Except.error.inj hd ▸ refuse_pointsInto h _ _, h, h.skip _⟩

theorem next_inText (h : (ofSource source).Before l) : l.next.InText source := by
  have hs : (ofSource source).Before ⟨l.cursor.skip (Token.trivia l.cursor.rest).size, true⟩ := h.skip _
  unfold next
  dsimp only
  split
  · exact ⟨nofun, fun _ hd => Except.error.inj hd ▸ refuse_pointsInto hs _ _, hs, hs.skip _⟩
  · exact stepOf_inText hs _

end Lexer

/-! ## Readings -/

namespace Grammar

open Token (Kind)

/-- The token in hand is in the text, and so is what is read from. -/
structure State.InText (source : List Char) (s : State) : Prop where
  token : s.token.span.InText source
  start : (Lexer.ofSource source).Before ⟨s.start, true⟩
  lexer : (Lexer.ofSource source).Before s.lexer

/-- A reading ended in the text, or with a diagnostic that points into it. -/
def Outcome.InText {α : Type} (source : List Char) : Outcome α → Prop
  | .done _ s   => s.InText source
  | .refused d  => d.PointsInto source
  | .exhausted  => True

/-- **The reading stays in the text**, wherever in it it starts, and points into it when it refuses. -/
def Stays {α : Type} (source : List Char) (x : Reading α) : Prop := ∀ s : State, s.InText source → (x s).InText source

variable {source : List Char} {α β : Type} {x : Reading α} {k : Kind} {fault : Fault} {t : Token}

theorem Reading.bind_assoc {γ : Type} (x : Reading α) (f : α → Reading β) (g : β → Reading γ) :
    x >>= f >>= g = x >>= fun a => f a >>= g := by
  funext s
  show Reading.bind (Reading.bind x f) g s = Reading.bind x (fun a => Reading.bind (f a) g) s
  unfold Reading.bind
  cases x s <;> rfl

namespace Stays

theorem pure {a : α} : Stays source (Pure.pure a) := fun _ hs => hs

theorem bind {f : α → Reading β} (h : Stays source x) (hf : ∀ a, Stays source (f a)) : Stays source (x >>= f) := by
  intro s hs
  have hx := h s hs
  show (Reading.bind x f s).InText source
  unfold Reading.bind
  split
  · rename_i ho
    rw [ho] at hx
    exact hf _ _ hx
  · rename_i ho
    rw [ho] at hx
    exact hx
  · trivial

theorem finish {start : Nat} {make : Span → α} : Stays source (Reading.finish start make) := fun _ hs => hs

theorem refuseAt (ht : t.span.InText source) : Stays source (Reading.refuseAt t fault : Reading α) :=
  fun _ _ => ⟨.inr rfl, _, rfl, ht⟩

theorem refuse : Stays source (Reading.refuse fault : Reading α) := fun _ hs => refuseAt hs.token _ hs

theorem refuseToken : Stays source (Reading.refuseToken : Reading α) := fun _ hs => refuseAt hs.token _ hs

section

variable {f : Token → Reading β}

/-- The token in hand is in the text. -/
theorem token (h : ∀ t : Token, t.span.InText source → Stays source (f t)) : Stays source (Reading.token >>= f) :=
  fun s hs => h _ hs.token s hs

/-- The token that is taken is in the text, and so is the next one, or what is there instead. -/
theorem advance (h : ∀ t : Token, t.span.InText source → Stays source (f t)) : Stays source (Reading.advance >>= f) := by
  intro s hs
  have hn := Lexer.next_inText hs.lexer
  cases ho : s.lexer.next.outcome with
  | ok t =>
    have ha : Reading.advance s =
        .done s.token ⟨t, s.lexer.next.start, s.lexer.next.after, s.token.span.stop, s.inFunction⟩ := by
      unfold Reading.advance
      dsimp only
      rw [ho]
    rw [Reading.bind_of_done ha]
    exact h _ hs.token _ ⟨hn.token t ho, hn.start, hn.after⟩
  | error d =>
    have ha : Reading.advance s = .refused d := by
      unfold Reading.advance
      dsimp only
      rw [ho]
    rw [Reading.bind_of_refused ha]
    exact hn.fault d ho

end

section

variable {f : Bool → Reading β}

theorem at_ (h : ∀ c, Stays source (f c)) : Stays source (Reading.at? k >>= f) := fun s hs => h _ s hs

theorem inFunction (h : ∀ c, Stays source (f c)) : Stays source (Reading.inFunction >>= f) := fun s hs => h _ s hs

theorem atStatementEnd (h : ∀ c, Stays source (f c)) : Stays source (Reading.atStatementEnd >>= f) := fun s hs => h _ s hs

end

theorem kind {f : Kind → Reading β} (h : ∀ k, Stays source (f k)) : Stays source (Reading.kind >>= f) := fun s hs => h _ s hs

theorem place {f : Nat → Reading β} (h : ∀ n, Stays source (f n)) : Stays source (Reading.place >>= f) := fun s hs => h _ s hs

theorem expect {f : Token → Reading β} (h : ∀ t : Token, t.span.InText source → Stays source (f t)) :
    Stays source (Reading.expect k fault >>= f) := by
  unfold Reading.expect
  rw [Reading.bind_assoc]
  refine at_ fun c => ?_
  cases c
  · exact fun s hs => @refuse source β fault s hs
  · exact advance h

theorem accept {f : Bool → Reading β} (h : ∀ c, Stays source (f c)) : Stays source (Reading.accept k >>= f) := by
  refine bind ?_ h
  refine at_ fun c => ?_
  cases c
  · exact pure
  · exact advance fun _ _ => pure

theorem rereadRegex : Stays source Reading.rereadRegex := by
  intro s hs
  have hr : (Lexer.regexAt s.start s.lexer.regexAllowed s.token.newlineBefore).InText source := Lexer.stepOf_inText hs.start _
  unfold Reading.rereadRegex
  dsimp only
  split
  · exact hr.fault _ ‹_›
  · exact ⟨hr.token _ ‹_›, hr.start, hr.after⟩

theorem withinFunction (h : Stays source x) : Stays source (Reading.withinFunction x) := by
  intro s hs
  have hx := h { s with inFunction := true } ⟨hs.token, hs.start, hs.lexer⟩
  unfold Reading.withinFunction
  split
  · rename_i ho
    rw [ho] at hx
    exact ⟨hx.token, hx.start, hx.lexer⟩
  · rename_i ho
    rw [ho] at hx
    exact hx
  · trivial

theorem endStatement : Stays source Reading.endStatement := by
  refine accept fun c => ?_
  cases c
  · refine atStatementEnd fun c => ?_
    cases c
    · exact refuseToken
    · exact pure
  · exact pure

end Stays

/-! ## The rules -/

section

variable {start : Nat}

theorem regexLiteral_stays : Stays source (regexLiteral start) := .advance fun _ _ => .finish

theorem literal_stays {v : Literal} : Stays source (literal start v) := .advance fun _ _ => .finish

theorem number_stays : Stays source (number start) := by
  refine .advance fun t ht => ?_
  split
  · exact .finish
  · exact .refuseAt ht

theorem functionName_stays : Stays source functionName := by
  refine .at_ fun c => ?_
  cases c
  · exact .pure
  · exact .advance fun _ _ => .pure

theorem jumpLabel_stays : Stays source jumpLabel := by
  refine .token fun t _ => ?_
  split
  · exact .advance fun _ _ => .pure
  · exact .pure

theorem jumpStatement_stays {make : Span → Option String → Stmt} : Stays source (jumpStatement start make) :=
  .advance fun _ _ => .bind jumpLabel_stays fun _ => .bind .endStatement fun _ => .finish

/-! The rules that refer to rules stay in the text if those do. -/

variable {rs : Rules} (H : ∀ r, Stays source (rs r))

include H

theorem block_stays : Stays source (block rs) := .expect fun _ _ => H .blockRest

theorem params_stays : Stays source (params rs) := by
  refine .expect fun _ _ => .accept fun c => ?_
  cases c
  · exact .pure
  · exact .bind (H .params) fun _ => .pure

theorem parameters_stays : Stays source (parameters rs) := by
  refine .at_ fun c => ?_
  cases c
  · exact H .params
  · exact .pure

theorem signature_stays : Stays source (signatureAndBody rs) :=
  .expect fun _ _ => .bind (parameters_stays H) fun _ => .expect fun _ _ =>
    .bind (.withinFunction (block_stays H)) fun _ => .pure

theorem functionLiteral_stays : Stays source (functionLiteral rs start) :=
  .advance fun _ _ => .bind functionName_stays fun _ => .bind (signature_stays H) fun _ => .finish

theorem group_stays : Stays source (group rs start) :=
  .advance fun _ _ => .bind (H .expression) fun _ => .expect fun _ _ => .finish

theorem primary_stays : Stays source (primary rs) := by
  refine .token fun t ht => ?_
  dsimp only
  split
  · exact number_stays
  · exact literal_stays
  · exact regexLiteral_stays
  · exact .advance fun _ _ => .finish
  · exact literal_stays
  · exact literal_stays
  · exact literal_stays
  · exact .advance fun _ _ => .finish
  · exact functionLiteral_stays H
  · exact group_stays H
  · exact .advance fun _ _ => .bind (H .elementsRest) fun _ => .finish
  · exact .advance fun _ _ => .bind (H .propertiesRest) fun _ => .finish
  · exact .bind .rereadRegex fun _ => regexLiteral_stays
  · exact .refuse
  · split
    · exact .bind .rereadRegex fun _ => regexLiteral_stays
    · exact .refuseToken

theorem memberSuffix_stays {target : Expr} : Stays source (memberSuffix rs target) := by
  refine .accept fun c => ?_
  cases c
  · exact .advance fun _ _ => .bind (H .expression) fun _ => .expect fun _ _ => .finish
  · refine .kind fun k => ?_
    split
    · exact .advance fun _ _ => .finish
    · exact .advance fun _ _ => .finish
    · exact .refuse

theorem callRest_stays {callee : Expr} : Stays source (callRest rs callee) := by
  refine .kind fun k => ?_
  split
  · exact .advance fun _ _ => .bind (H .argumentsRest) fun _ => .bind .finish fun _ => H (.callRest _)
  · exact .bind (memberSuffix_stays H) fun _ => H (.callRest _)
  · exact .bind (memberSuffix_stays H) fun _ => H (.callRest _)
  · exact .pure

theorem memberRest_stays {target : Expr} : Stays source (memberRest rs target) := by
  refine .kind fun k => ?_
  split
  · exact .bind (memberSuffix_stays H) fun _ => H (.memberRest _)
  · exact .bind (memberSuffix_stays H) fun _ => H (.memberRest _)
  · exact .pure

theorem newTarget_stays : Stays source (newTarget rs) := by
  refine .at_ fun c => ?_
  cases c
  · exact primary_stays H
  · exact H .construct

theorem newArguments_stays : Stays source (newArguments rs) := by
  refine .accept fun c => ?_
  cases c
  · exact .pure
  · exact H .argumentsRest

theorem construct_stays : Stays source (construct rs) :=
  .place fun _ => .advance fun _ _ => .bind (newTarget_stays H) fun _ => .bind (H (.memberRest _)) fun _ =>
    .bind (newArguments_stays H) fun _ => .finish

theorem operand_stays : Stays source (operand rs) := by
  refine .at_ fun c => ?_
  cases c
  · exact primary_stays H
  · exact construct_stays H

theorem call_stays : Stays source (call rs) := .bind (operand_stays H) fun _ => H (.callRest _)

theorem update_stays : Stays source (update rs) := by
  refine .bind (call_stays H) fun target => .token fun t _ => ?_
  split
  · split
    · exact .pure
    · exact .advance fun _ _ => .pure
  · exact .pure

theorem unary_stays : Stays source (unary rs) := by
  refine .token fun t _ => ?_
  split
  · exact .advance fun _ _ => .bind (H .unary) fun _ => .pure
  · exact .advance fun _ _ => .bind (H .unary) fun _ => .pure
  · exact update_stays H

theorem binaryRest_stays {least : Nat} {left : Expr} : Stays source (binaryRest rs least left) := by
  refine .kind fun k => ?_
  split
  · split
    · exact .pure
    · exact .advance fun _ _ => .bind (H (.binary _)) fun _ => H (.binaryRest _ _)
  · exact .pure

theorem binary_stays {least : Nat} : Stays source (binary rs least) := .bind (unary_stays H) fun _ => H (.binaryRest _ _)

theorem conditional_stays : Stays source (conditional rs) := by
  refine .bind (binary_stays H) fun test => .accept fun c => ?_
  cases c
  · exact .pure
  · exact .bind (H .assignment) fun _ => .expect fun _ _ => .bind (H .assignment) fun _ => .pure

theorem assignmentRest_stays {target : Expr} {op : Option BinaryOp} : Stays source (assignmentRest rs target op) := by
  refine .advance fun t ht => ?_
  split
  · exact .bind (H .assignment) fun _ => .pure
  · exact .refuseAt ht

theorem assignment_stays : Stays source (assignment rs) := by
  refine .bind (conditional_stays H) fun target => .token fun t _ => ?_
  split
  · exact assignmentRest_stays H
  · split
    · exact assignmentRest_stays H
    · exact .refuse
  · exact .pure

theorem itemsRest_stays : Stays source (itemsRest rs) := by
  refine .accept fun c => ?_
  cases c
  · exact .pure
  · exact .bind (H .assignment) fun _ => .bind (H .itemsRest) fun _ => .pure

theorem expression_stays : Stays source (expression rs) := by
  refine .bind (assignment_stays H) fun first => .at_ fun c => ?_
  cases c
  · exact .pure
  · exact .bind (H .itemsRest) fun _ => .finish

theorem elementsRest_stays : Stays source (elementsRest rs) := by
  refine .accept fun c => ?_
  cases c
  · refine .accept fun c => ?_
    cases c
    · refine .bind (assignment_stays H) fun item => .at_ fun c => ?_
      cases c
      · exact .expect fun _ _ => .bind (H .elementsRest) fun _ => .pure
      · exact .bind (H .elementsRest) fun _ => .pure
    · exact .bind (H .elementsRest) fun _ => .pure
  · exact .pure

theorem argumentsRest_stays : Stays source (argumentsRest rs) := by
  refine .accept fun c => ?_
  cases c
  · refine .bind (assignment_stays H) fun first => .accept fun c => ?_
    cases c
    · exact .expect fun _ _ => .pure
    · exact .bind (H .argumentsRest) fun _ => .pure
  · exact .pure

theorem propertyKey_stays (ht : t.span.InText source) : Stays source (propertyKey rs t) := by
  unfold propertyKey
  split
  · exact .advance fun _ _ => .pure
  · exact .advance fun _ _ => .pure
  · exact .advance fun _ _ => .pure
  · refine .advance fun _ _ => ?_
    split
    · exact .pure
    · exact .refuseAt ht
  · exact .advance fun _ _ => .bind (H .assignment) fun _ => .expect fun _ _ => .pure
  · exact .refuseAt ht

theorem property_stays : Stays source (property rs) := by
  refine .token fun t ht => .bind (propertyKey_stays H ht) fun key => .kind fun k => ?_
  split
  · exact .finish
  · exact .expect fun _ _ => .bind (H .assignment) fun _ => .finish

theorem propertiesRest_stays : Stays source (propertiesRest rs) := by
  refine .accept fun c => ?_
  cases c
  · refine .bind (property_stays H) fun first => .accept fun c => ?_
    cases c
    · exact .expect fun _ _ => .pure
    · exact .bind (H .propertiesRest) fun _ => .pure
  · exact .pure

theorem initializer_stays {kind : DeclKind} : Stays source (initializer rs kind) := by
  refine .accept fun c => ?_
  cases c
  · simp only [Bool.false_eq_true, if_false]
    split
    · exact .refuse
    · exact .pure
  · exact .bind (H .assignment) fun _ => .pure

theorem declarators_stays {kind : DeclKind} : Stays source (declarators rs kind) := by
  refine .expect fun _ _ => .bind (initializer_stays H) fun init => .accept fun c => ?_
  cases c
  · exact .pure
  · exact .bind (H (.declarators _)) fun _ => .pure

theorem declaration_stays {kind : DeclKind} : Stays source (declaration rs kind) := .advance fun _ _ => H (.declarators _)

theorem condition_stays : Stays source (condition rs) :=
  .expect fun _ _ => .bind (H .expression) fun _ => .expect fun _ _ => .pure

theorem functionStatement_stays : Stays source (functionStatement rs start) :=
  .advance fun _ _ => .expect fun _ _ => .bind (signature_stays H) fun _ => .finish

theorem alternative_stays : Stays source (alternative rs) := by
  refine .accept fun c => ?_
  cases c
  · exact .pure
  · exact .bind (H .statement) fun _ => .pure

theorem chooseStatement_stays : Stays source (chooseStatement rs start) :=
  .advance fun _ _ => .bind (condition_stays H) fun _ => .bind (H .statement) fun _ =>
    .bind (alternative_stays H) fun _ => .finish

theorem whileStatement_stays : Stays source (whileStatement rs start) :=
  .advance fun _ _ => .bind (condition_stays H) fun _ => .bind (H .statement) fun _ => .finish

theorem doStatement_stays : Stays source (doStatement rs start) :=
  .advance fun _ _ => .bind (H .statement) fun _ => .expect fun _ _ => .bind (condition_stays H) fun _ =>
    .accept fun _ => .finish

theorem forInit_stays : Stays source (forInit rs) := by
  refine .at_ fun c => ?_
  cases c
  · refine .token fun t _ => ?_
    split
    · exact .bind (declaration_stays H) fun _ => .bind .finish fun _ => .pure
    · exact .bind (H .expression) fun _ => .bind .finish fun _ => .pure
  · exact .pure

theorem expressionUnless_stays : Stays source (expressionUnless rs k) := by
  refine .at_ fun c => ?_
  cases c
  · exact .bind (H .expression) fun _ => .pure
  · exact .pure

theorem forStatement_stays : Stays source (forStatement rs start) :=
  .advance fun _ _ => .expect fun _ _ => .bind (forInit_stays H) fun _ => .expect fun _ _ =>
    .bind (expressionUnless_stays H) fun _ => .expect fun _ _ => .bind (expressionUnless_stays H) fun _ =>
      .expect fun _ _ => .bind (H .statement) fun _ => .finish

theorem returned_stays : Stays source (returned rs) := by
  refine .atStatementEnd fun c => ?_
  cases c
  · exact .bind (H .expression) fun _ => .pure
  · exact .pure

theorem returnStatement_stays : Stays source (returnStatement rs) := by
  refine .advance fun t ht => .inFunction fun c => ?_
  cases c
  · exact .refuseAt ht
  · exact .bind (returned_stays H) fun _ => .bind .endStatement fun _ => .finish

theorem throwStatement_stays : Stays source (throwStatement rs start) := by
  refine .advance fun t ht => .token fun u _ => ?_
  split
  · exact .refuseAt ht
  · exact .bind (H .expression) fun _ => .bind .endStatement fun _ => .finish

theorem expressionStatement_stays : Stays source (expressionStatement rs start) := by
  refine .bind (expression_stays H) fun value => .at_ fun c => ?_
  split
  · exact .advance fun _ _ => .bind (H .statement) fun _ => .finish
  · exact .bind .endStatement fun _ => .finish

theorem statement_stays : Stays source (statement rs) := by
  refine .token fun t _ => ?_
  dsimp only
  split
  · exact .advance fun _ _ => .finish
  · exact .bind (block_stays H) fun _ => .finish
  · exact functionStatement_stays H
  · exact chooseStatement_stays H
  · exact whileStatement_stays H
  · exact doStatement_stays H
  · exact forStatement_stays H
  · exact returnStatement_stays H
  · exact jumpStatement_stays
  · exact jumpStatement_stays
  · exact throwStatement_stays H
  · split
    · exact .bind (declaration_stays H) fun _ => .bind .endStatement fun _ => .finish
    · exact expressionStatement_stays H

theorem blockRest_stays : Stays source (blockRest rs) := by
  refine .at_ fun c => ?_
  cases c
  · refine .at_ fun c => ?_
    cases c
    · exact .bind (statement_stays H) fun _ => .bind (H .blockRest) fun _ => .pure
    · exact .refuse
  · exact .advance fun _ _ => .pure

/-- **A rule stays in the text if the rules do that it refers to.** -/
theorem rule_stays (r : Rule) : Stays source (rule rs r) := by
  cases r with
  | statement => exact statement_stays H
  | blockRest => exact blockRest_stays H
  | declarators kind => exact declarators_stays H
  | params => exact params_stays H
  | expression => exact expression_stays H
  | itemsRest => exact itemsRest_stays H
  | assignment => exact assignment_stays H
  | binary least => exact binary_stays H
  | binaryRest least left => exact binaryRest_stays H
  | unary => exact unary_stays H
  | callRest callee => exact callRest_stays H
  | construct => exact construct_stays H
  | memberRest target => exact memberRest_stays H
  | argumentsRest => exact argumentsRest_stays H
  | elementsRest => exact elementsRest_stays H
  | propertiesRest => exact propertiesRest_stays H

end

/-- However many steps are allowed, a rule stays in the text. -/
theorem rules_stay (n : Nat) (r : Rule) : Stays source (rules n r) := by
  induction n generalizing r with
  | zero => exact fun _ _ => trivial
  | succ n ih => exact rule_stays ih r

theorem read_stays (r : Rule) : Stays source (read r) := fun s hs => rules_stay _ r s hs

/-- **A reading of the text, from any place on, ends in the text or points into it.** -/
theorem start_inText {l : Lexer} (hl : (Lexer.ofSource source).Before l) (hx : Stays source x) :
    (Grammar.start l x).InText source := by
  have hn := Lexer.next_inText hl
  unfold Grammar.start State.first
  dsimp only
  cases ho : l.next.outcome with
  | ok t => exact hx _ ⟨hn.token t ho, hn.start, hn.after⟩
  | error d => exact hn.fault d ho

end Grammar

open Grammar

/-- **A text that is refused as an expression is pointed into.** -/
theorem pointsInto_of_parseExpressionAt {source : String} {offset : Nat} {l : Lexer} {d : Diagnostic}
    (hl : Lexer.at? source.toList offset = some l) (h : parseExpressionAt source offset = .error d) :
    d.PointsInto source.toList := by
  have hin : (expressionOutcome l).InText source.toList := start_inText (Lexer.before_of_at hl) (read_stays .expression)
  have hends : expressionOutcome l ≠ .exhausted := (expressionOutcome_ends (Nat.lt_succ_self _)).2
  unfold parseExpressionAt at h
  rw [hl] at h
  dsimp only at h
  cases ho : expressionOutcome l with
  | done e s =>
    rw [ho] at h
    cases h
  | refused d' =>
    rw [ho] at h hin
    obtain rfl := Except.error.inj h
    exact hin
  | exhausted => exact absurd ho hends

end Readback
