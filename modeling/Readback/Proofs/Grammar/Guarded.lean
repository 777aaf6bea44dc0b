import Readback.Proofs.Grammar.Ends
import Readback.Proofs.Grammar.Unique
/-!
# Rules refer to what is further on

A rule takes a token before it refers to a rule.  So rules that come to the same ends behind a token make the same of the text
from that token on (`rule_ends`), and what goes round in a loop takes a token each time round.
-/
namespace Readback.Grammar

open Token (Kind)

/-- The rule goes on with what was read, and there may be nothing to take. -/
def Rule.goesOn : Rule → Bool
  | .itemsRest | .binaryRest _ _ | .callRest _ | .memberRest _ => true
  | _ => false

/-- The rule takes the token in hand, or it may go on without one. -/
def Rule.Passes (r : Rule) (l l' : Lexer) : Prop := if r.goesOn then l.Goes l' else Opens l l'

/-- What is constructed starts with its word; the other rules may be asked for anywhere. -/
def Rule.Applies (r : Rule) (l : Lexer) : Prop := r = .construct → l.hand.kind = .keyword .new

/-- **Two sorts of rules come to the same ends behind the token in hand.** -/
def Agree (rs rs' : Rules) (l₀ : Lexer) : Prop :=
  ∀ (r : Rule) (b : Bool) (l : Lexer), l.Ready → Opens l₀ l → r.Applies l → Ends b (rs r) (rs' r) l l.Goes

theorem Rule.Passes.goes {r : Rule} {l l' : Lexer} (h : r.Passes l l') : l.Goes l' := by
  unfold Rule.Passes at h
  split at h
  · exact h
  · exact h.goes

/-- A token further on is behind the first one. -/
@[grind →] theorem Opens.of_goes {l₀ l l' : Lexer} (h : l₀.Goes l) (h' : Opens l l') : Opens l₀ l' := by
  cases h with
  | stay => exact h'
  | step h₁ h₂ => exact ⟨_, .inl h₁, h₂.trans h'.goes⟩
  | reread h₁ h₂ => exact ⟨_, .inr ⟨_, h₁⟩, h₂.trans h'.goes⟩

attribute [grind →] Opens.goes

section

variable {rs rs' : Rules} {b : Bool} {l₀ l : Lexer} {k : Kind} {start : Nat}

/-! ## Functions -/

theorem block_ends (H : Agree rs rs' l₀) (h : l₀.Goes l) (hl : l.Ready) : Ends b (block rs) (block rs') l (Opens l) :=
  .expect hl (by decide) fun l₁ h₁ => (H .blockRest b l₁ h₁.ready' (by grind) nofun).imp fun _ h₂ => by grind

theorem params_ends (H : Agree rs rs' l₀) (h : l₀.Goes l) (hl : l.Ready) : Ends b (params rs) (params rs') l (Opens l) := by
  refine .expect hl (by decide) fun l₁ h₁ => .accept h₁.ready' (by decide) (fun l₂ h₂ => ?_) fun _ => ?_
  · exact (H .params b l₂ h₂.ready' (by grind) nofun).bind fun _ _ hr h₃ => .pure hr (by grind)
  · exact .pure h₁.ready' (by grind)

theorem parameters_ends (H : Agree rs rs' l₀) (h : Opens l₀ l) (hl : l.Ready) :
    Ends b (parameters rs) (parameters rs') l l.Goes :=
  .at_ (fun _ => .pure hl .stay) fun _ => H .params b l hl h nofun

theorem signature_ends (H : Agree rs rs' l₀) (h : l₀.Goes l) (hl : l.Ready) :
    Ends b (signatureAndBody rs) (signatureAndBody rs') l (Opens l) := by
  refine .expect hl (by decide) fun l₁ h₁ => (parameters_ends H (by grind) h₁.ready').bind fun names l₂ hr₂ h₂ => ?_
  refine .expect hr₂ (by decide) fun l₃ h₃ => ?_
  exact (Ends.withinFunction (block_ends H (by grind) h₃.ready')).bind fun _ _ hr h₄ => .pure hr (by grind)

/-! ## Primary expressions -/

theorem regexLiteral_ends (hl : l.Ready) (hk : l.hand.kind = .regex) :
    Ends b (regexLiteral start) (regexLiteral start) l (Opens l) :=
  .take hl hk (by decide) fun _ h => .finish h.ready' (.of_takes h)

theorem literal_ends {v : Literal} (hl : l.Ready) (hk : l.hand.kind = k) (he : k ≠ .eof) :
    Ends b (literal start v) (literal start v) l (Opens l) :=
  .take hl hk he fun _ h => .finish h.ready' (.of_takes h)

theorem number_ends (hl : l.Ready) (hk : l.hand.kind = .number) : Ends b (number start) (number start) l (Opens l) := by
  refine .take hl hk (by decide) fun _ h => ?_
  split
  · exact .finish h.ready' (.of_takes h)
  · exact .refuseAt

theorem functionName_ends (hl : l.Ready) : Ends b functionName functionName l l.Goes :=
  .at_ (fun hk => .take hl hk (by decide) fun _ h => .pure h.ready' h.goes) fun _ => .pure hl .stay

theorem functionLiteral_ends (H : Agree rs rs' l₀) (h : l₀.Goes l) (hl : l.Ready) (hk : l.hand.kind = .keyword .function) :
    Ends b (functionLiteral rs start) (functionLiteral rs' start) l (Opens l) := by
  refine .take hl hk (by decide) fun l₁ h₁ => (functionName_ends h₁.ready').bind fun name l₂ hr₂ h₂ => ?_
  exact (signature_ends H (by grind) hr₂).bind fun _ _ hr h₃ => .finish hr (by grind)

theorem group_ends (H : Agree rs rs' l₀) (h : l₀.Goes l) (hl : l.Ready) (hk : l.hand.kind = .lParen) :
    Ends b (group rs start) (group rs' start) l (Opens l) := by
  refine .take hl hk (by decide) fun l₁ h₁ => (H .expression b l₁ h₁.ready' (by grind) nofun).bind fun e l₂ hr₂ h₂ => ?_
  exact .expect hr₂ (by decide) fun _ h₃ => .finish h₃.ready' (by grind)

/-- **A slash that is read once more** makes a regular expression, and that is taken, or it makes none. -/
theorem slash_ends (hs : l.HoldsSlash) :
    Ends b (do Reading.rereadRegex; regexLiteral start) (do Reading.rereadRegex; regexLiteral start) l
      (fun l' => ∃ u, l.Rereads u l') := by
  cases hu : l.again.outcome with
  | error d =>
    have hread := @Reading.rereadRegex_of_error l b d hu
    exact .refused (Reading.bind_of_refused hread) (Reading.bind_of_refused hread)
  | ok u =>
    cases ho : l.again.after.next.outcome with
    | error d =>
      have hlast : regexLiteral start ⟨u, l.again.start, l.again.after, l.cursor.pos, b⟩ = .refused d := by
        refine Reading.bind_of_refused ?_
        unfold Reading.advance
        dsimp only
        rw [ho]
      have hread := @Reading.rereadRegex_of_ok l b u hu
      exact .refused ((Reading.bind_of_done hread).trans hlast) ((Reading.bind_of_done hread).trans hlast)
    | ok t =>
      have hr : l.Rereads u l.again.after := ⟨hs.1, hs.2, hu, rfl, t, ho⟩
      have hlast := @Reading.reread_of_rereads l _ b _ (fun _ => regexLiteral start) _ u hr rfl
      exact .done hlast hlast hr.ready' ⟨u, hr⟩

theorem primary_ends (H : Agree rs rs' l₀) (h : l₀.Goes l) (hl : l.Ready) :
    Ends b (primary rs) (primary rs') l (Opens l) := by
  have slash (hs : l.HoldsSlash) := (@slash_ends b l l.hand.span.start hs).imp fun _ ⟨_, hu⟩ => Opens.of_rereads hu
  refine .token ?_
  dsimp only
  split
  · exact number_ends hl ‹_›
  · exact literal_ends hl ‹_› (by decide)
  · exact regexLiteral_ends hl ‹_›
  · exact .take hl ‹_› (by decide) fun _ h => .finish h.ready' (.of_takes h)
  · exact literal_ends hl ‹_› (by decide)
  · exact literal_ends hl ‹_› (by decide)
  · exact literal_ends hl ‹_› (by decide)
  · exact .take hl ‹_› (by decide) fun _ h => .finish h.ready' (.of_takes h)
  · exact functionLiteral_ends H h hl ‹_›
  · exact group_ends H h hl ‹_›
  · exact .take hl ‹_› (by decide) fun l₁ h₁ =>
      (H .elementsRest b l₁ h₁.ready' (by grind) nofun).bind fun _ _ hr h₂ => .finish hr (by grind)
  · exact .take hl ‹_› (by decide) fun l₁ h₁ =>
      (H .propertiesRest b l₁ h₁.ready' (by grind) nofun).bind fun _ _ hr h₂ => .finish hr (by grind)
  · exact slash ⟨hl, .inl ‹_›⟩
  · exact .refuse
  · split
    · exact slash ⟨hl, .inr ‹_›⟩
    · exact .refuseToken

/-! ## Members, calls and `new` -/

theorem memberSuffix_ends {target : Expr} (H : Agree rs rs' l₀) (h : l₀.Goes l) (hl : l.Ready)
    (hk : l.hand.kind = .dot ∨ l.hand.kind = .lBracket) :
    Ends b (memberSuffix rs target) (memberSuffix rs' target) l (Opens l) := by
  refine .accept hl (by decide) (fun l₁ h₁ => .kind ?_) fun hn => ?_
  · split
    · exact .take h₁.ready' ‹_› (by decide) fun _ h₂ => .finish h₂.ready' (by grind)
    · rename_i word hw
      exact .take h₁.ready' hw nofun fun _ h₂ => .finish h₂.ready' (by grind)
    · exact .refuse
  · refine .take hl (hk.resolve_left hn) (by decide) fun l₁ h₁ => ?_
    refine (H .expression b l₁ h₁.ready' (by grind) nofun).bind fun i l₂ hr₂ h₂ => ?_
    exact .expect hr₂ (by decide) fun l₃ h₃ => .finish h₃.ready' (by grind)

theorem callRest_ends {callee : Expr} (H : Agree rs rs' l₀) (h : l₀.Goes l) (hl : l.Ready) :
    Ends b (callRest rs callee) (callRest rs' callee) l l.Goes := by
  -- a call or a member that goes on has taken a token
  have more (e : Expr) (l₁ : Lexer) (hr₁ : l₁.Ready) (h₁ : Opens l l₁) :
      Ends b (rs (.callRest e)) (rs' (.callRest e)) l₁ l.Goes :=
    (H (.callRest e) b l₁ hr₁ (by grind) nofun).imp fun _ h₂ => by grind
  refine .kind ?_
  split
  · refine .take hl ‹_› (by decide) fun l₁ h₁ => ?_
    refine (H .argumentsRest b l₁ h₁.ready' (by grind) nofun).bind fun args l₂ hr₂ h₂ => ?_
    exact .bind (.finish hr₂ (show Opens l l₂ by grind)) more
  · exact (memberSuffix_ends H h hl (.inl ‹_›)).bind more
  · exact (memberSuffix_ends H h hl (.inr ‹_›)).bind more
  · exact .pure hl .stay

theorem memberRest_ends {target : Expr} (H : Agree rs rs' l₀) (h : l₀.Goes l) (hl : l.Ready) :
    Ends b (memberRest rs target) (memberRest rs' target) l l.Goes := by
  have more (e : Expr) (l₁ : Lexer) (hr₁ : l₁.Ready) (h₁ : Opens l l₁) :
      Ends b (rs (.memberRest e)) (rs' (.memberRest e)) l₁ l.Goes :=
    (H (.memberRest e) b l₁ hr₁ (by grind) nofun).imp fun _ h₂ => by grind
  refine .kind ?_
  split
  · exact (memberSuffix_ends H h hl (.inl ‹_›)).bind more
  · exact (memberSuffix_ends H h hl (.inr ‹_›)).bind more
  · exact .pure hl .stay

theorem newTarget_ends (H : Agree rs rs' l₀) (h : Opens l₀ l) (hl : l.Ready) :
    Ends b (newTarget rs) (newTarget rs') l l.Goes :=
  .at_ (fun hk => H .construct b l hl h fun _ => hk) fun _ => (primary_ends H h.goes hl).imp fun _ h₁ => h₁.goes

theorem newArguments_ends (H : Agree rs rs' l₀) (h : l₀.Goes l) (hl : l.Ready) :
    Ends b (newArguments rs) (newArguments rs') l l.Goes :=
  .accept hl (by decide) (fun l₁ h₁ => (H .argumentsRest b l₁ h₁.ready' (by grind) nofun).imp fun _ h₂ => by grind)
    fun _ => .pure hl .stay

theorem construct_ends (H : Agree rs rs' l₀) (h : l₀.Goes l) (hl : l.Ready) (hk : l.hand.kind = .keyword .new) :
    Ends b (construct rs) (construct rs') l (Opens l) := by
  refine .place (.take hl hk (by decide) fun l₁ h₁ => (newTarget_ends H (by grind) h₁.ready').bind fun target l₂ hr₂ h₂ => ?_)
  refine (H (.memberRest target) b l₂ hr₂ (by grind) nofun).bind fun callee l₃ hr₃ h₃ => ?_
  exact (newArguments_ends H (by grind) hr₃).bind fun args l₄ hr₄ h₄ => .finish hr₄ (by grind)

theorem operand_ends (H : Agree rs rs' l₀) (h : l₀.Goes l) (hl : l.Ready) :
    Ends b (operand rs) (operand rs') l (Opens l) :=
  .at_ (fun hk => construct_ends H h hl hk) fun _ => primary_ends H h hl

theorem call_ends (H : Agree rs rs' l₀) (h : l₀.Goes l) (hl : l.Ready) : Ends b (call rs) (call rs') l (Opens l) := by
  refine (operand_ends H h hl).bind fun first l₁ hr₁ h₁ => ?_
  exact (H (.callRest first) b l₁ hr₁ (by grind) nofun).imp fun _ h₂ => by grind

/-! ## Operators -/

theorem update_ends (H : Agree rs rs' l₀) (h : l₀.Goes l) (hl : l.Ready) : Ends b (update rs) (update rs') l (Opens l) := by
  refine (call_ends H h hl).bind fun target l₁ hr₁ h₁ => .token ?_
  split
  · rename_i op hop
    split
    · exact .pure hr₁ h₁
    · exact .advance hr₁ (ne_eof_of_updateOp hop) fun l₂ h₂ => .pure h₂.ready' (by grind)
  · exact .pure hr₁ h₁

theorem unary_ends (H : Agree rs rs' l₀) (h : l₀.Goes l) (hl : l.Ready) : Ends b (unary rs) (unary rs') l (Opens l) := by
  have operand {make : Expr → Expr} (l₁ : Lexer) (h₁ : l.Steps l₁) :
      Ends b (rs .unary >>= fun e => pure (make e)) (rs' .unary >>= fun e => pure (make e)) l₁ (Opens l) :=
    (H .unary b l₁ h₁.ready' (by grind) nofun).bind fun _ _ hr h₂ => .pure hr (by grind)
  refine .token ?_
  split
  · rename_i op hop
    exact .advance hl (ne_eof_of_unaryOp hop) fun l₁ h₁ => operand l₁ h₁
  · rename_i op hn hop
    exact .advance hl (ne_eof_of_updateOp hop) fun l₁ h₁ => operand l₁ h₁
  · exact update_ends H h hl

theorem binaryRest_ends {least : Nat} {left : Expr} (H : Agree rs rs' l₀) (h : l₀.Goes l) (hl : l.Ready) :
    Ends b (binaryRest rs least left) (binaryRest rs' least left) l l.Goes := by
  refine .kind ?_
  split
  · rename_i op hop
    split
    · exact .pure hl .stay
    · refine .advance hl (ne_eof_of_binaryOp hop) fun l₁ h₁ => ?_
      refine (H (.binary op.rightPrecedence) b l₁ h₁.ready' (by grind) nofun).bind fun right l₂ hr₂ h₂ => ?_
      exact (H (.binaryRest least _) b l₂ hr₂ (by grind) nofun).imp fun _ h₃ => by grind
  · exact .pure hl .stay

theorem binary_ends {least : Nat} (H : Agree rs rs' l₀) (h : l₀.Goes l) (hl : l.Ready) :
    Ends b (binary rs least) (binary rs' least) l (Opens l) := by
  refine (unary_ends H h hl).bind fun left l₁ hr₁ h₁ => ?_
  exact (H (.binaryRest least left) b l₁ hr₁ (by grind) nofun).imp fun _ h₂ => by grind

theorem conditional_ends (H : Agree rs rs' l₀) (h : l₀.Goes l) (hl : l.Ready) :
    Ends b (conditional rs) (conditional rs') l (Opens l) := by
  refine (binary_ends H h hl).bind fun test l₁ hr₁ h₁ => .accept hr₁ (by decide) (fun l₂ h₂ => ?_) fun _ => .pure hr₁ h₁
  refine (H .assignment b l₂ h₂.ready' (by grind) nofun).bind fun yes l₃ hr₃ h₃ => .expect hr₃ (by decide) fun l₄ h₄ => ?_
  exact (H .assignment b l₄ h₄.ready' (by grind) nofun).bind fun _ _ hr h₅ => .pure hr (by grind)

theorem assignmentRest_ends {target : Expr} {op : Option BinaryOp} (H : Agree rs rs' l₀) (h : l₀.Goes l) (hl : l.Ready)
    (hk : l.hand.kind = k) (he : k ≠ .eof) :
    Ends b (assignmentRest rs target op) (assignmentRest rs' target op) l (Opens l) := by
  refine .take hl hk he fun l₁ h₁ => ?_
  split
  · exact (H .assignment b l₁ h₁.ready' (by grind) nofun).bind fun _ _ hr h₂ => .pure hr (by grind)
  · exact .refuseAt

theorem assignment_ends (H : Agree rs rs' l₀) (h : l₀.Goes l) (hl : l.Ready) :
    Ends b (assignment rs) (assignment rs') l (Opens l) := by
  refine (conditional_ends H h hl).bind fun target l₁ hr₁ h₁ => .token ?_
  split
  · exact (assignmentRest_ends H (by grind) hr₁ ‹_› (by decide)).imp fun _ h₂ => by grind
  · split
    · exact (assignmentRest_ends H (by grind) hr₁ ‹_› (by decide)).imp fun _ h₂ => by grind
    · exact .refuse
  · exact .pure hr₁ h₁

theorem itemsRest_ends (H : Agree rs rs' l₀) (h : l₀.Goes l) (hl : l.Ready) :
    Ends b (itemsRest rs) (itemsRest rs') l l.Goes := by
  refine .accept hl (by decide) (fun l₁ h₁ => ?_) fun _ => .pure hl .stay
  refine (H .assignment b l₁ h₁.ready' (by grind) nofun).bind fun first l₂ hr₂ h₂ => ?_
  exact (H .itemsRest b l₂ hr₂ (by grind) nofun).bind fun _ _ hr h₃ => .pure hr (by grind)

theorem expression_ends (H : Agree rs rs' l₀) (h : l₀.Goes l) (hl : l.Ready) :
    Ends b (expression rs) (expression rs') l (Opens l) := by
  refine (assignment_ends H h hl).bind fun first l₁ hr₁ h₁ => .at_ (fun _ => ?_) fun _ => .pure hr₁ h₁
  exact (H .itemsRest b l₁ hr₁ (by grind) nofun).bind fun _ _ hr h₂ => .finish hr (by grind)

/-! ## Elements, arguments and properties -/

theorem elementsRest_ends (H : Agree rs rs' l₀) (h : l₀.Goes l) (hl : l.Ready) :
    Ends b (elementsRest rs) (elementsRest rs') l (Opens l) := by
  refine .accept hl (by decide) (fun l₁ h₁ => .pure h₁.ready' (.of_takes h₁)) fun _ => ?_
  refine .accept hl (by decide) (fun l₁ h₁ => ?_) fun _ => ?_
  · exact (H .elementsRest b l₁ h₁.ready' (by grind) nofun).bind fun _ _ hr h₂ => .pure hr (by grind)
  · refine (assignment_ends H h hl).bind fun item l₁ hr₁ h₁ => .at_ (fun _ => ?_) fun _ => ?_
    · exact (H .elementsRest b l₁ hr₁ (by grind) nofun).bind fun _ _ hr h₂ => .pure hr (by grind)
    · refine .expect hr₁ (by decide) fun l₂ h₂ => ?_
      exact (H .elementsRest b l₂ h₂.ready' (by grind) nofun).bind fun _ _ hr h₃ => .pure hr (by grind)

theorem argumentsRest_ends (H : Agree rs rs' l₀) (h : l₀.Goes l) (hl : l.Ready) :
    Ends b (argumentsRest rs) (argumentsRest rs') l (Opens l) := by
  refine .accept hl (by decide) (fun l₁ h₁ => .pure h₁.ready' (.of_takes h₁)) fun _ => ?_
  refine (assignment_ends H h hl).bind fun first l₁ hr₁ h₁ => .accept hr₁ (by decide) (fun l₂ h₂ => ?_) fun _ => ?_
  · exact (H .argumentsRest b l₂ h₂.ready' (by grind) nofun).bind fun _ _ hr h₃ => .pure hr (by grind)
  · exact .expect hr₁ (by decide) fun l₂ h₂ => .pure h₂.ready' (by grind)

theorem propertyKey_ends (H : Agree rs rs' l₀) (h : l₀.Goes l) (hl : l.Ready) :
    Ends b (propertyKey rs l.hand) (propertyKey rs' l.hand) l (Opens l) := by
  unfold propertyKey
  split
  · exact .take hl ‹_› (by decide) fun _ h₁ => .pure h₁.ready' (.of_takes h₁)
  · rename_i word hw
    exact .take hl hw nofun fun _ h₁ => .pure h₁.ready' (.of_takes h₁)
  · exact .take hl ‹_› (by decide) fun _ h₁ => .pure h₁.ready' (.of_takes h₁)
  · refine .take hl ‹_› (by decide) fun _ h₁ => ?_
    split
    · exact .pure h₁.ready' (.of_takes h₁)
    · exact .refuseAt
  · refine .take hl ‹_› (by decide) fun l₁ h₁ => (H .assignment b l₁ h₁.ready' (by grind) nofun).bind fun value l₂ hr₂ h₂ => ?_
    exact .expect hr₂ (by decide) fun _ h₃ => .pure h₃.ready' (by grind)
  · exact .refuseAt

theorem property_ends (H : Agree rs rs' l₀) (h : l₀.Goes l) (hl : l.Ready) :
    Ends b (property rs) (property rs') l (Opens l) := by
  refine .token ((propertyKey_ends H h hl).bind fun key l₁ hr₁ h₁ => .kind ?_)
  split
  · exact .finish hr₁ h₁
  · refine .expect hr₁ (by decide) fun l₂ h₂ => ?_
    exact (H .assignment b l₂ h₂.ready' (by grind) nofun).bind fun _ _ hr h₃ => .finish hr (by grind)

theorem propertiesRest_ends (H : Agree rs rs' l₀) (h : l₀.Goes l) (hl : l.Ready) :
    Ends b (propertiesRest rs) (propertiesRest rs') l (Opens l) := by
  refine .accept hl (by decide) (fun l₁ h₁ => .pure h₁.ready' (.of_takes h₁)) fun _ => ?_
  refine (property_ends H h hl).bind fun first l₁ hr₁ h₁ => .accept hr₁ (by decide) (fun l₂ h₂ => ?_) fun _ => ?_
  · exact (H .propertiesRest b l₂ h₂.ready' (by grind) nofun).bind fun _ _ hr h₃ => .pure hr (by grind)
  · exact .expect hr₁ (by decide) fun l₂ h₂ => .pure h₂.ready' (by grind)

/-! ## Statements -/

theorem endStatement_ends (hl : l.Ready) : Ends b Reading.endStatement Reading.endStatement l l.Goes := by
  refine .accept hl (by decide) (fun l₁ h₁ => .pure h₁.ready' h₁.goes) fun _ => .atStatementEnd fun c => ?_
  cases c
  · exact .refuseToken
  · exact .pure hl .stay

theorem initializer_ends {kind : DeclKind} (H : Agree rs rs' l₀) (h : l₀.Goes l) (hl : l.Ready) :
    Ends b (initializer rs kind) (initializer rs' kind) l l.Goes := by
  refine .accept hl (by decide) (fun l₁ h₁ => ?_) fun _ => ?_
  · exact (H .assignment b l₁ h₁.ready' (by grind) nofun).bind fun _ _ hr h₂ => .pure hr (by grind)
  · simp only [Bool.false_eq_true, if_false]
    split
    · exact .refuse
    · exact .pure hl .stay

theorem declarators_ends {kind : DeclKind} (H : Agree rs rs' l₀) (h : l₀.Goes l) (hl : l.Ready) :
    Ends b (declarators rs kind) (declarators rs' kind) l (Opens l) := by
  refine .expect hl (by decide) fun l₁ h₁ => (initializer_ends H (by grind) h₁.ready').bind fun init l₂ hr₂ h₂ => ?_
  refine .accept hr₂ (by decide) (fun l₃ h₃ => ?_) fun _ => .pure hr₂ (by grind)
  exact (H (.declarators kind) b l₃ h₃.ready' (by grind) nofun).bind fun _ _ hr h₄ => .pure hr (by grind)

theorem declaration_ends {kind kind' : DeclKind} (H : Agree rs rs' l₀) (h : l₀.Goes l) (hl : l.Ready)
    (hk : declKind? l.hand.kind = some kind') : Ends b (declaration rs kind) (declaration rs' kind) l (Opens l) :=
  .advance hl (ne_eof_of_declKind hk) fun l₁ h₁ =>
    (H (.declarators kind) b l₁ h₁.ready' (by grind) nofun).imp fun _ h₂ => by grind

theorem condition_ends (H : Agree rs rs' l₀) (h : l₀.Goes l) (hl : l.Ready) :
    Ends b (condition rs) (condition rs') l (Opens l) := by
  refine .expect hl (by decide) fun l₁ h₁ => (H .expression b l₁ h₁.ready' (by grind) nofun).bind fun value l₂ hr₂ h₂ => ?_
  exact .expect hr₂ (by decide) fun _ h₃ => .pure h₃.ready' (by grind)

theorem alternative_ends (H : Agree rs rs' l₀) (h : l₀.Goes l) (hl : l.Ready) :
    Ends b (alternative rs) (alternative rs') l l.Goes :=
  .accept hl nofun
    (fun l₁ h₁ => (H .statement b l₁ h₁.ready' (by grind) nofun).bind fun _ _ hr h₂ => .pure hr (by grind))
    fun _ => .pure hl .stay

theorem functionStatement_ends (H : Agree rs rs' l₀) (h : l₀.Goes l) (hl : l.Ready) (hk : l.hand.kind = .keyword .function) :
    Ends b (functionStatement rs start) (functionStatement rs' start) l (Opens l) := by
  refine .take hl hk nofun fun l₁ h₁ => .expect h₁.ready' (by decide) fun l₂ h₂ => ?_
  exact (signature_ends H (by grind) h₂.ready').bind fun _ _ hr h₃ => .finish hr (by grind)

theorem chooseStatement_ends (H : Agree rs rs' l₀) (h : l₀.Goes l) (hl : l.Ready) (hk : l.hand.kind = .keyword .if) :
    Ends b (chooseStatement rs start) (chooseStatement rs' start) l (Opens l) := by
  refine .take hl hk nofun fun l₁ h₁ => (condition_ends H (by grind) h₁.ready').bind fun test l₂ hr₂ h₂ => ?_
  refine (H .statement b l₂ hr₂ (by grind) nofun).bind fun yes l₃ hr₃ h₃ => ?_
  exact (alternative_ends H (by grind) hr₃).bind fun _ _ hr h₄ => .finish hr (by grind)

theorem whileStatement_ends (H : Agree rs rs' l₀) (h : l₀.Goes l) (hl : l.Ready) (hk : l.hand.kind = .keyword .while) :
    Ends b (whileStatement rs start) (whileStatement rs' start) l (Opens l) := by
  refine .take hl hk nofun fun l₁ h₁ => (condition_ends H (by grind) h₁.ready').bind fun test l₂ hr₂ h₂ => ?_
  exact (H .statement b l₂ hr₂ (by grind) nofun).bind fun _ _ hr h₃ => .finish hr (by grind)

theorem doStatement_ends (H : Agree rs rs' l₀) (h : l₀.Goes l) (hl : l.Ready) (hk : l.hand.kind = .keyword .do) :
    Ends b (doStatement rs start) (doStatement rs' start) l (Opens l) := by
  refine .take hl hk nofun fun l₁ h₁ => (H .statement b l₁ h₁.ready' (by grind) nofun).bind fun body l₂ hr₂ h₂ => ?_
  refine .expect hr₂ nofun fun l₃ h₃ => (condition_ends H (by grind) h₃.ready').bind fun test l₄ hr₄ h₄ => ?_
  refine .accept hr₄ (by decide) (fun l₅ h₅ => ?_) fun _ => ?_
  · exact .finish h₅.ready' (by grind)
  · exact .finish hr₄ (by grind)

theorem forInit_ends (H : Agree rs rs' l₀) (h : Opens l₀ l) (hl : l.Ready) :
    Ends b (forInit rs) (forInit rs') l l.Goes := by
  refine .at_ (fun _ => .pure hl .stay) fun _ => .token ?_
  split
  · rename_i kind hd
    refine (declaration_ends H h.goes hl hd).bind fun items l₁ hr₁ h₁ => ?_
    exact .bind (.finish hr₁ h₁.goes) fun _ _ hr h₂ => .pure hr h₂
  · refine (H .expression b l hl h nofun).bind fun value l₁ hr₁ h₁ => ?_
    exact .bind (.finish hr₁ h₁) fun _ _ hr h₂ => .pure hr h₂

theorem expressionUnless_ends (H : Agree rs rs' l₀) (h : Opens l₀ l) (hl : l.Ready) :
    Ends b (expressionUnless rs k) (expressionUnless rs' k) l l.Goes :=
  .at_ (fun _ => .pure hl .stay) fun _ => (H .expression b l hl h nofun).bind fun _ _ hr h₁ => .pure hr h₁

theorem forStatement_ends (H : Agree rs rs' l₀) (h : l₀.Goes l) (hl : l.Ready) (hk : l.hand.kind = .keyword .for) :
    Ends b (forStatement rs start) (forStatement rs' start) l (Opens l) := by
  refine .take hl hk nofun fun l₁ h₁ => .expect h₁.ready' (by decide) fun l₂ h₂ => ?_
  refine (forInit_ends H (by grind) h₂.ready').bind fun init l₃ hr₃ h₃ => .expect hr₃ (by decide) fun l₄ h₄ => ?_
  refine (expressionUnless_ends H (by grind) h₄.ready').bind fun test l₅ hr₅ h₅ => .expect hr₅ (by decide) fun l₆ h₆ => ?_
  refine (expressionUnless_ends H (by grind) h₆.ready').bind fun step l₇ hr₇ h₇ => .expect hr₇ (by decide) fun l₈ h₈ => ?_
  exact (H .statement b l₈ h₈.ready' (by grind) nofun).bind fun _ _ hr h₉ => .finish hr (by grind)

theorem returned_ends (H : Agree rs rs' l₀) (h : Opens l₀ l) (hl : l.Ready) :
    Ends b (returned rs) (returned rs') l l.Goes := by
  refine .atStatementEnd fun c => ?_
  cases c
  · exact (H .expression b l hl h nofun).bind fun _ _ hr h₁ => .pure hr h₁
  · exact .pure hl .stay

theorem returnStatement_ends (H : Agree rs rs' l₀) (h : l₀.Goes l) (hl : l.Ready) (hk : l.hand.kind = .keyword .return) :
    Ends b (returnStatement rs) (returnStatement rs') l (Opens l) := by
  refine .take hl hk nofun fun l₁ h₁ => .inFunction ?_
  cases b
  · exact .refuseAt
  · refine (returned_ends H (by grind) h₁.ready').bind fun value l₂ hr₂ h₂ => ?_
    exact (endStatement_ends hr₂).bind fun _ _ hr h₃ => .finish hr (by grind)

theorem jumpLabel_ends (hl : l.Ready) : Ends b jumpLabel jumpLabel l l.Goes := by
  refine .token ?_
  split
  · rename_i hk
    exact .take hl hk.1 (by decide) fun _ h => .pure h.ready' h.goes
  · exact .pure hl .stay

theorem jumpStatement_ends {make : Span → Option String → Stmt} (hl : l.Ready) (hk : l.hand.kind = k) (he : k ≠ .eof) :
    Ends b (jumpStatement start make) (jumpStatement start make) l (Opens l) := by
  refine .take hl hk he fun l₁ h₁ => (jumpLabel_ends h₁.ready').bind fun label l₂ hr₂ h₂ => ?_
  exact (endStatement_ends hr₂).bind fun _ _ hr h₃ => .finish hr (by grind)

theorem throwStatement_ends (H : Agree rs rs' l₀) (h : l₀.Goes l) (hl : l.Ready) (hk : l.hand.kind = .keyword .throw) :
    Ends b (throwStatement rs start) (throwStatement rs' start) l (Opens l) := by
  refine .take hl hk nofun fun l₁ h₁ => .token ?_
  split
  · exact .refuseAt
  · refine (H .expression b l₁ h₁.ready' (by grind) nofun).bind fun value l₂ hr₂ h₂ => ?_
    exact (endStatement_ends hr₂).bind fun _ _ hr h₃ => .finish hr (by grind)

theorem expressionStatement_ends (H : Agree rs rs' l₀) (h : l₀.Goes l) (hl : l.Ready) :
    Ends b (expressionStatement rs start) (expressionStatement rs' start) l (Opens l) := by
  refine (expression_ends H h hl).bind fun e l₁ hr₁ h₁ => ?_
  have plain : Ends b (do Reading.endStatement; Reading.finish start (Stmt.expression · e))
      (do Reading.endStatement; Reading.finish start (Stmt.expression · e)) l₁ (Opens l) :=
    (endStatement_ends hr₁).bind fun _ _ hr h₂ => .finish hr (by grind)
  refine .at_ (fun hc => ?_) fun _ => ?_
  · split
    · refine .take hr₁ hc (by decide) fun l₂ h₂ => ?_
      exact (H .statement b l₂ h₂.ready' (by grind) nofun).bind fun _ _ hr h₃ => .finish hr (by grind)
    · exact plain
  · split
    · rename_i hf
      cases hf
    · exact plain

theorem statement_ends (H : Agree rs rs' l₀) (h : l₀.Goes l) (hl : l.Ready) :
    Ends b (statement rs) (statement rs') l (Opens l) := by
  refine .token ?_
  dsimp only
  split
  · exact .take hl ‹_› (by decide) fun _ h₁ => .finish h₁.ready' (.of_takes h₁)
  · exact (block_ends H h hl).bind fun _ _ hr h₁ => .finish hr h₁
  · exact functionStatement_ends H h hl ‹_›
  · exact chooseStatement_ends H h hl ‹_›
  · exact whileStatement_ends H h hl ‹_›
  · exact doStatement_ends H h hl ‹_›
  · exact forStatement_ends H h hl ‹_›
  · exact returnStatement_ends H h hl ‹_›
  · exact jumpStatement_ends hl ‹_› (by decide)
  · exact jumpStatement_ends hl ‹_› (by decide)
  · exact throwStatement_ends H h hl ‹_›
  · split
    · rename_i kind hd
      refine (declaration_ends H h hl hd).bind fun items l₁ hr₁ h₁ => ?_
      exact (endStatement_ends hr₁).bind fun _ _ hr h₂ => .finish hr (by grind)
    · exact expressionStatement_ends H h hl

theorem blockRest_ends (H : Agree rs rs' l₀) (h : l₀.Goes l) (hl : l.Ready) :
    Ends b (blockRest rs) (blockRest rs') l (Opens l) := by
  refine .at_ (fun hk => .take hl hk (by decide) fun _ h₁ => .pure h₁.ready' (.of_takes h₁)) fun _ => ?_
  refine .at_ (fun _ => .refuse) fun _ => (statement_ends H h hl).bind fun first l₁ hr₁ h₁ => ?_
  exact (H .blockRest b l₁ hr₁ (by grind) nofun).bind fun _ _ hr h₂ => .pure hr (by grind)

/-! ## All rules -/

/-- **A rule refers to rules only behind a token that it has taken**: rules that come to the same ends there come to the same
end here, and they take a token to come to it, unless they go on with what was read. -/
theorem rule_ends (H : Agree rs rs' l) (hl : l.Ready) (r : Rule) (ha : r.Applies l) (b : Bool) :
    Ends b (rule rs r) (rule rs' r) l (r.Passes l) := by
  cases r with
  | statement => exact statement_ends H .stay hl
  | blockRest => exact blockRest_ends H .stay hl
  | declarators kind => exact declarators_ends H .stay hl
  | params => exact params_ends H .stay hl
  | expression => exact expression_ends H .stay hl
  | itemsRest => exact itemsRest_ends H .stay hl
  | assignment => exact assignment_ends H .stay hl
  | binary least => exact binary_ends H .stay hl
  | binaryRest least left => exact binaryRest_ends H .stay hl
  | unary => exact unary_ends H .stay hl
  | callRest callee => exact callRest_ends H .stay hl
  | construct => exact construct_ends H .stay hl (ha rfl)
  | memberRest target => exact memberRest_ends H .stay hl
  | argumentsRest => exact argumentsRest_ends H .stay hl
  | elementsRest => exact elementsRest_ends H .stay hl
  | propertiesRest => exact propertiesRest_ends H .stay hl

end

end Readback.Grammar
