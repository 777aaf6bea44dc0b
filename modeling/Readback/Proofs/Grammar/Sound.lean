import Readback.Proofs.Grammar.Yields
/-!
# What is read is in the grammar

Each rule, as written, yields phrases of its sort when the rules that it refers to do.  So the rules with any allowance of
steps do (`rules_sound`).
-/
namespace Readback.Grammar

open Token (Kind)

/-- **The rule is sound**: where it is done it has read a phrase.  A rule for what follows a phrase is sound when it makes
a longer one of it. -/
def Sound : (r : Rule) → Reading r.Result → Prop
  | .statement, x            => ∀ b l, l.Ready → Yields b x l (Derives b .statement l)
  | .blockRest, x            => ∀ b l, l.Ready → Yields b x l (Derives b .blockRest l)
  | .declarators kind, x     => ∀ b l, l.Ready → Yields b x l (Derives b (.declarators kind) l)
  | .params, x               => ∀ b l, l.Ready → Yields b x l (Derives b .params l)
  | .expression, x           => ∀ b l, l.Ready → Yields b x l (Derives b .expression l)
  | .itemsRest, x            => ∀ b l, l.Ready → Yields b x l (Derives b .itemsRest l)
  | .assignment, x           => ∀ b l, l.Ready → Yields b x l (Derives b .assignment l)
  | .binary least, x         => ∀ b l, l.Ready → Yields b x l (Derives b (.binary least) l)
  | .binaryRest least left, x => ∀ b l₀ l, l.Ready → Derives b (.operators least) l₀ left l →
      Yields b x l (Derives b (.binary least) l₀)
  | .unary, x                => ∀ b l, l.Ready → Yields b x l (Derives b .unary l)
  | .callRest callee, x      => ∀ b l₀ l, l.Ready → Derives b (.chain true) l₀ callee l →
      Yields b x l (Derives b (.member true) l₀)
  | .construct, x            => ∀ b l, l.Ready → l.hand.kind = .keyword .new → Yields b x l (Derives b .construct l)
  | .memberRest target, x    => ∀ b l₀ l, l.Ready → Derives b (.chain false) l₀ target l →
      Yields b x l (Derives b (.member false) l₀)
  | .argumentsRest, x        => ∀ b l, l.Ready → Yields b x l (Derives b .argumentsRest l)
  | .elementsRest, x         => ∀ b l, l.Ready → Yields b x l (Derives b .elementsRest l)
  | .propertiesRest, x       => ∀ b l, l.Ready → Yields b x l (Derives b .propertiesRest l)

section

variable {rules : Rules} {b : Bool} {l l₀ : Lexer}

/-! ## Functions -/

theorem block_sound (ih : ∀ r, Sound r (rules r)) (hl : l.Ready) : Yields b (block rules) l (Derives b .block l) := by
  refine .expect hl (by decide) fun l₁ h₁ => ?_
  exact (ih .blockRest b l₁ h₁.ready').imp fun _ _ h₂ => .block h₁ h₂

theorem params_sound (ih : ∀ r, Sound r (rules r)) (hl : l.Ready) : Yields b (params rules) l (Derives b .params l) := by
  refine .expect hl (by decide) fun l₁ h₁ => .accept h₁.ready' (by decide) (fun l₂ h₂ => ?_) fun hn => ?_
  · exact (ih .params b l₂ h₂.ready').bind fun _ _ hr h₃ => .pure hr (.param h₁ h₂ h₃)
  · exact .pure h₁.ready' (.lastParam h₁ hn)

theorem parameters_sound (ih : ∀ r, Sound r (rules r)) (hl : l.Ready) :
    Yields b (parameters rules) l (Derives b .parameters l) :=
  .at_ (fun h => .pure hl (.noParams h)) fun h => (ih .params b l hl).imp fun _ _ h₁ => .someParams h h₁

theorem signature_sound (ih : ∀ r, Sound r (rules r)) (hl : l.Ready) :
    Yields b (signatureAndBody rules) l (Derives b .signature l) := by
  refine .expect hl (by decide) fun l₁ h₁ => (parameters_sound ih h₁.ready').bind fun names l₂ hr₂ h₂ => ?_
  refine .expect hr₂ (by decide) fun l₃ h₃ => ?_
  exact (Yields.withinFunction (block_sound ih h₃.ready')).bind fun _ _ hr h₄ => .pure hr (.signature h₁ h₂ h₃ h₄)

/-! ## Primary expressions -/

theorem regexLiteral_sound (hl : l.Ready) (hk : l.hand.kind = .regex) :
    Yields b (regexLiteral l.hand.span.start) l (Derives b .primary l) :=
  .take hl hk (by decide) fun _ h => .finish h.ready' (.regex h)

theorem slash_sound (hl : l.Ready)
    (hs : l.hand.kind = .slash ∨ (l.hand.kind = .compoundAssign ∧ l.hand.text.toList.head? = some '/')) :
    Yields b (do Reading.rereadRegex; regexLiteral l.hand.span.start) l (Derives b .primary l) := by
  intro a s' h
  obtain ⟨u, l', hu, h⟩ := Reading.reread_done hl hs rfl h
  cases h
  exact ⟨l', hu.ready', rfl, .slash hu⟩

theorem number_sound (hl : l.Ready) (hk : l.hand.kind = .number) :
    Yields b (number l.hand.span.start) l (Derives b .primary l) := by
  refine .take hl hk (by decide) fun l' h => ?_
  split
  · rename_i x hx
    exact .finish h.ready' (.number h hx)
  · exact .refuseAt

theorem wordLiteral_sound {v : Literal} (hl : l.Ready) (hk : wordLiteral? l.hand.kind = some v) :
    Yields b (literal l.hand.span.start v) l (Derives b .primary l) := by
  refine .advance hl (fun he => ?_) fun l' h => .finish h.ready' (.word h hk)
  rw [he] at hk
  cases hk

theorem functionName_sound (hl : l.Ready) : Yields b functionName l (Derives b .functionName l) :=
  .at_ (fun hk => .take hl hk (by decide) fun _ h => .pure h.ready' (.named h)) fun hk => .pure hl (.nameless hk)

theorem functionLiteral_sound (ih : ∀ r, Sound r (rules r)) (hl : l.Ready) (hk : l.hand.kind = .keyword .function) :
    Yields b (functionLiteral rules l.hand.span.start) l (Derives b .primary l) := by
  refine .take hl hk (by decide) fun l₁ h₁ => (functionName_sound h₁.ready').bind fun name l₂ hr₂ h₂ => ?_
  exact (signature_sound ih hr₂).bind fun _ _ hr h₃ => .finish hr (.function h₁ h₂ h₃)

theorem group_sound (ih : ∀ r, Sound r (rules r)) (hl : l.Ready) (hk : l.hand.kind = .lParen) :
    Yields b (group rules l.hand.span.start) l (Derives b .primary l) := by
  refine .take hl hk (by decide) fun l₁ h₁ => (ih .expression b l₁ h₁.ready').bind fun e l₂ hr₂ h₂ => ?_
  exact .expect hr₂ (by decide) fun l' h₃ => .finish h₃.ready' (.group h₁ h₂ h₃)

theorem primary_sound (ih : ∀ r, Sound r (rules r)) (hl : l.Ready) :
    Yields b (primary rules) l (Derives b .primary l) := by
  refine .token ?_
  dsimp only
  split
  · exact number_sound hl ‹_›
  · exact .take hl ‹_› (by decide) fun _ h => .finish h.ready' (.text h)
  · exact regexLiteral_sound hl ‹_›
  · exact .take hl ‹_› (by decide) fun _ h => .finish h.ready' (.identifier h)
  · exact wordLiteral_sound hl (by rw [‹l.hand.kind = _›]; rfl)
  · exact wordLiteral_sound hl (by rw [‹l.hand.kind = _›]; rfl)
  · exact wordLiteral_sound hl (by rw [‹l.hand.kind = _›]; rfl)
  · exact .take hl ‹_› (by decide) fun _ h => .finish h.ready' (.this h)
  · exact functionLiteral_sound ih hl ‹_›
  · exact group_sound ih hl ‹_›
  · exact .take hl ‹_› (by decide) fun l₁ h₁ =>
      (ih .elementsRest b l₁ h₁.ready').bind fun _ _ hr h₂ => .finish hr (.array h₁ h₂)
  · exact .take hl ‹_› (by decide) fun l₁ h₁ =>
      (ih .propertiesRest b l₁ h₁.ready').bind fun _ _ hr h₂ => .finish hr (.object h₁ h₂)
  · exact slash_sound hl (.inl ‹_›)
  · exact .refuse
  · split
    · exact slash_sound hl (.inr ‹_›)
    · exact .refuseToken

/-! ## Members, calls and `new` -/

theorem memberSuffix_sound {calls : Bool} {target : Expr} (ih : ∀ r, Sound r (rules r)) (hl : l.Ready)
    (hk : l.hand.kind = .dot ∨ l.hand.kind = .lBracket) (h : Derives b (.chain calls) l₀ target l) :
    Yields b (memberSuffix rules target) l (Derives b (.chain calls) l₀) := by
  refine .accept hl (by decide) (fun l₁ h₁ => .kind ?_) fun hn => ?_
  · split
    · exact .take h₁.ready' ‹_› (by decide) fun _ h₂ => .finish h₂.ready' (.field h h₁ (by rw [h₂.kind]; rfl) h₂.toSteps)
    · rename_i word hw
      exact .take h₁.ready' hw nofun fun _ h₂ => .finish h₂.ready' (.field h h₁ (by rw [hw]; rfl) h₂.toSteps)
    · exact .refuse
  · refine .take hl (hk.resolve_left hn) (by decide) fun l₁ h₁ => ?_
    refine (ih .expression b l₁ h₁.ready').bind fun i l₂ hr₂ h₂ => ?_
    exact .expect hr₂ (by decide) fun l₃ h₃ => .finish h₃.ready' (.index h h₁ h₂ h₃)

theorem callRest_sound {callee : Expr} (ih : ∀ r, Sound r (rules r)) (hl : l.Ready)
    (h : Derives b (.chain true) l₀ callee l) :
    Yields b (callRest rules callee) l (Derives b (.member true) l₀) := by
  refine .kind ?_
  split
  · refine .take hl ‹_› (by decide) fun l₁ h₁ => (ih .argumentsRest b l₁ h₁.ready').bind fun args l₂ hr₂ h₂ => ?_
    exact (Yields.finish hr₂ (.call h h₁ h₂)).bind fun e l₃ hr₃ h₃ => ih (.callRest e) b l₀ l₃ hr₃ h₃
  · exact (memberSuffix_sound ih hl (.inl ‹_›) h).bind fun e l₁ hr₁ h₁ => ih (.callRest e) b l₀ l₁ hr₁ h₁
  · exact (memberSuffix_sound ih hl (.inr ‹_›) h).bind fun e l₁ hr₁ h₁ => ih (.callRest e) b l₀ l₁ hr₁ h₁
  · exact .pure hl (.member h (by simp_all [extendsChain]))

theorem memberRest_sound {target : Expr} (ih : ∀ r, Sound r (rules r)) (hl : l.Ready)
    (h : Derives b (.chain false) l₀ target l) :
    Yields b (memberRest rules target) l (Derives b (.member false) l₀) := by
  refine .kind ?_
  split
  · exact (memberSuffix_sound ih hl (.inl ‹_›) h).bind fun e l₁ hr₁ h₁ => ih (.memberRest e) b l₀ l₁ hr₁ h₁
  · exact (memberSuffix_sound ih hl (.inr ‹_›) h).bind fun e l₁ hr₁ h₁ => ih (.memberRest e) b l₀ l₁ hr₁ h₁
  · exact .pure hl (.member h (by simp_all [extendsChain]))

theorem newTarget_sound (ih : ∀ r, Sound r (rules r)) (hl : l.Ready) :
    Yields b (newTarget rules) l (Derives b (.chain false) l) :=
  .at_ (fun hk => (ih .construct b l hl hk).imp fun _ _ h => .constructChain hk h)
    fun hk => (primary_sound ih hl).imp fun _ _ h => .primaryChain hk h

theorem newArguments_sound (ih : ∀ r, Sound r (rules r)) (hl : l.Ready) :
    Yields b (newArguments rules) l (Derives b .newArguments l) :=
  .accept hl (by decide) (fun l₁ h₁ => (ih .argumentsRest b l₁ h₁.ready').imp fun _ _ h₂ => .newArguments h₁ h₂)
    fun hn => .pure hl (.noArguments hn)

theorem construct_sound (ih : ∀ r, Sound r (rules r)) (hl : l.Ready) (hk : l.hand.kind = .keyword .new) :
    Yields b (construct rules) l (Derives b .construct l) := by
  refine .place (.take hl hk (by decide) fun l₁ h₁ => (newTarget_sound ih h₁.ready').bind fun target l₂ hr₂ h₂ => ?_)
  refine (ih (.memberRest target) b l₁ l₂ hr₂ h₂).bind fun callee l₃ hr₃ h₃ => ?_
  exact (newArguments_sound ih hr₃).bind fun args l₄ hr₄ h₄ => .finish hr₄ (.construct h₁ h₃ h₄)

theorem operand_sound (ih : ∀ r, Sound r (rules r)) (hl : l.Ready) :
    Yields b (operand rules) l (Derives b (.chain true) l) :=
  .at_ (fun hk => (construct_sound ih hl hk).imp fun _ _ h => .constructChain hk h)
    fun hk => (primary_sound ih hl).imp fun _ _ h => .primaryChain hk h

theorem call_sound (ih : ∀ r, Sound r (rules r)) (hl : l.Ready) :
    Yields b (call rules) l (Derives b (.member true) l) :=
  (operand_sound ih hl).bind fun first l₁ hr₁ h₁ => ih (.callRest first) b l l₁ hr₁ h₁

/-! ## Operators -/

theorem ne_eof_of_unaryOp {op : UnaryOp} {k : Kind} (h : unaryOp? k = some op) : k ≠ .eof := by rintro rfl; cases h

theorem ne_eof_of_updateOp {op : UpdateOp} {k : Kind} (h : updateOp? k = some op) : k ≠ .eof := by rintro rfl; cases h

theorem ne_eof_of_binaryOp {op : BinaryOp} {k : Kind} (h : binaryOp? k = some op) : k ≠ .eof := by rintro rfl; cases h

theorem update_sound (ih : ∀ r, Sound r (rules r)) (hl : l.Ready) : Yields b (update rules) l (Derives b .update l) := by
  refine (call_sound ih hl).bind fun target l₁ hr₁ h₁ => .token ?_
  split
  · rename_i op hop
    split
    · exact .pure hr₁ (.noUpdate h₁ (by simp [updateHere?, *]))
    · exact .advance hr₁ (ne_eof_of_updateOp hop) fun l₂ h₂ => .pure h₂.ready' (.update h₁ h₂ (by simp [updateHere?, *]))
  · exact .pure hr₁ (.noUpdate h₁ (by simp [updateHere?, *]))

theorem unary_sound (ih : ∀ r, Sound r (rules r)) (hl : l.Ready) : Yields b (unary rules) l (Derives b .unary l) := by
  refine .token ?_
  split
  · rename_i op hop
    exact .advance hl (ne_eof_of_unaryOp hop) fun l₁ h₁ =>
      (ih .unary b l₁ h₁.ready').bind fun _ _ hr h₂ => .pure hr (.unary h₁ hop h₂)
  · rename_i op hn hop
    exact .advance hl (ne_eof_of_updateOp hop) fun l₁ h₁ =>
      (ih .unary b l₁ h₁.ready').bind fun _ _ hr h₂ => .pure hr (.updateFirst h₁ hn hop h₂)
  · rename_i hn hn'
    exact (update_sound ih hl).imp fun _ _ h => .noPrefix hn hn' h

theorem binaryRest_sound {least : Nat} {left : Expr} (ih : ∀ r, Sound r (rules r)) (hl : l.Ready)
    (h : Derives b (.operators least) l₀ left l) :
    Yields b (binaryRest rules least left) l (Derives b (.binary least) l₀) := by
  refine .kind ?_
  split
  · rename_i op hop
    split
    · rename_i hlt
      exact .pure hl (.binary h (by simp [operatorHere?, hop, Option.filter]; omega))
    · rename_i hlt
      refine .advance hl (ne_eof_of_binaryOp hop) fun l₁ h₁ => ?_
      refine (ih (.binary op.rightPrecedence) b l₁ h₁.ready').bind fun right l₂ hr₂ h₂ => ?_
      have hop' : operatorHere? least l.hand.kind = some op := by simp [operatorHere?, hop, Option.filter]; omega
      exact ih (.binaryRest least _) b l₀ l₂ hr₂ (.operator h h₁ hop' h₂)
  · rename_i hop
    exact .pure hl (.binary h (by simp [operatorHere?, hop]))

theorem binary_sound {least : Nat} (ih : ∀ r, Sound r (rules r)) (hl : l.Ready) :
    Yields b (binary rules least) l (Derives b (.binary least) l) :=
  (unary_sound ih hl).bind fun left l₁ hr₁ h₁ => ih (.binaryRest least left) b l l₁ hr₁ (.operators h₁)

theorem conditional_sound (ih : ∀ r, Sound r (rules r)) (hl : l.Ready) :
    Yields b (conditional rules) l (Derives b .conditional l) := by
  refine (binary_sound ih hl).bind fun test l₁ hr₁ h₁ => ?_
  refine .accept hr₁ (by decide) (fun l₂ h₂ => ?_) fun hn => .pure hr₁ (.noChoice h₁ hn)
  refine (ih .assignment b l₂ h₂.ready').bind fun yes l₃ hr₃ h₃ => .expect hr₃ (by decide) fun l₄ h₄ => ?_
  exact (ih .assignment b l₄ h₄.ready').bind fun _ _ hr h₅ => .pure hr (.choice h₁ h₂ h₃ h₄ h₅)

theorem assignmentRest_sound {target : Expr} {op : Option BinaryOp} (ih : ∀ r, Sound r (rules r)) (hl : l.Ready)
    (hop : assignOp? l.hand = some op) (h : Derives b .conditional l₀ target l) :
    Yields b (assignmentRest rules target op) l (Derives b .assignment l₀) := by
  refine .advance hl (fun he => ?_) fun l₁ h₁ => ?_
  · unfold assignOp? at hop
    rw [he] at hop
    cases hop
  · split
    · rename_i ht
      exact (ih .assignment b l₁ h₁.ready').bind fun _ _ hr h₂ => .pure hr (.assign h h₁ hop ht h₂)
    · exact .refuseAt

theorem assignment_sound (ih : ∀ r, Sound r (rules r)) (hl : l.Ready) :
    Yields b (assignment rules) l (Derives b .assignment l) := by
  refine (conditional_sound ih hl).bind fun target l₁ hr₁ h₁ => .token ?_
  split
  · exact assignmentRest_sound ih hr₁ (by simp [assignOp?, *]) h₁
  · split
    · exact assignmentRest_sound ih hr₁ (by simp [assignOp?, *]) h₁
    · exact .refuse
  · exact .pure hr₁ (.noAssign h₁ (by simp_all [isAssign]))

theorem itemsRest_sound (ih : ∀ r, Sound r (rules r)) (hl : l.Ready) :
    Yields b (itemsRest rules) l (Derives b .itemsRest l) := by
  refine .accept hl (by decide) (fun l₁ h₁ => ?_) fun hn => .pure hl (.noItem hn)
  refine (ih .assignment b l₁ h₁.ready').bind fun first l₂ hr₂ h₂ => ?_
  exact (ih .itemsRest b l₂ hr₂).bind fun _ _ hr h₃ => .pure hr (.item h₁ h₂ h₃)

theorem expression_sound (ih : ∀ r, Sound r (rules r)) (hl : l.Ready) :
    Yields b (expression rules) l (Derives b .expression l) := by
  refine (assignment_sound ih hl).bind fun first l₁ hr₁ h₁ => .at_ (fun hc => ?_) fun hn => .pure hr₁ (.single h₁ hn)
  exact (ih .itemsRest b l₁ hr₁).bind fun _ _ hr h₂ => .finish hr (.sequence h₁ hc h₂)

/-! ## Elements, arguments and properties -/

/-- No elements are left in front of the bracket. -/
theorem takes_of_elementsRest {rest : List (Option Expr)} {l' : Lexer} (h : Derives b .elementsRest l rest l')
    (hk : l.hand.kind = .rBracket) : rest = [] ∧ l.Takes .rBracket l' := by
  cases h with
  | elementsEnd h => exact ⟨rfl, h⟩
  | hole h _ => cases hk.symm.trans h.kind
  | lastElement hn _ _ _ => exact absurd hk hn
  | element hn _ _ _ _ => exact absurd hk hn

theorem elementsRest_sound (ih : ∀ r, Sound r (rules r)) (hl : l.Ready) :
    Yields b (elementsRest rules) l (Derives b .elementsRest l) := by
  refine .accept hl (by decide) (fun l₁ h₁ => .pure h₁.ready' (.elementsEnd h₁)) fun hk => ?_
  refine .accept hl (by decide) (fun l₁ h₁ => ?_) fun hc => ?_
  · exact (ih .elementsRest b l₁ h₁.ready').bind fun _ _ hr h₂ => .pure hr (.hole h₁ h₂)
  · refine (assignment_sound ih hl).bind fun item l₁ hr₁ h₁ => .at_ (fun hb => ?_) fun hn => ?_
    · refine (ih .elementsRest b l₁ hr₁).bind fun rest l₂ hr₂ h₂ => ?_
      obtain ⟨rfl, h₃⟩ := takes_of_elementsRest h₂ hb
      exact .pure hr₂ (.lastElement hk hc h₁ h₃)
    · refine .expect hr₁ (by decide) fun l₂ h₂ => ?_
      exact (ih .elementsRest b l₂ h₂.ready').bind fun _ _ hr h₃ => .pure hr (.element hk hc h₁ h₂ h₃)

theorem argumentsRest_sound (ih : ∀ r, Sound r (rules r)) (hl : l.Ready) :
    Yields b (argumentsRest rules) l (Derives b .argumentsRest l) := by
  refine .accept hl (by decide) (fun l₁ h₁ => .pure h₁.ready' (.argumentsEnd h₁)) fun hk => ?_
  refine (assignment_sound ih hl).bind fun first l₁ hr₁ h₁ => .accept hr₁ (by decide) (fun l₂ h₂ => ?_) fun _ => ?_
  · exact (ih .argumentsRest b l₂ h₂.ready').bind fun _ _ hr h₃ => .pure hr (.argument hk h₁ h₂ h₃)
  · exact .expect hr₁ (by decide) fun l₂ h₂ => .pure h₂.ready' (.lastArgument hk h₁ h₂)

theorem propertyKey_sound (ih : ∀ r, Sound r (rules r)) (hl : l.Ready) :
    Yields b (propertyKey rules l.hand) l (Derives b .propertyKey l) := by
  unfold propertyKey
  split
  · exact .take hl ‹_› (by decide) fun _ h => .pure h.ready' (.nameKey h.toSteps (by rw [h.kind]; rfl))
  · rename_i word hw
    exact .take hl hw nofun fun _ h => .pure h.ready' (.nameKey h.toSteps (by rw [hw]; rfl))
  · exact .take hl ‹_› (by decide) fun _ h => .pure h.ready' (.textKey h)
  · refine .take hl ‹_› (by decide) fun _ h => ?_
    split
    · exact .pure h.ready' (.numberKey h ‹_›)
    · exact .refuseAt
  · refine .take hl ‹_› (by decide) fun l₁ h₁ => (ih .assignment b l₁ h₁.ready').bind fun value l₂ hr₂ h₂ => ?_
    exact .expect hr₂ (by decide) fun _ h₃ => .pure h₃.ready' (.computedKey h₁ h₂ h₃)
  · exact .refuseAt

/-- A key that was read from a name is that name. -/
theorem takes_of_propertyKey {key : PropertyKey} {l' : Lexer} (h : Derives b .propertyKey l key l')
    (hk : l.hand.kind = .identifier) : l.Takes .identifier l' := by
  cases h with
  | nameKey h _ => exact ⟨h, hk⟩
  | textKey h => exact ⟨h.toSteps, hk⟩
  | numberKey h _ => exact ⟨h.toSteps, hk⟩
  | computedKey h _ _ => cases hk.symm.trans h.kind

theorem property_sound (ih : ∀ r, Sound r (rules r)) (hl : l.Ready) :
    Yields b (property rules) l (Derives b .property l) := by
  refine .token ((propertyKey_sound ih hl).bind fun key l₁ hr₁ h₁ => .kind ?_)
  split
  · rename_i hk
    exact .finish hr₁ (.shorthand (takes_of_propertyKey h₁ hk.1) hk.2)
  · refine .expect hr₁ (by decide) fun l₂ h₂ => ?_
    exact (ih .assignment b l₂ h₂.ready').bind fun _ _ hr h₃ => .finish hr (.pair h₁ h₂ h₃)

theorem propertiesRest_sound (ih : ∀ r, Sound r (rules r)) (hl : l.Ready) :
    Yields b (propertiesRest rules) l (Derives b .propertiesRest l) := by
  refine .accept hl (by decide) (fun l₁ h₁ => .pure h₁.ready' (.propertiesEnd h₁)) fun hk => ?_
  refine (property_sound ih hl).bind fun first l₁ hr₁ h₁ => .accept hr₁ (by decide) (fun l₂ h₂ => ?_) fun _ => ?_
  · exact (ih .propertiesRest b l₂ h₂.ready').bind fun _ _ hr h₃ => .pure hr (.moreProperties hk h₁ h₂ h₃)
  · exact .expect hr₁ (by decide) fun l₂ h₂ => .pure h₂.ready' (.lastProperty hk h₁ h₂)

/-! ## Statements -/

theorem ending_sound (hl : l.Ready) : Yields b Reading.endStatement l (Derives b .ending l) := by
  refine .accept hl (by decide) (fun l₁ h₁ => .pure h₁.ready' (.semicolon h₁)) fun hn => ?_
  intro a s' h
  obtain ⟨c, s₁, h₁, h⟩ := Reading.bind_eq_done.1 h
  cases h₁
  split at h
  · rename_i he
    cases h
    exact ⟨l, hl, rfl, .lineEnd hn he⟩
  · cases h

theorem initializer_sound {kind : DeclKind} (ih : ∀ r, Sound r (rules r)) (hl : l.Ready) :
    Yields b (initializer rules kind) l (Derives b (.initializer kind) l) := by
  refine .accept hl (by decide) (fun l₁ h₁ => ?_) fun hn => ?_
  · exact (ih .assignment b l₁ h₁.ready').bind fun _ _ hr h₂ => .pure hr (.initializer h₁ h₂)
  · simp only [Bool.false_eq_true, if_false]
    split
    · exact .refuse
    · exact .pure hl (.noInitializer hn ‹_›)

theorem declarators_sound {kind : DeclKind} (ih : ∀ r, Sound r (rules r)) (hl : l.Ready) :
    Yields b (declarators rules kind) l (Derives b (.declarators kind) l) := by
  refine .expect hl (by decide) fun l₁ h₁ => (initializer_sound ih h₁.ready').bind fun init l₂ hr₂ h₂ => ?_
  refine .accept hr₂ (by decide) (fun l₃ h₃ => ?_) fun hn => .pure hr₂ (.lastDeclarator h₁ h₂ hn)
  exact (ih (.declarators kind) b l₃ h₃.ready').bind fun _ _ hr h₄ => .pure hr (.declarator h₁ h₂ h₃ h₄)

theorem ne_eof_of_declKind {kind : DeclKind} {k : Kind} (h : declKind? k = some kind) : k ≠ .eof := by rintro rfl; cases h

theorem condition_sound (ih : ∀ r, Sound r (rules r)) (hl : l.Ready) :
    Yields b (condition rules) l (Derives b .condition l) := by
  refine .expect hl (by decide) fun l₁ h₁ => (ih .expression b l₁ h₁.ready').bind fun value l₂ hr₂ h₂ => ?_
  exact .expect hr₂ (by decide) fun _ h₃ => .pure h₃.ready' (.condition h₁ h₂ h₃)

theorem alternative_sound (ih : ∀ r, Sound r (rules r)) (hl : l.Ready) :
    Yields b (alternative rules) l (Derives b .alternative l) :=
  .accept hl (by decide)
    (fun l₁ h₁ => (ih .statement b l₁ h₁.ready').bind fun _ _ hr h₂ => .pure hr (.alternative h₁ h₂))
    fun hn => .pure hl (.noAlternative hn)

theorem functionStatement_sound (ih : ∀ r, Sound r (rules r)) (hl : l.Ready) (hk : l.hand.kind = .keyword .function) :
    Yields b (functionStatement rules l.hand.span.start) l (Derives b .statement l) := by
  refine .take hl hk (by decide) fun l₁ h₁ => .expect h₁.ready' (by decide) fun l₂ h₂ => ?_
  exact (signature_sound ih h₂.ready').bind fun _ _ hr h₃ => .finish hr (.functionStatement h₁ h₂ h₃)

theorem chooseStatement_sound (ih : ∀ r, Sound r (rules r)) (hl : l.Ready) (hk : l.hand.kind = .keyword .if) :
    Yields b (chooseStatement rules l.hand.span.start) l (Derives b .statement l) := by
  refine .take hl hk (by decide) fun l₁ h₁ => (condition_sound ih h₁.ready').bind fun test l₂ hr₂ h₂ => ?_
  refine (ih .statement b l₂ hr₂).bind fun yes l₃ hr₃ h₃ => ?_
  exact (alternative_sound ih hr₃).bind fun _ _ hr h₄ => .finish hr (.choose h₁ h₂ h₃ h₄)

theorem whileStatement_sound (ih : ∀ r, Sound r (rules r)) (hl : l.Ready) (hk : l.hand.kind = .keyword .while) :
    Yields b (whileStatement rules l.hand.span.start) l (Derives b .statement l) := by
  refine .take hl hk (by decide) fun l₁ h₁ => (condition_sound ih h₁.ready').bind fun test l₂ hr₂ h₂ => ?_
  exact (ih .statement b l₂ hr₂).bind fun _ _ hr h₃ => .finish hr (.whileLoop h₁ h₂ h₃)

theorem doStatement_sound (ih : ∀ r, Sound r (rules r)) (hl : l.Ready) (hk : l.hand.kind = .keyword .do) :
    Yields b (doStatement rules l.hand.span.start) l (Derives b .statement l) := by
  refine .take hl hk (by decide) fun l₁ h₁ => (ih .statement b l₁ h₁.ready').bind fun body l₂ hr₂ h₂ => ?_
  refine .expect hr₂ (by decide) fun l₃ h₃ => (condition_sound ih h₃.ready').bind fun test l₄ hr₄ h₄ => ?_
  refine .accept hr₄ (by decide) (fun l₅ h₅ => ?_) fun hn => ?_
  · exact .finish h₅.ready' (.doLoop h₁ h₂ h₃ h₄ (.whileSemicolon h₅))
  · exact .finish hr₄ (.doLoop h₁ h₂ h₃ h₄ (.whileEnd hn))

/-- A declaration is its first word, and declarators. -/
theorem declaration_sound {kind : DeclKind} (ih : ∀ r, Sound r (rules r)) (hl : l.Ready)
    (hd : declKind? l.hand.kind = some kind) :
    Yields b (declaration rules kind) l fun items l' => ∃ l₁, l.Steps l₁ ∧ Derives b (.declarators kind) l₁ items l' :=
  .advance hl (ne_eof_of_declKind hd) fun l₁ h₁ =>
    (ih (.declarators kind) b l₁ h₁.ready').imp fun _ _ h₂ => ⟨l₁, h₁, h₂⟩

theorem forInit_sound (ih : ∀ r, Sound r (rules r)) (hl : l.Ready) :
    Yields b (forInit rules) l (Derives b .forInit l) := by
  refine .at_ (fun hk => .pure hl (.noInit hk)) fun hk => .token ?_
  split
  · rename_i kind hd
    refine (declaration_sound ih hl hd).bind ?_
    rintro items l₂ hr₂ ⟨l₁, h₁, h₂⟩
    exact (Yields.finish hr₂ (.declareInit h₁ hd h₂)).bind fun _ _ hr h => .pure hr h
  · rename_i hd
    refine (ih .expression b l hl).bind fun value l₁ hr₁ h₁ => ?_
    exact (Yields.finish hr₁ (.expressionInit hk hd h₁)).bind fun _ _ hr h => .pure hr h

theorem expressionUnless_sound {k : Kind} (ih : ∀ r, Sound r (rules r)) (hl : l.Ready) :
    Yields b (expressionUnless rules k) l (Derives b (.expressionUnless k) l) :=
  .at_ (fun hk => .pure hl (.noExpression hk))
    fun hk => (ih .expression b l hl).bind fun _ _ hr h => .pure hr (.someExpression hk h)

theorem forStatement_sound (ih : ∀ r, Sound r (rules r)) (hl : l.Ready) (hk : l.hand.kind = .keyword .for) :
    Yields b (forStatement rules l.hand.span.start) l (Derives b .statement l) := by
  refine .take hl hk (by decide) fun l₁ h₁ => .expect h₁.ready' (by decide) fun l₂ h₂ => ?_
  refine (forInit_sound ih h₂.ready').bind fun init l₃ hr₃ h₃ => .expect hr₃ (by decide) fun l₄ h₄ => ?_
  refine (expressionUnless_sound ih h₄.ready').bind fun test l₅ hr₅ h₅ => .expect hr₅ (by decide) fun l₆ h₆ => ?_
  refine (expressionUnless_sound ih h₆.ready').bind fun step l₇ hr₇ h₇ => .expect hr₇ (by decide) fun l₈ h₈ => ?_
  exact (ih .statement b l₈ h₈.ready').bind fun _ _ hr h₉ => .finish hr (.forLoop h₁ h₂ h₃ h₄ h₅ h₆ h₇ h₈ h₉)

theorem returned_sound (ih : ∀ r, Sound r (rules r)) (hl : l.Ready) :
    Yields b (returned rules) l (Derives b .returned l) := by
  intro a s' h
  obtain ⟨c, s₁, h₁, h⟩ := Reading.bind_eq_done.1 h
  cases h₁
  split at h
  · rename_i he
    cases h
    exact ⟨l, hl, rfl, .nothingReturned he⟩
  · rename_i he
    have hy : Yields b (rules .expression) l (Derives b .expression l) := ih .expression b l hl
    exact (hy.bind fun _ _ hr h₂ => .pure hr (.returned (Bool.eq_false_iff.2 he) h₂)) a s' h

theorem returnStatement_sound (ih : ∀ r, Sound r (rules r)) (hl : l.Ready) (hk : l.hand.kind = .keyword .return) :
    Yields b (returnStatement rules) l (Derives b .statement l) := by
  refine .take hl hk (by decide) fun l₁ h₁ => ?_
  cases b with
  | false => rintro _ _ ⟨⟩
  | true =>
    refine (returned_sound ih h₁.ready').bind fun value l₂ hr₂ h₂ => ?_
    exact (ending_sound hr₂).bind fun _ _ hr h₃ => .finish hr (.returns h₁ h₂ h₃)

theorem jumpLabel_sound (hl : l.Ready) : Yields b jumpLabel l (Derives b .jumpLabel l) := by
  refine .token ?_
  split
  · rename_i hk
    exact .take hl hk.1 (by decide) fun _ h => .pure h.ready' (.label h hk.2)
  · exact .pure hl (.noLabel ‹_›)

theorem throwStatement_sound (ih : ∀ r, Sound r (rules r)) (hl : l.Ready) (hk : l.hand.kind = .keyword .throw) :
    Yields b (throwStatement rules l.hand.span.start) l (Derives b .statement l) := by
  refine .take hl hk (by decide) fun l₁ h₁ => .token ?_
  split
  · exact .refuseAt
  · rename_i hn
    refine (ih .expression b l₁ h₁.ready').bind fun value l₂ hr₂ h₂ => ?_
    exact (ending_sound hr₂).bind fun _ _ hr h₃ => .finish hr (.throws h₁ (by simpa using hn) h₂ h₃)

theorem expressionStatement_sound (ih : ∀ r, Sound r (rules r)) (hl : l.Ready) (hk : opensStatement l.hand.kind = false) :
    Yields b (expressionStatement rules l.hand.span.start) l (Derives b .statement l) := by
  refine (expression_sound ih hl).bind fun e l₁ hr₁ h₁ => ?_
  have plain : (isIdentifier e && l₁.hand.kind == .colon) = false →
      Yields b (do Reading.endStatement; Reading.finish l.hand.span.start (.expression · e)) l₁
        (Derives b .statement l) := fun hc =>
    (ending_sound hr₁).bind fun _ _ hr h₂ => .finish hr (.expressionStatement hk h₁ hc h₂)
  refine .at_ (fun hc => ?_) fun hn => ?_
  · split
    · refine .take hr₁ hc (by decide) fun l₂ h₂ => ?_
      exact (ih .statement b l₂ h₂.ready').bind fun _ _ hr h₃ => .finish hr (.labeled hk h₁ h₂ h₃)
    · rename_i e _ _ hv
      refine plain ?_
      cases e with
      | identifier span label => exact (hv span label rfl rfl).elim
      | _ => rfl
  · split
    · rename_i hf
      cases hf
    · exact plain (by simp [hn])

theorem statement_sound (ih : ∀ r, Sound r (rules r)) (hl : l.Ready) :
    Yields b (statement rules) l (Derives b .statement l) := by
  refine .token ?_
  dsimp only
  split
  · exact .take hl ‹_› (by decide) fun _ h => .finish h.ready' (.empty h)
  · exact (block_sound ih hl).bind fun _ _ hr h => .finish hr (.blockStatement h)
  · exact functionStatement_sound ih hl ‹_›
  · exact chooseStatement_sound ih hl ‹_›
  · exact whileStatement_sound ih hl ‹_›
  · exact doStatement_sound ih hl ‹_›
  · exact forStatement_sound ih hl ‹_›
  · exact returnStatement_sound ih hl ‹_›
  · refine .take hl ‹_› (by decide) fun l₁ h₁ => (jumpLabel_sound h₁.ready').bind fun label l₂ hr₂ h₂ => ?_
    exact (ending_sound hr₂).bind fun _ _ hr h₃ => .finish hr (.breaks h₁ h₂ h₃)
  · refine .take hl ‹_› (by decide) fun l₁ h₁ => (jumpLabel_sound h₁.ready').bind fun label l₂ hr₂ h₂ => ?_
    exact (ending_sound hr₂).bind fun _ _ hr h₃ => .finish hr (.continues h₁ h₂ h₃)
  · exact throwStatement_sound ih hl ‹_›
  · split
    · rename_i kind hd
      refine (declaration_sound ih hl hd).bind ?_
      rintro items l₂ hr₂ ⟨l₁, h₁, h₂⟩
      exact (ending_sound hr₂).bind fun _ _ hr h₃ => .finish hr (.declare h₁ hd h₂ h₃)
    · rename_i hd
      refine expressionStatement_sound ih hl ?_
      unfold opensStatement
      split <;> simp_all

theorem blockRest_sound (ih : ∀ r, Sound r (rules r)) (hl : l.Ready) :
    Yields b (blockRest rules) l (Derives b .blockRest l) := by
  refine .at_ (fun hk => .take hl hk (by decide) fun _ h => .pure h.ready' (.blockEnd h)) fun hk => ?_
  refine .at_ (fun _ => .refuse) fun he => (statement_sound ih hl).bind fun first l₁ hr₁ h₁ => ?_
  exact (ih .blockRest b l₁ hr₁).bind fun _ _ hr h₂ => .pure hr (.blockItem hk he h₁ h₂)

/-! ## All rules -/

theorem rule_sound (ih : ∀ r, Sound r (rules r)) (r : Rule) : Sound r (rule rules r) := by
  cases r with
  | statement => exact fun _ _ => statement_sound ih
  | blockRest => exact fun _ _ => blockRest_sound ih
  | declarators kind => exact fun _ _ => declarators_sound ih
  | params => exact fun _ _ => params_sound ih
  | expression => exact fun _ _ => expression_sound ih
  | itemsRest => exact fun _ _ => itemsRest_sound ih
  | assignment => exact fun _ _ => assignment_sound ih
  | binary least => exact fun _ _ => binary_sound ih
  | binaryRest least left => exact fun _ _ _ => binaryRest_sound ih
  | unary => exact fun _ _ => unary_sound ih
  | callRest callee => exact fun _ _ _ => callRest_sound ih
  | construct => exact fun _ _ => construct_sound ih
  | memberRest target => exact fun _ _ _ => memberRest_sound ih
  | argumentsRest => exact fun _ _ => argumentsRest_sound ih
  | elementsRest => exact fun _ _ => elementsRest_sound ih
  | propertiesRest => exact fun _ _ => propertiesRest_sound ih

end

theorem exhausted_sound (r : Rule) : Sound r Reading.exhausted := by
  cases r <;> dsimp only [Sound] <;> intros <;> exact .exhausted

/-- **What the rules read, with any allowance of steps, is in the grammar.** -/
theorem rules_sound : ∀ (n : Nat) (r : Rule), Sound r (rules n r)
  | 0, r     => exhausted_sound r
  | n + 1, r => rule_sound (rules_sound n) r

end Readback.Grammar
