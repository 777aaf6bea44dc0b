import Readback.Proofs.Grammar.Copy
/-!
# Phrases are carried over

For each way to make a phrase: where the parts of it are followed into another text, so is the whole.  From the end of the
phrase backwards, what is in hand at each place is what is in hand in the other text, because it is taken there, or may stand
behind the part that ends at this place.  So a phrase is one of another text along the tokens it is made of, be these all
that is known of the other text (`Derives.way`), or be a stretch of the text there as a whole (`Derives.moved`).
-/
namespace Readback.Grammar

section

variable {m : Move} {on : List Token → Lexer → Prop} {φ : Lexer → Lexer} {b : Bool}
  {l l₁ l₂ l₃ l₄ l₅ l₆ l₇ l₈ l' : Lexer} {e e' i : Expr}

-- In these proofs a token that is taken in the other text is `s`, a part that is found there is `c`, by the number of its
-- hypothesis; `hs` is what is in hand there behind the whole, and `hl'` that it is the same token.

/-! ### Primary expressions -/

theorem number_followed {x} (F : Follows m on φ) (h₁ : l.Takes .number l')
    (h₂ : Number.Literal.read? l.hand.text.toList = some x) :
    Followed m on φ b .primary l (.literal (l.upTo l') (.number x)) l' := by
  refine (F.takes h₁ (by decide)).imp (by simp) fun i' s => ⟨.inl s.2, fun _ => ?_⟩
  simpa only [Phrase.move, Expr.move, F.upTo s.2 i'] using .number s.1 (s.2.text.symm ▸ h₂)

theorem text_followed (F : Follows m on φ) (h₁ : l.Takes .string l') :
    Followed m on φ b .primary l (.literal (l.upTo l') (.text l.hand.text)) l' := by
  refine (F.takes h₁ (by decide)).imp (by simp) fun i' s => ⟨.inl s.2, fun _ => ?_⟩
  simpa only [Phrase.move, Expr.move, F.upTo s.2 i', ← s.2.text] using .text s.1

theorem word_followed {v} (F : Follows m on φ) (h₁ : l.Steps l') (h₂ : wordLiteral? l.hand.kind = some v) :
    Followed m on φ b .primary l (.literal (l.upTo l') v) l' := by
  refine (F.steps_of_ne h₁ (ne_regex h₂ rfl)).imp (by simp) fun i' s => ⟨.inl s.2, fun _ => ?_⟩
  simpa only [Phrase.move, Expr.move, F.upTo s.2 i'] using .word s.1 (s.2.kind.symm ▸ h₂)

theorem regex_followed (F : Follows m on φ) (h₁ : l.Takes .regex l') :
    Followed m on φ b .primary l (.regex (l.upTo l') (splitRegex l.hand.text.toList).1 (splitRegex l.hand.text.toList).2) l' := by
  refine (F.takes_regex h₁).imp (by simp) fun i' s => ⟨.inl s.2, fun _ => ?_⟩
  simpa only [Phrase.move, Expr.move, F.upTo s.2 i', ← s.2.text] using .regex s.1

theorem slash_followed {u} (F : Follows m on φ) (h₁ : l.Rereads u l') :
    Followed m on φ b .primary l (.regex (l.upTo l') (splitRegex u.text.toList).1 (splitRegex u.text.toList).2) l' := by
  refine (F.rereads h₁).imp (by simp) fun i' s => ⟨.inl s.2, fun _ => ?_⟩
  obtain ⟨u', hu, ht⟩ := s.1
  simpa only [Phrase.move, Expr.move, F.upTo s.2 i', ← ht] using .slash hu

theorem identifier_followed (F : Follows m on φ) (h₁ : l.Takes .identifier l') :
    Followed m on φ b .primary l (.identifier (l.upTo l') l.hand.text) l' := by
  refine (F.takes h₁ (by decide)).imp (by simp) fun i' s => ⟨.inl s.2, fun _ => ?_⟩
  simpa only [Phrase.move, Expr.move, F.upTo s.2 i', ← s.2.text] using .identifier s.1

theorem this_followed (F : Follows m on φ) (h₁ : l.Takes (.keyword .this) l') :
    Followed m on φ b .primary l (.this (l.upTo l')) l' := by
  refine (F.takes h₁ (by decide)).imp (by simp) fun i' s => ⟨.inl s.2, fun _ => ?_⟩
  simpa only [Phrase.move, Expr.move, F.upTo s.2 i'] using .this s.1

theorem function_followed {name f} (F : Follows m on φ) (h₁ : l.Takes (.keyword .function) l₁)
    (h₂ : Followed m on φ b .functionName l₁ name l₂) (h₃ : Followed m on φ b .signature l₂ f l') :
    Followed m on φ b .primary l (.function (l.upTo l') name f.1 f.2) l' := by
  refine ((F.takes h₁ (by decide)).trans (h₂.trans h₃)).imp (by simp) fun i' ⟨s₁, c₂, c₃⟩ => ⟨.inl s₁.2, fun hs => ?_⟩
  simpa only [Phrase.move, Expr.move, F.upTo s₁.2 i']
    using .function s₁.1 (c₂.derives (.inl (c₃.like rfl))) (c₃.derives (hs.imp fun _ _ => trivial))

theorem group_followed (F : Follows m on φ) (h₁ : l.Takes .lParen l₁) (h₂ : Followed m on φ b .expression l₁ e l₂)
    (h₃ : l₂.Takes .rParen l') :
    Followed m on φ b .primary l (.group (l.upTo l') e) l' := by
  refine ((F.takes h₁ (by decide)).trans (h₂.trans (F.takes h₃ (by decide)))).imp (by simp)
    fun i' ⟨s₁, c₂, s₃⟩ => ⟨.inl s₁.2, fun _ => ?_⟩
  simpa only [Phrase.move, Expr.move, F.upTo s₁.2 i'] using .group s₁.1 (c₂.derives (.inl s₃.2)) s₃.1

theorem array_followed {items} (F : Follows m on φ) (h₁ : l.Takes .lBracket l₁)
    (h₂ : Followed m on φ b .elementsRest l₁ items l') :
    Followed m on φ b .primary l (.array (l.upTo l') items) l' := by
  refine ((F.takes h₁ (by decide)).trans h₂).imp (by simp) fun i' ⟨s₁, c₂⟩ => ⟨.inl s₁.2, fun hs => ?_⟩
  simpa only [Phrase.move, Expr.move, F.upTo s₁.2 i'] using .array s₁.1 (c₂.derives (hs.imp fun _ _ => trivial))

theorem object_followed {items} (F : Follows m on φ) (h₁ : l.Takes .lBrace l₁)
    (h₂ : Followed m on φ b .propertiesRest l₁ items l') :
    Followed m on φ b .primary l (.object (l.upTo l') items) l' := by
  refine ((F.takes h₁ (by decide)).trans h₂).imp (by simp) fun i' ⟨s₁, c₂⟩ => ⟨.inl s₁.2, fun hs => ?_⟩
  simpa only [Phrase.move, Expr.move, F.upTo s₁.2 i'] using .object s₁.1 (c₂.derives (hs.imp fun _ _ => trivial))

/-! ### Functions -/

theorem named_followed (F : Follows m on φ) (h₁ : l.Takes .identifier l') :
    Followed m on φ b .functionName l (some l.hand.text) l' := by
  refine (F.takes h₁ (by decide)).imp (by simp) fun _ s => ⟨.inl s.2, fun _ => ?_⟩
  simpa only [Phrase.move, ← s.2.text] using .named s.1

theorem nameless_followed (h₁ : l.hand.kind ≠ .identifier) :
    Followed m on φ b .functionName l none l := by
  refine .of_none rfl rfl fun hs => ?_
  simpa only [Phrase.move] using .nameless ((hs.like fun _ => id).kind.symm ▸ h₁)

theorem noParams_followed (h₁ : l.hand.kind = .rParen) :
    Followed m on φ b .parameters l [] l := by
  refine .of_none rfl rfl fun hs => ?_
  simpa only [Phrase.move] using .noParams ((hs.like fun _ => id).kind.symm ▸ h₁)

theorem someParams_followed {names} (h₁ : l.hand.kind ≠ .rParen) (h₂ : Followed m on φ b .params l names l') :
    Followed m on φ b .parameters l names l' := by
  refine h₂.imp (by simp) fun _ c => ⟨.inl (c.like rfl), fun hs => ?_⟩
  have hl' := hs.like fun _ => id
  simpa only [Phrase.move] using .someParams ((c.like rfl).kind.symm ▸ h₁) (c.derives (.inl hl'))

theorem lastParam_followed (F : Follows m on φ) (h₁ : l.Takes .identifier l') (h₂ : l'.hand.kind ≠ .comma) :
    Followed m on φ b .params l [l.hand.text] l' := by
  refine (F.takes h₁ (by decide)).imp (by simp) fun _ s => ⟨.inl s.2, fun hs => ?_⟩
  have hl' := hs.like fun _ => id
  simpa only [Phrase.move, ← s.2.text] using .lastParam s.1 (hl'.kind.symm ▸ h₂)

theorem param_followed {names} (F : Follows m on φ) (h₁ : l.Takes .identifier l₁) (h₂ : l₁.Takes .comma l₂)
    (h₃ : Followed m on φ b .params l₂ names l') :
    Followed m on φ b .params l (l.hand.text :: names) l' := by
  refine ((F.takes h₁ (by decide)).trans ((F.takes h₂ (by decide)).trans h₃)).imp (by simp)
    fun _ ⟨s₁, s₂, c₃⟩ => ⟨.inl s₁.2, fun hs => ?_⟩
  have hl' := hs.like fun _ => id
  simpa only [Phrase.move, ← s₁.2.text] using .param s₁.1 s₂.1 (c₃.derives (.inl hl'))

theorem signature_followed {names body} (F : Follows m on φ) (h₁ : l.Takes .lParen l₁)
    (h₂ : Followed m on φ b .parameters l₁ names l₂) (h₃ : l₂.Takes .rParen l₃)
    (h₄ : Followed m on φ true .block l₃ body l') :
    Followed m on φ b .signature l (names, body) l' := by
  refine ((F.takes h₁ (by decide)).trans (h₂.trans ((F.takes h₃ (by decide)).trans h₄))).imp (by simp)
    fun _ ⟨s₁, c₂, s₃, c₄⟩ => ⟨.inl s₁.2, fun hs => ?_⟩
  simpa only [Phrase.move]
    using .signature s₁.1 (c₂.derives (.inl s₃.2)) s₃.1 (c₄.derives (hs.imp fun _ _ => trivial))

/-! ### Members, calls and `new` -/

theorem primaryChain_followed {calls} (h₁ : l.hand.kind ≠ .keyword .new) (h₂ : Followed m on φ b .primary l e l') :
    Followed m on φ b (.chain calls) l e l' := by
  refine h₂.imp (by simp) fun _ c => ⟨.inl (c.like rfl), fun hs => ?_⟩
  simpa only [Phrase.move] using .primaryChain ((c.like rfl).kind.symm ▸ h₁) (c.derives (hs.imp fun _ _ => trivial))

theorem constructChain_followed {calls} (h₁ : l.hand.kind = .keyword .new) (h₂ : Followed m on φ b .construct l e l') :
    Followed m on φ b (.chain calls) l e l' := by
  refine h₂.imp (by simp) fun _ c => ⟨.inl (c.like rfl), fun hs => ?_⟩
  simpa only [Phrase.move] using .constructChain ((c.like rfl).kind.symm ▸ h₁) (c.derives (hs.imp fun _ h => h))

theorem field_followed {calls} (F : Follows m on φ) (h₁ : Followed m on φ b (.chain calls) l e l₁)
    (h₂ : l₁.Takes .dot l₂) (h₃ : isName l₂.hand.kind = true) (h₄ : l₂.Steps l') :
    Followed m on φ b (.chain calls) l (.field ⟨e.span.start, l'.cursor.pos⟩ e l₂.hand.text) l' := by
  refine (h₁.trans ((F.takes h₂ (by decide)).trans (F.steps_of_ne h₄ (ne_regex_of_isName h₃)))).imp (by simp)
    fun i' ⟨c₁, s₂, s₄⟩ => ⟨.inl (c₁.like rfl), fun _ => ?_⟩
  simpa only [Phrase.move, Expr.move, F.fromStart i', ← s₄.2.text]
    using .field (c₁.derives (.inl s₂.2)) s₂.1 (s₄.2.kind.symm ▸ h₃) s₄.1

theorem index_followed {calls} (F : Follows m on φ) (h₁ : Followed m on φ b (.chain calls) l e l₁)
    (h₂ : l₁.Takes .lBracket l₂) (h₃ : Followed m on φ b .expression l₂ i l₃) (h₄ : l₃.Takes .rBracket l') :
    Followed m on φ b (.chain calls) l (.index ⟨e.span.start, l'.cursor.pos⟩ e i) l' := by
  refine (h₁.trans ((F.takes h₂ (by decide)).trans (h₃.trans (F.takes h₄ (by decide))))).imp (by simp)
    fun i' ⟨c₁, s₂, c₃, s₄⟩ => ⟨.inl (c₁.like rfl), fun _ => ?_⟩
  simpa only [Phrase.move, Expr.move, F.fromStart i']
    using .index (c₁.derives (.inl s₂.2)) s₂.1 (c₃.derives (.inl s₄.2)) s₄.1

theorem call_followed {args} (F : Follows m on φ) (h₁ : Followed m on φ b (.chain true) l e l₁)
    (h₂ : l₁.Takes .lParen l₂) (h₃ : Followed m on φ b .argumentsRest l₂ args l') :
    Followed m on φ b (.chain true) l (.call ⟨e.span.start, l'.cursor.pos⟩ e args) l' := by
  refine (h₁.trans ((F.takes h₂ (by decide)).trans h₃)).imp (by simp)
    fun i' ⟨c₁, s₂, c₃⟩ => ⟨.inl (c₁.like rfl), fun hs => ?_⟩
  simpa only [Phrase.move, Expr.move, F.fromStart i']
    using .call (c₁.derives (.inl s₂.2)) s₂.1 (c₃.derives (hs.imp fun _ _ => trivial))

theorem member_followed {calls} (h₁ : Followed m on φ b (.chain calls) l e l')
    (h₂ : extendsChain calls l'.hand.kind = false) :
    Followed m on φ b (.member calls) l e l' := by
  refine h₁.imp (by simp) fun _ c => ⟨.inl (c.like rfl), fun hs => ?_⟩
  simpa only [Phrase.move]
    using .member (c.derives (hs.imp fun _ h => h))
      (hs.kind (C := (extendsChain calls · = false)) (fun _ h => extendsChain_of_endsCall h) h₂)

theorem construct_followed {args} (F : Follows m on φ) (h₁ : l.Takes (.keyword .new) l₁)
    (h₂ : Followed m on φ b (.member false) l₁ e l₂) (h₃ : Followed m on φ b .newArguments l₂ args l') :
    Followed m on φ b .construct l (.new (l.upTo l') e args) l' := by
  refine ((F.takes h₁ (by decide)).trans (h₂.trans h₃)).imp (by simp) fun i' ⟨s₁, c₂, c₃⟩ => ⟨.inl s₁.2, fun hs => ?_⟩
  simpa only [Phrase.move, Expr.move, F.upTo s₁.2 i']
    using .construct s₁.1 (c₂.derives (c₃.meets (hs.imp fun _ h => h) fun _ h => h))
      (c₃.derives (hs.imp fun _ h => h))

theorem newArguments_followed {args} (F : Follows m on φ) (h₁ : l.Takes .lParen l₁)
    (h₂ : Followed m on φ b .argumentsRest l₁ args l') :
    Followed m on φ b .newArguments l args l' := by
  refine ((F.takes h₁ (by decide)).trans h₂).imp (by simp) fun _ ⟨s₁, c₂⟩ => ⟨.inl s₁.2, fun hs => ?_⟩
  simpa only [Phrase.move, moveItems] using .newArguments s₁.1 (c₂.derives (hs.imp fun _ _ => trivial))

theorem noArguments_followed (h₁ : l.hand.kind ≠ .lParen) :
    Followed m on φ b .newArguments l [] l := by
  refine .of_none rfl rfl fun hs => ?_
  simpa only [Phrase.move, moveItems]
    using .noArguments (hs.kind (C := (· ≠ .lParen)) (fun _ h => ne_lParen_of_endsCall h) h₁)

/-! ### Operators -/

theorem noUpdate_followed (h₁ : Followed m on φ b (.member true) l e l') (h₂ : updateHere? l'.hand = none) :
    Followed m on φ b .update l e l' := by
  refine h₁.imp (by simp) fun _ c => ⟨.inl (c.like rfl), fun hs => ?_⟩
  simpa only [Phrase.move] using .noUpdate (c.derives (hs.imp fun _ h => h.1)) (hs.updateHere h₂)

theorem update_followed {op} (F : Follows m on φ) (h₁ : Followed m on φ b (.member true) l e l₁) (h₂ : l₁.Steps l')
    (h₃ : updateHere? l₁.hand = some op) :
    Followed m on φ b .update l (.update (e.span.through l₁.hand.span) op false e) l' := by
  refine (h₁.trans (F.steps_of_ne h₂ (ne_regex_of_updateHere h₃))).imp (by simp)
    fun i' ⟨c₁, s₂⟩ => ⟨.inl (c₁.like rfl), fun _ => ?_⟩
  simpa only [Phrase.move, Expr.move, F.throughHand i' h₂ s₂.1]
    using .update (c₁.derives (.inl s₂.2)) s₂.1 (s₂.2.updateHere.trans h₃)

theorem noPrefix_followed (h₁ : unaryOp? l.hand.kind = none) (h₂ : updateOp? l.hand.kind = none)
    (h₃ : Followed m on φ b .update l e l') :
    Followed m on φ b .unary l e l' := by
  refine h₃.imp (by simp) fun _ c => ⟨.inl (c.like rfl), fun hs => ?_⟩
  simpa only [Phrase.move]
    using .noPrefix ((c.like rfl).kind.symm ▸ h₁) ((c.like rfl).kind.symm ▸ h₂) (c.derives (hs.imp fun _ h => h))

theorem unary_followed {op} (F : Follows m on φ) (h₁ : l.Steps l₁) (h₂ : unaryOp? l.hand.kind = some op)
    (h₃ : Followed m on φ b .unary l₁ e l') :
    Followed m on φ b .unary l (.unary (l.hand.span.through e.span) op e) l' := by
  refine ((F.steps_of_ne h₁ (ne_regex h₂ rfl)).trans h₃).imp (by simp) fun _ ⟨s₁, c₃⟩ => ⟨.inl s₁.2, fun hs => ?_⟩
  simpa only [Phrase.move, Expr.move, s₁.2.throughExpr] using .unary s₁.1 (s₁.2.kind.symm ▸ h₂) (c₃.derives hs)

theorem updateFirst_followed {op} (F : Follows m on φ) (h₁ : l.Steps l₁) (h₂ : unaryOp? l.hand.kind = none)
    (h₃ : updateOp? l.hand.kind = some op) (h₄ : Followed m on φ b .unary l₁ e l') :
    Followed m on φ b .unary l (.update (l.hand.span.through e.span) op true e) l' := by
  refine ((F.steps_of_ne h₁ (ne_regex h₃ rfl)).trans h₄).imp (by simp) fun _ ⟨s₁, c₄⟩ => ⟨.inl s₁.2, fun hs => ?_⟩
  simpa only [Phrase.move, Expr.move, s₁.2.throughExpr]
    using .updateFirst s₁.1 (s₁.2.kind.symm ▸ h₂) (s₁.2.kind.symm ▸ h₃) (c₄.derives hs)

theorem operators_followed {least} (h₁ : Followed m on φ b .unary l e l') :
    Followed m on φ b (.operators least) l e l' := by
  refine h₁.imp (by simp) fun _ c => ⟨.inl (c.like rfl), fun hs => ?_⟩
  simpa only [Phrase.move] using .operators (c.derives (hs.imp fun _ h => h.1))

theorem operator_followed {op least} (F : Follows m on φ) (h₁ : Followed m on φ b (.operators least) l e l₁)
    (h₂ : l₁.Steps l₂) (h₃ : operatorHere? least l₁.hand.kind = some op)
    (h₄ : Followed m on φ b (.binary op.rightPrecedence) l₂ e' l') :
    Followed m on φ b (.operators least) l (.binary (e.span.through e'.span) op e e') l' := by
  refine (h₁.trans ((F.steps_of_ne h₂ (ne_regex h₃ rfl)).trans h₄)).imp (by simp)
    fun _ ⟨c₁, s₂, c₄⟩ => ⟨.inl (c₁.like rfl), fun hs => ?_⟩
  simpa only [Phrase.move, Expr.move, Span.move_through, ← Expr.span_move]
    using .operator (c₁.derives (.inl s₂.2)) s₂.1 (s₂.2.kind.symm ▸ h₃)
      (c₄.derives (hs.imp fun _ h => endsBinary_of_operatorHere h₃ h))

theorem binary_followed {least} (h₁ : Followed m on φ b (.operators least) l e l')
    (h₂ : operatorHere? least l'.hand.kind = none) :
    Followed m on φ b (.binary least) l e l' := by
  refine h₁.imp (by simp) fun _ c => ⟨.inl (c.like rfl), fun hs => ?_⟩
  simpa only [Phrase.move]
    using .binary (c.derives (hs.imp fun _ h => h))
      (hs.kind (C := (operatorHere? least · = none)) (fun _ h => h.2) h₂)

theorem noChoice_followed (h₁ : Followed m on φ b (.binary 0) l e l') (h₂ : l'.hand.kind ≠ .question) :
    Followed m on φ b .conditional l e l' := by
  refine h₁.imp (by simp) fun _ c => ⟨.inl (c.like rfl), fun hs => ?_⟩
  simpa only [Phrase.move]
    using .noChoice (c.derives (hs.imp fun _ h => h.1)) (hs.kind (C := (· ≠ .question)) (fun _ h => h.2.1) h₂)

theorem choice_followed {yes no} (F : Follows m on φ) (h₁ : Followed m on φ b (.binary 0) l e l₁)
    (h₂ : l₁.Takes .question l₂) (h₃ : Followed m on φ b .assignment l₂ yes l₃) (h₄ : l₃.Takes .colon l₄)
    (h₅ : Followed m on φ b .assignment l₄ no l') :
    Followed m on φ b .conditional l (.conditional (e.span.through no.span) e yes no) l' := by
  refine (h₁.trans ((F.takes h₂ (by decide)).trans (h₃.trans ((F.takes h₄ (by decide)).trans h₅)))).imp (by simp)
    fun _ ⟨c₁, s₂, c₃, s₄, c₅⟩ => ⟨.inl (c₁.like rfl), fun hs => ?_⟩
  simpa only [Phrase.move, Expr.move, Span.move_through, ← Expr.span_move]
    using .choice (c₁.derives (.inl s₂.2)) s₂.1 (c₃.derives (.inl s₄.2)) s₄.1 (c₅.derives (hs.imp fun _ h => h))

theorem noAssign_followed (h₁ : Followed m on φ b .conditional l e l') (h₂ : isAssign l'.hand.kind = false) :
    Followed m on φ b .assignment l e l' := by
  refine h₁.imp (by simp) fun _ c => ⟨.inl (c.like rfl), fun hs => ?_⟩
  simpa only [Phrase.move]
    using .noAssign (c.derives (hs.imp fun _ h => h)) (hs.kind (C := (isAssign · = false)) (fun _ h => h.2.2) h₂)

theorem assign_followed {op} (F : Follows m on φ) (h₁ : Followed m on φ b .conditional l e l₁) (h₂ : l₁.Steps l₂)
    (h₃ : assignOp? l₁.hand = some op) (h₄ : e.isTarget = true) (h₅ : Followed m on φ b .assignment l₂ e' l') :
    Followed m on φ b .assignment l (.assign (e.span.through e'.span) op e e') l' := by
  refine (h₁.trans ((F.steps_of_ne h₂ (ne_regex_of_assignOp h₃)).trans h₅)).imp (by simp)
    fun _ ⟨c₁, s₂, c₅⟩ => ⟨.inl (c₁.like rfl), fun hs => ?_⟩
  simpa only [Phrase.move, Expr.move, Span.move_through, ← Expr.span_move]
    using .assign (c₁.derives (.inl s₂.2)) s₂.1 (s₂.2.assignOp.trans h₃) ((isTarget_move _).trans h₄) (c₅.derives hs)

theorem single_followed (h₁ : Followed m on φ b .assignment l e l') (h₂ : l'.hand.kind ≠ .comma) :
    Followed m on φ b .expression l e l' := by
  refine h₁.imp (by simp) fun _ c => ⟨.inl (c.like rfl), fun hs => ?_⟩
  simpa only [Phrase.move]
    using .single (c.derives (hs.imp fun _ h => h.1)) (hs.kind (C := (· ≠ .comma)) (fun _ h => h.2) h₂)

theorem sequence_followed {rest} (F : Follows m on φ) (h₁ : Followed m on φ b .assignment l e l₁)
    (h₂ : l₁.hand.kind = .comma) (ho : Opens l₁ l') (h₃ : Followed m on φ b .itemsRest l₁ rest l') :
    Followed m on φ b .expression l (.sequence ⟨e.span.start, l'.cursor.pos⟩ (e :: rest)) l' := by
  refine (h₁.trans (F.opens h₃ ho)).imp (by simp) fun i' ⟨c₁, hl, c₃⟩ => ⟨.inl (c₁.like rfl), fun hs => ?_⟩
  simpa only [Phrase.move, Expr.move, moveItems, F.fromStart i']
    using .sequence (c₁.derives (.inl hl)) (hl.kind.trans h₂) (c₃.derives (hs.imp fun _ h => h))

theorem noItem_followed (h₁ : l.hand.kind ≠ .comma) :
    Followed m on φ b .itemsRest l [] l := by
  refine .of_none rfl rfl fun hs => ?_
  simpa only [Phrase.move, moveItems] using .noItem (hs.kind (C := (· ≠ .comma)) (fun _ h => h.2) h₁)

theorem item_followed {rest} (F : Follows m on φ) (h₁ : l.Takes .comma l₁)
    (h₂ : Followed m on φ b .assignment l₁ e l₂) (h₃ : Followed m on φ b .itemsRest l₂ rest l') :
    Followed m on φ b .itemsRest l (e :: rest) l' := by
  refine ((F.takes h₁ (by decide)).trans (h₂.trans h₃)).imp (by simp) fun _ ⟨s₁, c₂, c₃⟩ => ⟨.inl s₁.2, fun hs => ?_⟩
  simpa only [Phrase.move, moveItems] using .item s₁.1 (c₂.derives (c₃.meets hs fun _ h => h.1)) (c₃.derives hs)

/-! ### Arguments, elements and properties -/

theorem argumentsEnd_followed (F : Follows m on φ) (h₁ : l.Takes .rParen l') :
    Followed m on φ b .argumentsRest l [] l' := by
  refine (F.takes h₁ (by decide)).imp (by simp) fun _ s => ⟨.inl s.2, fun _ => ?_⟩
  simpa only [Phrase.move, moveItems] using .argumentsEnd s.1

theorem lastArgument_followed (F : Follows m on φ) (h₁ : l.hand.kind ≠ .rParen)
    (h₂ : Followed m on φ b .assignment l e l₁) (h₃ : l₁.Takes .rParen l') :
    Followed m on φ b .argumentsRest l [e] l' := by
  refine (h₂.trans (F.takes h₃ (by decide))).imp (by simp) fun _ ⟨c₂, s₃⟩ => ⟨.inl (c₂.like rfl), fun _ => ?_⟩
  simpa only [Phrase.move, moveItems] using .lastArgument ((c₂.like rfl).kind.symm ▸ h₁) (c₂.derives (.inl s₃.2)) s₃.1

theorem argument_followed {rest} (F : Follows m on φ) (h₁ : l.hand.kind ≠ .rParen)
    (h₂ : Followed m on φ b .assignment l e l₁) (h₃ : l₁.Takes .comma l₂)
    (h₄ : Followed m on φ b .argumentsRest l₂ rest l') :
    Followed m on φ b .argumentsRest l (e :: rest) l' := by
  refine (h₂.trans ((F.takes h₃ (by decide)).trans h₄)).imp (by simp)
    fun _ ⟨c₂, s₃, c₄⟩ => ⟨.inl (c₂.like rfl), fun hs => ?_⟩
  simpa only [Phrase.move, moveItems]
    using .argument ((c₂.like rfl).kind.symm ▸ h₁) (c₂.derives (.inl s₃.2)) s₃.1 (c₄.derives hs)

theorem elementsEnd_followed (F : Follows m on φ) (h₁ : l.Takes .rBracket l') :
    Followed m on φ b .elementsRest l [] l' := by
  refine (F.takes h₁ (by decide)).imp (by simp) fun _ s => ⟨.inl s.2, fun _ => ?_⟩
  simpa only [Phrase.move, moveElements] using .elementsEnd s.1

theorem hole_followed {rest} (F : Follows m on φ) (h₁ : l.Takes .comma l₁)
    (h₂ : Followed m on φ b .elementsRest l₁ rest l') :
    Followed m on φ b .elementsRest l (none :: rest) l' := by
  refine ((F.takes h₁ (by decide)).trans h₂).imp (by simp) fun _ ⟨s₁, c₂⟩ => ⟨.inl s₁.2, fun hs => ?_⟩
  simpa only [Phrase.move, moveElements] using .hole s₁.1 (c₂.derives hs)

theorem lastElement_followed (F : Follows m on φ) (h₁ : l.hand.kind ≠ .rBracket) (h₂ : l.hand.kind ≠ .comma)
    (h₃ : Followed m on φ b .assignment l e l₁) (h₄ : l₁.Takes .rBracket l') :
    Followed m on φ b .elementsRest l [some e] l' := by
  refine (h₃.trans (F.takes h₄ (by decide))).imp (by simp) fun _ ⟨c₃, s₄⟩ => ⟨.inl (c₃.like rfl), fun _ => ?_⟩
  simpa only [Phrase.move, moveElements]
    using .lastElement ((c₃.like rfl).kind.symm ▸ h₁) ((c₃.like rfl).kind.symm ▸ h₂) (c₃.derives (.inl s₄.2)) s₄.1

theorem element_followed {rest} (F : Follows m on φ) (h₁ : l.hand.kind ≠ .rBracket) (h₂ : l.hand.kind ≠ .comma)
    (h₃ : Followed m on φ b .assignment l e l₁) (h₄ : l₁.Takes .comma l₂)
    (h₅ : Followed m on φ b .elementsRest l₂ rest l') :
    Followed m on φ b .elementsRest l (some e :: rest) l' := by
  refine (h₃.trans ((F.takes h₄ (by decide)).trans h₅)).imp (by simp)
    fun _ ⟨c₃, s₄, c₅⟩ => ⟨.inl (c₃.like rfl), fun hs => ?_⟩
  simpa only [Phrase.move, moveElements]
    using .element ((c₃.like rfl).kind.symm ▸ h₁) ((c₃.like rfl).kind.symm ▸ h₂) (c₃.derives (.inl s₄.2)) s₄.1
      (c₅.derives hs)

theorem propertiesEnd_followed (F : Follows m on φ) (h₁ : l.Takes .rBrace l') :
    Followed m on φ b .propertiesRest l [] l' := by
  refine (F.takes h₁ (by decide)).imp (by simp) fun _ s => ⟨.inl s.2, fun _ => ?_⟩
  simpa only [Phrase.move, moveProperties] using .propertiesEnd s.1

theorem lastProperty_followed {first} (F : Follows m on φ) (h₁ : l.hand.kind ≠ .rBrace)
    (h₂ : Followed m on φ b .property l first l₁) (h₃ : l₁.Takes .rBrace l') :
    Followed m on φ b .propertiesRest l [first] l' := by
  refine (h₂.trans (F.takes h₃ (by decide))).imp (by simp) fun _ ⟨c₂, s₃⟩ => ⟨.inl (c₂.like rfl), fun _ => ?_⟩
  simpa only [Phrase.move, moveProperties]
    using .lastProperty ((c₂.like rfl).kind.symm ▸ h₁) (c₂.derives (.inl s₃.2)) s₃.1

theorem moreProperties_followed {first rest} (F : Follows m on φ) (h₁ : l.hand.kind ≠ .rBrace)
    (h₂ : Followed m on φ b .property l first l₁) (h₃ : l₁.Takes .comma l₂)
    (h₄ : Followed m on φ b .propertiesRest l₂ rest l') :
    Followed m on φ b .propertiesRest l (first :: rest) l' := by
  refine (h₂.trans ((F.takes h₃ (by decide)).trans h₄)).imp (by simp)
    fun _ ⟨c₂, s₃, c₄⟩ => ⟨.inl (c₂.like rfl), fun hs => ?_⟩
  simpa only [Phrase.move, moveProperties]
    using .moreProperties ((c₂.like rfl).kind.symm ▸ h₁) (c₂.derives (.inl s₃.2)) s₃.1 (c₄.derives hs)

theorem shorthand_followed (F : Follows m on φ) (h₁ : l.Takes .identifier l')
    (h₂ : l'.hand.kind = .comma ∨ l'.hand.kind = .rBrace) :
    Followed m on φ b .property l (.shorthand (l.upTo l') l.hand.text) l' := by
  refine (F.takes h₁ (by decide)).imp (by simp) fun i' s => ⟨.inl s.2, fun hs => ?_⟩
  have hl' := hs.like fun _ => id
  simpa only [Phrase.move, Property.move, F.upTo s.2 i', ← s.2.text] using .shorthand s.1 (hl'.kind.symm ▸ h₂)

theorem pair_followed {key} (F : Follows m on φ) (h₁ : Followed m on φ b .propertyKey l key l₁)
    (h₂ : l₁.Takes .colon l₂) (h₃ : Followed m on φ b .assignment l₂ e l') :
    Followed m on φ b .property l (.pair (l.upTo l') key e) l' := by
  refine (h₁.trans ((F.takes h₂ (by decide)).trans h₃)).imp (by simp)
    fun i' ⟨c₁, s₂, c₃⟩ => ⟨.inl (c₁.like rfl), fun hs => ?_⟩
  have hl' := hs.like fun _ => id
  simpa only [Phrase.move, Property.move, F.upTo (c₁.like rfl) i']
    using .pair (c₁.derives (.inl s₂.2)) s₂.1 (c₃.derives (.inl hl'))

theorem nameKey_followed (F : Follows m on φ) (h₁ : l.Steps l') (h₂ : isName l.hand.kind = true) :
    Followed m on φ b .propertyKey l (.name l.hand.text) l' := by
  refine (F.steps_of_ne h₁ (ne_regex_of_isName h₂)).imp (by simp) fun _ s => ⟨.inl s.2, fun _ => ?_⟩
  simpa only [Phrase.move, PropertyKey.move, ← s.2.text] using .nameKey s.1 (s.2.kind.symm ▸ h₂)

theorem textKey_followed (F : Follows m on φ) (h₁ : l.Takes .string l') :
    Followed m on φ b .propertyKey l (.text l.hand.text) l' := by
  refine (F.takes h₁ (by decide)).imp (by simp) fun _ s => ⟨.inl s.2, fun _ => ?_⟩
  simpa only [Phrase.move, PropertyKey.move, ← s.2.text] using .textKey s.1

theorem numberKey_followed {x} (F : Follows m on φ) (h₁ : l.Takes .number l')
    (h₂ : Number.Literal.read? l.hand.text.toList = some x) :
    Followed m on φ b .propertyKey l (.number x) l' := by
  refine (F.takes h₁ (by decide)).imp (by simp) fun _ s => ⟨.inl s.2, fun _ => ?_⟩
  simpa only [Phrase.move, PropertyKey.move] using .numberKey s.1 (s.2.text.symm ▸ h₂)

theorem computedKey_followed (F : Follows m on φ) (h₁ : l.Takes .lBracket l₁)
    (h₂ : Followed m on φ b .assignment l₁ e l₂) (h₃ : l₂.Takes .rBracket l') :
    Followed m on φ b .propertyKey l (.computed e) l' := by
  refine ((F.takes h₁ (by decide)).trans (h₂.trans (F.takes h₃ (by decide)))).imp (by simp)
    fun _ ⟨s₁, c₂, s₃⟩ => ⟨.inl s₁.2, fun _ => ?_⟩
  simpa only [Phrase.move, PropertyKey.move] using .computedKey s₁.1 (c₂.derives (.inl s₃.2)) s₃.1

/-! ### Statements -/

theorem empty_followed (F : Follows m on φ) (h₁ : l.Takes .semicolon l') :
    Followed m on φ b .statement l (.empty (l.upTo l')) l' := by
  refine (F.takes h₁ (by decide)).imp (by simp) fun i' s => ⟨.inl s.2, fun _ => ?_⟩
  simpa only [Phrase.move, Stmt.move, F.upTo s.2 i'] using .empty s.1

theorem blockStatement_followed {body} (F : Follows m on φ) (h₁ : Followed m on φ b .block l body l') :
    Followed m on φ b .statement l (.block (l.upTo l') body) l' := by
  refine h₁.imp (by simp) fun i' c => ⟨.inl (c.like rfl), fun hs => ?_⟩
  have hl' := hs.like fun _ => id
  simpa only [Phrase.move, Stmt.move, F.upTo (c.like rfl) i'] using .blockStatement (c.derives (.inl hl'))

theorem functionStatement_followed {f} (F : Follows m on φ) (h₁ : l.Takes (.keyword .function) l₁)
    (h₂ : l₁.Takes .identifier l₂) (h₃ : Followed m on φ b .signature l₂ f l') :
    Followed m on φ b .statement l (.function (l.upTo l') l₁.hand.text f.1 f.2) l' := by
  refine ((F.takes h₁ (by decide)).trans ((F.takes h₂ (by decide)).trans h₃)).imp (by simp)
    fun i' ⟨s₁, s₂, c₃⟩ => ⟨.inl s₁.2, fun hs => ?_⟩
  have hl' := hs.like fun _ => id
  simpa only [Phrase.move, Stmt.move, F.upTo s₁.2 i', ← s₂.2.text]
    using .functionStatement s₁.1 s₂.1 (c₃.derives (.inl hl'))

theorem choose_followed {yes no} (F : Follows m on φ) (h₁ : l.Takes (.keyword .if) l₁)
    (h₂ : Followed m on φ b .condition l₁ e l₂) (h₃ : Followed m on φ b .statement l₂ yes l₃)
    (h₄ : Followed m on φ b .alternative l₃ no l') :
    Followed m on φ b .statement l (.choose (l.upTo l') e yes no) l' := by
  refine ((F.takes h₁ (by decide)).trans (h₂.trans (h₃.trans h₄))).imp (by simp)
    fun i' ⟨s₁, c₂, c₃, c₄⟩ => ⟨.inl s₁.2, fun hs => ?_⟩
  have hl' := hs.like fun _ => id
  simpa only [Phrase.move, Stmt.move, F.upTo s₁.2 i']
    using .choose s₁.1 (c₂.derives (.inl (c₃.like rfl))) (c₃.derives (.inl (c₄.like_of_like hl')))
      (c₄.derives (.inl hl'))

theorem whileLoop_followed {body} (F : Follows m on φ) (h₁ : l.Takes (.keyword .while) l₁)
    (h₂ : Followed m on φ b .condition l₁ e l₂) (h₃ : Followed m on φ b .statement l₂ body l') :
    Followed m on φ b .statement l (.whileLoop (l.upTo l') e body) l' := by
  refine ((F.takes h₁ (by decide)).trans (h₂.trans h₃)).imp (by simp) fun i' ⟨s₁, c₂, c₃⟩ => ⟨.inl s₁.2, fun hs => ?_⟩
  have hl' := hs.like fun _ => id
  simpa only [Phrase.move, Stmt.move, F.upTo s₁.2 i']
    using .whileLoop s₁.1 (c₂.derives (.inl (c₃.like rfl))) (c₃.derives (.inl hl'))

theorem doLoop_followed {body u} (F : Follows m on φ) (h₁ : l.Takes (.keyword .do) l₁)
    (h₂ : Followed m on φ b .statement l₁ body l₂) (h₃ : l₂.Takes (.keyword .while) l₃)
    (h₄ : Followed m on φ b .condition l₃ e l₄) (h₅ : Followed m on φ b .whileEnd l₄ u l') :
    Followed m on φ b .statement l (.doLoop (l.upTo l') body e) l' := by
  refine ((F.takes h₁ (by decide)).trans (h₂.trans ((F.takes h₃ (by decide)).trans (h₄.trans h₅)))).imp (by simp)
    fun i' ⟨s₁, c₂, s₃, c₄, c₅⟩ => ⟨.inl s₁.2, fun hs => ?_⟩
  have hl' := hs.like fun _ => id
  simpa only [Phrase.move, Stmt.move, F.upTo s₁.2 i']
    using .doLoop s₁.1 (c₂.derives (.inl s₃.2)) s₃.1 (c₄.derives (.inl (c₅.like_of_like hl'))) (c₅.derives (.inl hl'))

theorem forLoop_followed {init test step body} (F : Follows m on φ) (h₁ : l.Takes (.keyword .for) l₁)
    (h₂ : l₁.Takes .lParen l₂) (h₃ : Followed m on φ b .forInit l₂ init l₃) (h₄ : l₃.Takes .semicolon l₄)
    (h₅ : Followed m on φ b (.expressionUnless .semicolon) l₄ test l₅) (h₆ : l₅.Takes .semicolon l₆)
    (h₇ : Followed m on φ b (.expressionUnless .rParen) l₆ step l₇) (h₈ : l₇.Takes .rParen l₈)
    (h₉ : Followed m on φ b .statement l₈ body l') :
    Followed m on φ b .statement l (.forLoop (l.upTo l') init test step body) l' := by
  refine ((F.takes h₁ (by decide)).trans ((F.takes h₂ (by decide)).trans (h₃.trans ((F.takes h₄ (by decide)).trans
    (h₅.trans ((F.takes h₆ (by decide)).trans (h₇.trans ((F.takes h₈ (by decide)).trans h₉)))))))).imp (by simp)
    fun i' ⟨s₁, s₂, c₃, s₄, c₅, s₆, c₇, s₈, c₉⟩ => ⟨.inl s₁.2, fun hs => ?_⟩
  have hl' := hs.like fun _ => id
  simpa only [Phrase.move, Stmt.move, F.upTo s₁.2 i']
    using .forLoop s₁.1 s₂.1 (c₃.derives (.inl s₄.2)) s₄.1 (c₅.derives (.inl s₆.2)) s₆.1 (c₇.derives (.inl s₈.2)) s₈.1
      (c₉.derives (.inl hl'))

theorem returns_followed {value u} (F : Follows m on φ) (h₁ : l.Takes (.keyword .return) l₁)
    (h₂ : Followed m on φ true .returned l₁ value l₂) (h₃ : Followed m on φ true .ending l₂ u l') :
    Followed m on φ true .statement l (.returns (l.upTo l') value) l' := by
  refine ((F.takes h₁ (by decide)).trans (h₂.trans h₃)).imp (by simp) fun i' ⟨s₁, c₂, c₃⟩ => ⟨.inl s₁.2, fun hs => ?_⟩
  have hl' := hs.like fun _ => id
  simpa only [Phrase.move, Stmt.move, F.upTo s₁.2 i']
    using .returns s₁.1 (c₂.derives (.inl (c₃.like_of_like hl'))) (c₃.derives (.inl hl'))

theorem breaks_followed {label u} (F : Follows m on φ) (h₁ : l.Takes (.keyword .break) l₁)
    (h₂ : Followed m on φ b .jumpLabel l₁ label l₂) (h₃ : Followed m on φ b .ending l₂ u l') :
    Followed m on φ b .statement l (.breaks (l.upTo l') label) l' := by
  refine ((F.takes h₁ (by decide)).trans (h₂.trans h₃)).imp (by simp) fun i' ⟨s₁, c₂, c₃⟩ => ⟨.inl s₁.2, fun hs => ?_⟩
  have hl' := hs.like fun _ => id
  simpa only [Phrase.move, Stmt.move, F.upTo s₁.2 i']
    using .breaks s₁.1 (c₂.derives (.inl (c₃.like_of_like hl'))) (c₃.derives (.inl hl'))

theorem continues_followed {label u} (F : Follows m on φ) (h₁ : l.Takes (.keyword .continue) l₁)
    (h₂ : Followed m on φ b .jumpLabel l₁ label l₂) (h₃ : Followed m on φ b .ending l₂ u l') :
    Followed m on φ b .statement l (.continues (l.upTo l') label) l' := by
  refine ((F.takes h₁ (by decide)).trans (h₂.trans h₃)).imp (by simp) fun i' ⟨s₁, c₂, c₃⟩ => ⟨.inl s₁.2, fun hs => ?_⟩
  have hl' := hs.like fun _ => id
  simpa only [Phrase.move, Stmt.move, F.upTo s₁.2 i']
    using .continues s₁.1 (c₂.derives (.inl (c₃.like_of_like hl'))) (c₃.derives (.inl hl'))

theorem throws_followed {u} (F : Follows m on φ) (h₁ : l.Takes (.keyword .throw) l₁)
    (h₂ : l₁.hand.newlineBefore = false) (h₃ : Followed m on φ b .expression l₁ e l₂)
    (h₄ : Followed m on φ b .ending l₂ u l') :
    Followed m on φ b .statement l (.throws (l.upTo l') e) l' := by
  refine ((F.takes h₁ (by decide)).trans (h₃.trans h₄)).imp (by simp) fun i' ⟨s₁, c₃, c₄⟩ => ⟨.inl s₁.2, fun hs => ?_⟩
  have hl' := hs.like fun _ => id
  simpa only [Phrase.move, Stmt.move, F.upTo s₁.2 i']
    using .throws s₁.1 ((c₃.like rfl).newline.symm ▸ h₂) (c₃.derives (.inl (c₄.like_of_like hl')))
      (c₄.derives (.inl hl'))

theorem declare_followed {kind items u} (F : Follows m on φ) (h₁ : l.Steps l₁)
    (h₂ : declKind? l.hand.kind = some kind) (h₃ : Followed m on φ b (.declarators kind) l₁ items l₂)
    (h₄ : Followed m on φ b .ending l₂ u l') :
    Followed m on φ b .statement l (.declare (l.upTo l') kind items) l' := by
  refine ((F.steps_of_ne h₁ (ne_regex h₂ rfl)).trans (h₃.trans h₄)).imp (by simp)
    fun i' ⟨s₁, c₃, c₄⟩ => ⟨.inl s₁.2, fun hs => ?_⟩
  have hl' := hs.like fun _ => id
  simpa only [Phrase.move, Stmt.move, F.upTo s₁.2 i']
    using .declare s₁.1 (s₁.2.kind.symm ▸ h₂) (c₃.derives (.inl (c₄.like_of_like hl'))) (c₄.derives (.inl hl'))

theorem labeled_followed {span name body} (F : Follows m on φ) (h₁ : opensStatement l.hand.kind = false)
    (h₂ : Followed m on φ b .expression l (.identifier span name) l₁) (h₃ : l₁.Takes .colon l₂)
    (h₄ : Followed m on φ b .statement l₂ body l') :
    Followed m on φ b .statement l (.labeled (l.upTo l') name body) l' := by
  refine (h₂.trans ((F.takes h₃ (by decide)).trans h₄)).imp (by simp)
    fun i' ⟨c₂, s₃, c₄⟩ => ⟨.inl (c₂.like rfl), fun hs => ?_⟩
  have hl' := hs.like fun _ => id
  simpa only [Phrase.move, Stmt.move, F.upTo (c₂.like rfl) i']
    using .labeled ((c₂.like rfl).kind.symm ▸ h₁) (c₂.derives (.inl s₃.2)) s₃.1 (c₄.derives (.inl hl'))

theorem expressionStatement_followed {u} (F : Follows m on φ) (h₁ : opensStatement l.hand.kind = false)
    (h₂ : Followed m on φ b .expression l e l₁) (h₃ : (isIdentifier e && l₁.hand.kind == .colon) = false)
    (h₄ : Followed m on φ b .ending l₁ u l') :
    Followed m on φ b .statement l (.expression (l.upTo l') e) l' := by
  refine (h₂.trans h₄).imp (by simp) fun i' ⟨c₂, c₄⟩ => ⟨.inl (c₂.like rfl), fun hs => ?_⟩
  have hl' := hs.like fun _ => id
  have hl₁ := c₄.like_of_like hl'
  simpa only [Phrase.move, Stmt.move, F.upTo (c₂.like rfl) i']
    using .expressionStatement ((c₂.like rfl).kind.symm ▸ h₁) (c₂.derives (.inl hl₁))
      (by rw [isIdentifier_move, hl₁.kind]; exact h₃) (c₄.derives (.inl hl'))

/-! ### Parts of statements -/

theorem semicolon_followed (F : Follows m on φ) (h₁ : l.Takes .semicolon l') :
    Followed m on φ b .ending l () l' := by
  refine (F.takes h₁ (by decide)).imp (by simp) fun _ s => ⟨.inl s.2, fun _ => ?_⟩
  simpa only [Phrase.move] using .semicolon s.1

theorem lineEnd_followed (h₁ : l.hand.kind ≠ .semicolon) (h₂ : endsStatement l.hand = true) :
    Followed m on φ b .ending l () l := by
  refine .of_none rfl rfl fun hs => ?_
  have hl := hs.like fun _ => id
  simpa only [Phrase.move] using .lineEnd (hl.kind.symm ▸ h₁) (hl.endsStatement.trans h₂)

theorem whileSemicolon_followed (F : Follows m on φ) (h₁ : l.Takes .semicolon l') :
    Followed m on φ b .whileEnd l () l' := by
  refine (F.takes h₁ (by decide)).imp (by simp) fun _ s => ⟨.inl s.2, fun _ => ?_⟩
  simpa only [Phrase.move] using .whileSemicolon s.1

theorem whileEnd_followed (h₁ : l.hand.kind ≠ .semicolon) :
    Followed m on φ b .whileEnd l () l := by
  refine .of_none rfl rfl fun hs => ?_
  simpa only [Phrase.move] using .whileEnd ((hs.like fun _ => id).kind.symm ▸ h₁)

theorem block_followed {body} (F : Follows m on φ) (h₁ : l.Takes .lBrace l₁)
    (h₂ : Followed m on φ b .blockRest l₁ body l') :
    Followed m on φ b .block l body l' := by
  refine ((F.takes h₁ (by decide)).trans h₂).imp (by simp) fun _ ⟨s₁, c₂⟩ => ⟨.inl s₁.2, fun hs => ?_⟩
  simpa only [Phrase.move] using .block s₁.1 (c₂.derives (hs.imp fun _ _ => trivial))

theorem blockEnd_followed (F : Follows m on φ) (h₁ : l.Takes .rBrace l') :
    Followed m on φ b .blockRest l [] l' := by
  refine (F.takes h₁ (by decide)).imp (by simp) fun _ s => ⟨.inl s.2, fun _ => ?_⟩
  simpa only [Phrase.move, moveBody] using .blockEnd s.1

theorem blockItem_followed {first rest} (h₁ : l.hand.kind ≠ .rBrace) (h₂ : l.hand.kind ≠ .eof)
    (h₃ : Followed m on φ b .statement l first l₁) (h₄ : Followed m on φ b .blockRest l₁ rest l') :
    Followed m on φ b .blockRest l (first :: rest) l' := by
  refine (h₃.trans h₄).imp (by simp) fun _ ⟨c₃, c₄⟩ => ⟨.inl (c₃.like rfl), fun hs => ?_⟩
  simpa only [Phrase.move, moveBody]
    using .blockItem ((c₃.like rfl).kind.symm ▸ h₁) ((c₃.like rfl).kind.symm ▸ h₂) (c₃.derives (.inl (c₄.like rfl)))
      (c₄.derives hs)

theorem lastDeclarator_followed {kind init} (F : Follows m on φ) (h₁ : l.Takes .identifier l₁)
    (h₂ : Followed m on φ b (.initializer kind) l₁ init l') (h₃ : l'.hand.kind ≠ .comma) :
    Followed m on φ b (.declarators kind) l [.mk l.hand.text init] l' := by
  refine ((F.takes h₁ (by decide)).trans h₂).imp (by simp) fun _ ⟨s₁, c₂⟩ => ⟨.inl s₁.2, fun hs => ?_⟩
  have hn : (φ l').hand.kind ≠ .comma := hs.kind (C := (· ≠ .comma)) (fun _ he => he.2) h₃
  simpa only [Phrase.move, moveDeclarators, Declarator.move, ← s₁.2.text]
    using .lastDeclarator s₁.1 (c₂.derives (hs.imp fun _ he => he.1)) hn

theorem declarator_followed {kind init rest} (F : Follows m on φ) (h₁ : l.Takes .identifier l₁)
    (h₂ : Followed m on φ b (.initializer kind) l₁ init l₂) (h₃ : l₂.Takes .comma l₃)
    (h₄ : Followed m on φ b (.declarators kind) l₃ rest l') :
    Followed m on φ b (.declarators kind) l (.mk l.hand.text init :: rest) l' := by
  refine ((F.takes h₁ (by decide)).trans (h₂.trans ((F.takes h₃ (by decide)).trans h₄))).imp (by simp)
    fun _ ⟨s₁, c₂, s₃, c₄⟩ => ⟨.inl s₁.2, fun hs => ?_⟩
  simpa only [Phrase.move, moveDeclarators, Declarator.move, ← s₁.2.text]
    using .declarator s₁.1 (c₂.derives (.inl s₃.2)) s₃.1 (c₄.derives hs)

theorem initializer_followed {kind} (F : Follows m on φ) (h₁ : l.Takes .assign l₁)
    (h₂ : Followed m on φ b .assignment l₁ e l') :
    Followed m on φ b (.initializer kind) l (some e) l' := by
  refine ((F.takes h₁ (by decide)).trans h₂).imp (by simp) fun _ ⟨s₁, c₂⟩ => ⟨.inl s₁.2, fun hs => ?_⟩
  simpa only [Phrase.move, moveValue] using .initializer s₁.1 (c₂.derives (hs.imp fun _ => id))

theorem noInitializer_followed {kind} (h₁ : l.hand.kind ≠ .assign) (h₂ : kind ≠ .const) :
    Followed m on φ b (.initializer kind) l none l := by
  refine .of_none rfl rfl fun hs => ?_
  have hn : (φ l).hand.kind ≠ .assign := by
    refine hs.kind (C := (· ≠ .assign)) (fun t he hk => ?_) h₁
    have ha : isAssign t.kind = false := he.2.2
    rw [hk] at ha
    cases ha
  simpa only [Phrase.move, moveValue] using .noInitializer hn h₂

theorem alternative_followed {no} (F : Follows m on φ) (h₁ : l.Takes (.keyword .else) l₁)
    (h₂ : Followed m on φ b .statement l₁ no l') :
    Followed m on φ b .alternative l (some no) l' := by
  refine ((F.takes h₁ (by decide)).trans h₂).imp (by simp) fun _ ⟨s₁, c₂⟩ => ⟨.inl s₁.2, fun hs => ?_⟩
  have hl' := hs.like fun _ => id
  simpa only [Phrase.move, moveBranch] using .alternative s₁.1 (c₂.derives (.inl hl'))

theorem noAlternative_followed (h₁ : l.hand.kind ≠ .keyword .else) :
    Followed m on φ b .alternative l none l := by
  refine .of_none rfl rfl fun hs => ?_
  simpa only [Phrase.move, moveBranch] using .noAlternative ((hs.like fun _ => id).kind.symm ▸ h₁)

theorem condition_followed (F : Follows m on φ) (h₁ : l.Takes .lParen l₁) (h₂ : Followed m on φ b .expression l₁ e l₂)
    (h₃ : l₂.Takes .rParen l') :
    Followed m on φ b .condition l e l' := by
  refine ((F.takes h₁ (by decide)).trans (h₂.trans (F.takes h₃ (by decide)))).imp (by simp)
    fun _ ⟨s₁, c₂, s₃⟩ => ⟨.inl s₁.2, fun _ => ?_⟩
  simpa only [Phrase.move] using .condition s₁.1 (c₂.derives (.inl s₃.2)) s₃.1

theorem noInit_followed (h₁ : l.hand.kind = .semicolon) :
    Followed m on φ b .forInit l none l := by
  refine .of_none rfl rfl fun hs => ?_
  simpa only [Phrase.move, moveBranch] using .noInit ((hs.like fun _ => id).kind.symm ▸ h₁)

theorem declareInit_followed {kind items} (F : Follows m on φ) (h₁ : l.Steps l₁)
    (h₂ : declKind? l.hand.kind = some kind) (h₃ : Followed m on φ b (.declarators kind) l₁ items l') :
    Followed m on φ b .forInit l (some (.declare (l.upTo l') kind items)) l' := by
  refine ((F.steps_of_ne h₁ (ne_regex h₂ rfl)).trans h₃).imp (by simp) fun i' ⟨s₁, c₃⟩ => ⟨.inl s₁.2, fun hs => ?_⟩
  have hl' := hs.like fun _ => id
  simpa only [Phrase.move, moveBranch, Stmt.move, F.upTo s₁.2 i']
    using .declareInit s₁.1 (s₁.2.kind.symm ▸ h₂) (c₃.derives (.inl hl'))

theorem expressionInit_followed (F : Follows m on φ) (h₁ : l.hand.kind ≠ .semicolon)
    (h₂ : declKind? l.hand.kind = none) (h₃ : Followed m on φ b .expression l e l') :
    Followed m on φ b .forInit l (some (.expression (l.upTo l') e)) l' := by
  refine h₃.imp (by simp) fun i' c => ⟨.inl (c.like rfl), fun hs => ?_⟩
  have hl' := hs.like fun _ => id
  simpa only [Phrase.move, moveBranch, Stmt.move, F.upTo (c.like rfl) i']
    using .expressionInit ((c.like rfl).kind.symm ▸ h₁) ((c.like rfl).kind.symm ▸ h₂) (c.derives (.inl hl'))

theorem noExpression_followed {k} (h₁ : l.hand.kind = k) :
    Followed m on φ b (.expressionUnless k) l none l := by
  refine .of_none rfl rfl fun hs => ?_
  simpa only [Phrase.move, moveValue] using .noExpression ((hs.like fun _ => id).kind.symm ▸ h₁)

theorem someExpression_followed {k} (h₁ : l.hand.kind ≠ k) (h₂ : Followed m on φ b .expression l e l') :
    Followed m on φ b (.expressionUnless k) l (some e) l' := by
  refine h₂.imp (by simp) fun _ c => ⟨.inl (c.like rfl), fun hs => ?_⟩
  have hl' := hs.like fun _ => id
  simpa only [Phrase.move, moveValue] using .someExpression ((c.like rfl).kind.symm ▸ h₁) (c.derives (.inl hl'))

theorem nothingReturned_followed (h₁ : endsStatement l.hand = true) :
    Followed m on φ b .returned l none l := by
  refine .of_none rfl rfl fun hs => ?_
  have he : endsStatement (φ l).hand = true := by
    rcases hs with hl | he
    · exact hl.endsStatement.trans h₁
    · exact he.2
  simpa only [Phrase.move, moveValue] using .nothingReturned he

theorem returned_followed (h₁ : endsStatement l.hand = false) (h₂ : Followed m on φ b .expression l e l') :
    Followed m on φ b .returned l (some e) l' := by
  refine h₂.imp (by simp) fun _ c => ⟨.inl (c.like rfl), fun hs => ?_⟩
  simpa only [Phrase.move, moveValue]
    using .returned ((c.like rfl).endsStatement.trans h₁) (c.derives (hs.imp fun _ he => he.1))

theorem label_followed (F : Follows m on φ) (h₁ : l.Takes .identifier l') (h₂ : l.hand.newlineBefore = false) :
    Followed m on φ b .jumpLabel l (some l.hand.text) l' := by
  refine (F.takes h₁ (by decide)).imp (by simp) fun _ s => ⟨.inl s.2, fun _ => ?_⟩
  simpa only [Phrase.move, ← s.2.text] using .label s.1 (s.2.newline.symm ▸ h₂)

theorem noLabel_followed (h₁ : ¬ (l.hand.kind = .identifier ∧ l.hand.newlineBefore = false)) :
    Followed m on φ b .jumpLabel l none l := by
  refine .of_none rfl rfl fun hs => ?_
  have hn : ¬ ((φ l).hand.kind = .identifier ∧ (φ l).hand.newlineBefore = false) := by
    rcases hs with hl | he
    · rwa [hl.kind, hl.newline]
    · exact fun h => he h.1
  simpa only [Phrase.move] using .noLabel hn

end

variable {m : Move} {on : List Token → Lexer → Prop} {inside : Lexer → Prop} {φ : Lexer → Lexer} {b : Bool} {p : Phrase}
  {l l' : Lexer}

/-- **A phrase is followed into another text**, where the tokens that it is made of are taken there. -/
theorem Derives.followed {a : p.Result} (F : Follows m on φ) (h : Derives b p l a l') : Followed m on φ b p l a l' := by
  induction h with
  | number h₁ h₂ => exact number_followed F h₁ h₂
  | text h₁ => exact text_followed F h₁
  | word h₁ h₂ => exact word_followed F h₁ h₂
  | regex h₁ => exact regex_followed F h₁
  | slash h₁ => exact slash_followed F h₁
  | identifier h₁ => exact identifier_followed F h₁
  | this h₁ => exact this_followed F h₁
  | function h₁ _ _ c₂ c₃ => exact function_followed F h₁ c₂ c₃
  | group h₁ _ h₃ c₂ => exact group_followed F h₁ c₂ h₃
  | array h₁ _ c₂ => exact array_followed F h₁ c₂
  | object h₁ _ c₂ => exact object_followed F h₁ c₂
  | named h₁ => exact named_followed F h₁
  | nameless h₁ => exact nameless_followed h₁
  | noParams h₁ => exact noParams_followed h₁
  | someParams h₁ _ c₂ => exact someParams_followed h₁ c₂
  | lastParam h₁ h₂ => exact lastParam_followed F h₁ h₂
  | param h₁ h₂ _ c₃ => exact param_followed F h₁ h₂ c₃
  | signature h₁ _ h₃ _ c₂ c₄ => exact signature_followed F h₁ c₂ h₃ c₄
  | primaryChain h₁ _ c₂ => exact primaryChain_followed h₁ c₂
  | constructChain h₁ _ c₂ => exact constructChain_followed h₁ c₂
  | field _ h₂ h₃ h₄ c₁ => exact field_followed F c₁ h₂ h₃ h₄
  | index _ h₂ _ h₄ c₁ c₃ => exact index_followed F c₁ h₂ c₃ h₄
  | call _ h₂ _ c₁ c₃ => exact call_followed F c₁ h₂ c₃
  | member _ h₂ c₁ => exact member_followed c₁ h₂
  | construct h₁ _ _ c₂ c₃ => exact construct_followed F h₁ c₂ c₃
  | newArguments h₁ _ c₂ => exact newArguments_followed F h₁ c₂
  | noArguments h₁ => exact noArguments_followed h₁
  | noUpdate _ h₂ c₁ => exact noUpdate_followed c₁ h₂
  | update _ h₂ h₃ c₁ => exact update_followed F c₁ h₂ h₃
  | noPrefix h₁ h₂ _ c₃ => exact noPrefix_followed h₁ h₂ c₃
  | unary h₁ h₂ _ c₃ => exact unary_followed F h₁ h₂ c₃
  | updateFirst h₁ h₂ h₃ _ c₄ => exact updateFirst_followed F h₁ h₂ h₃ c₄
  | operators _ c₁ => exact operators_followed c₁
  | operator _ h₂ h₃ _ c₁ c₄ => exact operator_followed F c₁ h₂ h₃ c₄
  | binary _ h₂ c₁ => exact binary_followed c₁ h₂
  | noChoice _ h₂ c₁ => exact noChoice_followed c₁ h₂
  | choice _ h₂ _ h₄ _ c₁ c₃ c₅ => exact choice_followed F c₁ h₂ c₃ h₄ c₅
  | noAssign _ h₂ c₁ => exact noAssign_followed c₁ h₂
  | assign _ h₂ h₃ h₄ _ c₁ c₅ => exact assign_followed F c₁ h₂ h₃ h₄ c₅
  | single _ h₂ c₁ => exact single_followed c₁ h₂
  | sequence _ h₂ h₃ c₁ c₃ => exact sequence_followed F c₁ h₂ (opens_of_itemsRest h₃ h₂) c₃
  | noItem h₁ => exact noItem_followed h₁
  | item h₁ _ _ c₂ c₃ => exact item_followed F h₁ c₂ c₃
  | argumentsEnd h₁ => exact argumentsEnd_followed F h₁
  | lastArgument h₁ _ h₃ c₂ => exact lastArgument_followed F h₁ c₂ h₃
  | argument h₁ _ h₃ _ c₂ c₄ => exact argument_followed F h₁ c₂ h₃ c₄
  | elementsEnd h₁ => exact elementsEnd_followed F h₁
  | hole h₁ _ c₂ => exact hole_followed F h₁ c₂
  | lastElement h₁ h₂ _ h₄ c₃ => exact lastElement_followed F h₁ h₂ c₃ h₄
  | element h₁ h₂ _ h₄ _ c₃ c₅ => exact element_followed F h₁ h₂ c₃ h₄ c₅
  | propertiesEnd h₁ => exact propertiesEnd_followed F h₁
  | lastProperty h₁ _ h₃ c₂ => exact lastProperty_followed F h₁ c₂ h₃
  | moreProperties h₁ _ h₃ _ c₂ c₄ => exact moreProperties_followed F h₁ c₂ h₃ c₄
  | shorthand h₁ h₂ => exact shorthand_followed F h₁ h₂
  | pair _ h₂ _ c₁ c₃ => exact pair_followed F c₁ h₂ c₃
  | nameKey h₁ h₂ => exact nameKey_followed F h₁ h₂
  | textKey h₁ => exact textKey_followed F h₁
  | numberKey h₁ h₂ => exact numberKey_followed F h₁ h₂
  | computedKey h₁ _ h₃ c₂ => exact computedKey_followed F h₁ c₂ h₃
  | empty h₁ => exact empty_followed F h₁
  | blockStatement _ c₁ => exact blockStatement_followed F c₁
  | functionStatement h₁ h₂ _ c₃ => exact functionStatement_followed F h₁ h₂ c₃
  | choose h₁ _ _ _ c₂ c₃ c₄ => exact choose_followed F h₁ c₂ c₃ c₄
  | whileLoop h₁ _ _ c₂ c₃ => exact whileLoop_followed F h₁ c₂ c₃
  | doLoop h₁ _ h₃ _ _ c₂ c₄ c₅ => exact doLoop_followed F h₁ c₂ h₃ c₄ c₅
  | forLoop h₁ h₂ _ h₄ _ h₆ _ h₈ _ c₃ c₅ c₇ c₉ => exact forLoop_followed F h₁ h₂ c₃ h₄ c₅ h₆ c₇ h₈ c₉
  | returns h₁ _ _ c₂ c₃ => exact returns_followed F h₁ c₂ c₃
  | breaks h₁ _ _ c₂ c₃ => exact breaks_followed F h₁ c₂ c₃
  | continues h₁ _ _ c₂ c₃ => exact continues_followed F h₁ c₂ c₃
  | throws h₁ h₂ _ _ c₃ c₄ => exact throws_followed F h₁ h₂ c₃ c₄
  | declare h₁ h₂ _ _ c₃ c₄ => exact declare_followed F h₁ h₂ c₃ c₄
  | labeled h₁ _ h₃ _ c₂ c₄ => exact labeled_followed F h₁ c₂ h₃ c₄
  | expressionStatement h₁ _ h₃ _ c₂ c₄ => exact expressionStatement_followed F h₁ c₂ h₃ c₄
  | semicolon h₁ => exact semicolon_followed F h₁
  | lineEnd h₁ h₂ => exact lineEnd_followed h₁ h₂
  | whileSemicolon h₁ => exact whileSemicolon_followed F h₁
  | whileEnd h₁ => exact whileEnd_followed h₁
  | block h₁ _ c₂ => exact block_followed F h₁ c₂
  | blockEnd h₁ => exact blockEnd_followed F h₁
  | blockItem h₁ h₂ _ _ c₃ c₄ => exact blockItem_followed h₁ h₂ c₃ c₄
  | lastDeclarator h₁ _ h₃ c₂ => exact lastDeclarator_followed F h₁ c₂ h₃
  | declarator h₁ _ h₃ _ c₂ c₄ => exact declarator_followed F h₁ c₂ h₃ c₄
  | initializer h₁ _ c₂ => exact initializer_followed F h₁ c₂
  | noInitializer h₁ h₂ => exact noInitializer_followed h₁ h₂
  | alternative h₁ _ c₂ => exact alternative_followed F h₁ c₂
  | noAlternative h₁ => exact noAlternative_followed h₁
  | condition h₁ _ h₃ c₂ => exact condition_followed F h₁ c₂ h₃
  | noInit h₁ => exact noInit_followed h₁
  | declareInit h₁ h₂ _ c₃ => exact declareInit_followed F h₁ h₂ c₃
  | expressionInit h₁ h₂ _ c₃ => exact expressionInit_followed F h₁ h₂ c₃
  | noExpression h₁ => exact noExpression_followed h₁
  | someExpression h₁ _ c₂ => exact someExpression_followed h₁ c₂
  | nothingReturned h₁ => exact nothingReturned_followed h₁
  | returned h₁ _ c₂ => exact returned_followed h₁ c₂
  | label h₁ h₂ => exact label_followed F h₁ h₂
  | noLabel h₁ => exact noLabel_followed h₁

/-- **A phrase of one text is a phrase of another** that has the same tokens, if what is in hand behind it there may stand
behind it; its tree is the same apart from the spans. -/
theorem Derives.moved {a : p.Result} (T : Transport m inside φ) (h : Derives b p l a l') (hs : Stands m inside φ p l') :
    Derives b p (φ l) (p.move m a) (φ l') := by
  obtain ⟨ts, hp, -, hq⟩ := h.followed T.follows
  obtain ⟨-, hf⟩ := hq [] ⟨l', (List.append_nil ts).symm ▸ hp, hs.1⟩
  exact hf.derives hs.meets

/-- **A phrase is one of the other text too**, where the tokens that it is made of are taken there; its tree is the same, but
the spans are moved.  The regular expressions among the tokens are those of the tree. -/
theorem Derives.way {a : p.Result} (h : Derives b p l a l') (C : Copy m on φ) :
    Way on l l' ((p.nodes a).flatMap Node.regexes) (Derives b p (φ l) (p.move m a) (φ l')) :=
  (h.followed C.follows).imp rfl fun ⟨_, i'⟩ hf => hf.derives (.inl (C.hand i'))

/-- **Statements are those of the other text too.** -/
theorem DerivesAll.way {body : List Stmt} (h : DerivesAll l body l') (C : Copy m on φ) :
    Way on l l' ((body.map Node.stmt).flatMap Node.regexes) (DerivesAll (φ l) (moveBody m body) (φ l')) := by
  induction h with
  | done hk =>
    refine C.here.imp (by simp) fun _ s => ?_
    simpa only [moveBody] using .done (s.kind.trans hk)
  | more hk h₁ _ ih =>
    refine (C.here.trans ((h₁.way C).trans ih)).imp (by simp) fun _ ⟨s, q₁, q₂⟩ => ?_
    simpa only [moveBody] using .more (s.kind.symm ▸ hk) q₁ q₂

theorem DerivesAll.eof {body : List Stmt} (h : DerivesAll l body l') : l'.hand.kind = .eof := by
  induction h with
  | done hk => exact hk
  | more _ _ _ ih => exact ih

/-- Every text is a copy of itself. -/
theorem Copy.stay : Copy .stay (fun _ l => l.Ready) id where
  hand _ := ⟨rfl, rfl, rfl, rfl⟩
  stop _ := rfl
  steps _ h := ⟨h.ready', h⟩
  again _ h := ⟨h.ready', _, h, rfl⟩

theorem DerivesAll.goes {body : List Stmt} (h : DerivesAll l body l') : l.Goes l' := by
  obtain ⟨ts, hp, -, -⟩ := h.way Copy.stay
  exact hp.goes

end Readback.Grammar
