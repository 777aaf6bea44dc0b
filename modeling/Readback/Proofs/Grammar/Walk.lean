import Readback.Proofs.Grammar.Copy
import Readback.Proofs.Grammar.Start
/-!
# From a phrase to the nodes of its tree

A phrase is a row of tokens and of nodes, and so is each of these nodes.  What is known of a row without nodes, of rows put one
behind the other, and of a node whose parts are such a row, is known of every phrase.
-/
namespace Readback.Grammar

open Token (Kind)

/-! ## Where a node is read -/

/-- The tree of a phrase, where it is one node that extends over the whole phrase. -/
@[simp] def Phrase.node? : (p : Phrase) → p.Result → Option Node
  | .expression, a | .assignment, a | .conditional, a | .binary _, a | .operators _, a | .unary, a | .update, a
  | .member _, a | .chain _, a | .construct, a | .primary, a => some (.expr a)
  | .statement, a => some (.stmt a)
  | .forInit, a => a.map .stmt
  | .property, a => some (.property a)
  | _, _ => none

/-- The node is the tree of a phrase from one place to the other. -/
def NodeAt (l : Lexer) (x : Node) (l' : Lexer) : Prop := ∃ b p a, Derives b p l a l' ∧ p.node? a = some x

/-- A phrase whose tree is a function is one of its own. -/
def Definition (b : Bool) : (p : Phrase) → Lexer → p.Result → Lexer → Prop
  | .expression, l, e, l' | .assignment, l, e, l' | .conditional, l, e, l' | .binary _, l, e, l' | .operators _, l, e, l'
  | .unary, l, e, l' | .update, l, e, l' | .member _, l, e, l' | .chain _, l, e, l' | .construct, l, e, l'
  | .primary, l, e, l' => ∀ s name params body, e = .function s name params body → Derives b .primary l e l'
  | _, _, _, _ => True

section

variable {b : Bool} {p : Phrase} {l l' : Lexer} {x : Node}

theorem Derives.definition {a : p.Result} (h : Derives b p l a l') : Definition b p l a l' := by
  induction h with
  | function h₁ h₂ h₃ => exact fun _ _ _ _ _ => .function h₁ h₂ h₃
  -- the phrases that are another one with nothing behind it
  | primaryChain _ _ c | constructChain _ _ c | member _ _ c | noUpdate _ _ c | noPrefix _ _ _ c | operators _ c
  | binary _ _ c | noChoice _ _ c | noAssign _ _ c | single _ _ c => exact c
  | _ => first | exact True.intro | exact fun _ _ _ _ he => nomatch he

theorem NodeAt.span (h : NodeAt l x l') : x.span = l.upTo l' := by
  obtain ⟨b, p, a, h, hx⟩ := h
  have hs := h.spanned
  cases p <;> simp only [Phrase.node?, Option.some.injEq, reduceCtorEq] at hx <;> try (subst hx; exact hs)
  cases h with
  | noInit => cases hx
  | declareInit => cases hx; rfl
  | expressionInit => cases hx; rfl

theorem NodeAt.opens (h : NodeAt l x l') : Opens l l' := by
  obtain ⟨b, p, a, h, hx⟩ := h
  cases p with
  | forInit =>
    cases h with
    | noInit => cases hx
    | declareInit h₁ _ h₃ => exact (Opens.of_steps h₁).trans h₃.goes
    | expressionInit _ _ h => exact h.opens_of_least rfl
  | _ =>
    first
    | cases hx; done
    | exact h.opens_of_least rfl

/-- **A function of a tree is read as one.** -/
theorem NodeAt.function {s : Span} {name : Option String} {params : List String} {body : List Stmt}
    (h : NodeAt l (.expr (.function s name params body)) l') : ∃ b, Derives b .primary l (.function s name params body) l' := by
  obtain ⟨b, p, a, h, hx⟩ := h
  have hd := h.definition
  refine ⟨b, ?_⟩
  cases p <;> simp only [Phrase.node?, Option.some.injEq, reduceCtorEq, Option.map_eq_some_iff, and_false, exists_false,
    Node.expr.injEq] at hx <;> (subst hx; exact hd _ _ _ _ rfl)

end

/-! ## Rows -/

/-- **What goes on along a row** of tokens and nodes: it holds of a token, of two rows one behind the other, and of a node, where
it holds of the row of its parts. -/
structure Walk (R : Lexer → List Node → Lexer → Prop) : Prop where
  here   : ∀ {l}, R l [] l
  step   : ∀ {l l'}, l.Steps l' → R l [] l'
  reread : ∀ {l u l'}, l.Rereads u l' → R l [] l'
  trans  : ∀ {l xs l₁ ys l'}, R l xs l₁ → R l₁ ys l' → R l (xs ++ ys) l'
  node   : ∀ {l x l'}, NodeAt l x l' → R l x.children l' → R l [x] l'

variable {R : Lexer → List Node → Lexer → Prop} {b : Bool} {p : Phrase} {l l₁ l' : Lexer} {k : Kind} {x : Node}
  {xs : List Node}

namespace Walk

theorem takes (W : Walk R) (h : l.Takes k l') : R l [] l' := W.step h.toSteps

/-- Behind a token. -/
theorem behind (W : Walk R) (h : l.Takes k l₁) (h' : R l₁ xs l') : R l xs l' := W.trans (W.takes h) h'

/-- In front of what has no nodes. -/
theorem before (W : Walk R) (h : R l xs l₁) (h' : R l₁ [] l') : R l xs l' := by
  have := W.trans h h'
  rwa [List.append_nil] at this

/-- The node that a phrase is. -/
theorem whole {a : p.Result} (W : Walk R) (h : Derives b p l a l') (hx : p.node? a = some x) (hr : R l x.children l') :
    R l [x] l' := W.node ⟨b, p, a, h, hx⟩ hr

/-- A node that has no parts. -/
theorem leaf {a : p.Result} (W : Walk R) (h : Derives false p l a l') (hx : p.node? a = some x) (hc : x.children = [])
    (hr : R l [] l') : R l [x] l' := W.whole h hx (hc ▸ hr)

end Walk

/-- **A phrase is a row of tokens and nodes.** -/
theorem Derives.walk {a : p.Result} (h : Derives b p l a l') (W : Walk R) : R l (p.nodes a) l' := by
  induction h with
  -- primary expressions
  | number h₁ h₂ => exact W.leaf (.number h₁ h₂) rfl rfl (W.takes h₁)
  | text h₁ => exact W.leaf (.text h₁) rfl rfl (W.takes h₁)
  | word h₁ h₂ => exact W.leaf (.word h₁ h₂) rfl rfl (W.step h₁)
  | regex h₁ => exact W.leaf (.regex h₁) rfl rfl (W.takes h₁)
  | slash h₁ => exact W.leaf (.slash h₁) rfl rfl (W.reread h₁)
  | identifier h₁ => exact W.leaf (.identifier h₁) rfl rfl (W.takes h₁)
  | this h₁ => exact W.leaf (.this h₁) rfl rfl (W.takes h₁)
  | function h₁ h₂ h₃ c₂ c₃ => exact W.whole (.function h₁ h₂ h₃) rfl (W.behind h₁ (W.trans c₂ c₃))
  | group h₁ h₂ h₃ c₂ => exact W.whole (.group h₁ h₂ h₃) rfl (W.behind h₁ (W.before c₂ (W.takes h₃)))
  | array h₁ h₂ c₂ => exact W.whole (.array h₁ h₂) rfl (W.behind h₁ c₂)
  | object h₁ h₂ c₂ => exact W.whole (.object h₁ h₂) rfl (W.behind h₁ c₂)
  -- functions
  | named h₁ | lastParam h₁ _ => exact W.takes h₁
  | nameless | noParams => exact W.here
  | someParams _ _ c₂ => exact c₂
  | param h₁ h₂ _ c₃ => exact W.behind h₁ (W.behind h₂ c₃)
  | signature h₁ _ h₃ _ c₂ c₄ => exact W.behind h₁ (W.trans c₂ (W.behind h₃ c₄))
  -- members, calls and `new`
  | field h₁ h₂ h₃ h₄ c₁ => exact W.whole (.field h₁ h₂ h₃ h₄) rfl (W.before (W.before c₁ (W.takes h₂)) (W.step h₄))
  | index h₁ h₂ h₃ h₄ c₁ c₃ =>
    exact W.whole (.index h₁ h₂ h₃ h₄) rfl (W.trans c₁ (W.behind h₂ (W.before c₃ (W.takes h₄))))
  | call h₁ h₂ h₃ c₁ c₃ => exact W.whole (.call h₁ h₂ h₃) rfl (W.trans c₁ (W.behind h₂ c₃))
  | construct h₁ h₂ h₃ c₂ c₃ => exact W.whole (.construct h₁ h₂ h₃) rfl (W.behind h₁ (W.trans c₂ c₃))
  | newArguments h₁ _ c₂ => exact W.behind h₁ c₂
  | noArguments | noItem => exact W.here
  -- operators
  | update h₁ h₂ h₃ c₁ => exact W.whole (.update h₁ h₂ h₃) rfl (W.before c₁ (W.step h₂))
  | unary h₁ h₂ h₃ c₃ => exact W.whole (.unary h₁ h₂ h₃) rfl (W.trans (W.step h₁) c₃)
  | updateFirst h₁ h₂ h₃ h₄ c₄ => exact W.whole (.updateFirst h₁ h₂ h₃ h₄) rfl (W.trans (W.step h₁) c₄)
  | operator h₁ h₂ h₃ h₄ c₁ c₄ => exact W.whole (.operator h₁ h₂ h₃ h₄) rfl (W.trans c₁ (W.trans (W.step h₂) c₄))
  | choice h₁ h₂ h₃ h₄ h₅ c₁ c₃ c₅ =>
    exact W.whole (.choice h₁ h₂ h₃ h₄ h₅) rfl (W.trans c₁ (W.behind h₂ (W.trans c₃ (W.behind h₄ c₅))))
  | assign h₁ h₂ h₃ h₄ h₅ c₁ c₅ =>
    exact W.whole (.assign h₁ h₂ h₃ h₄ h₅) rfl (W.trans c₁ (W.trans (W.step h₂) c₅))
  | sequence h₁ h₂ h₃ c₁ c₃ => exact W.whole (.sequence h₁ h₂ h₃) rfl (W.trans c₁ c₃)
  | item h₁ _ _ c₂ c₃ => exact W.behind h₁ (W.trans c₂ c₃)
  -- arguments, elements and properties
  | argumentsEnd h₁ | elementsEnd h₁ | propertiesEnd h₁ => exact W.takes h₁
  | lastArgument _ _ h₃ c₂ | lastProperty _ _ h₃ c₂ => exact W.before c₂ (W.takes h₃)
  | argument _ _ h₃ _ c₂ c₄ | moreProperties _ _ h₃ _ c₂ c₄ => exact W.trans c₂ (W.behind h₃ c₄)
  | hole h₁ _ c₂ => exact W.behind h₁ c₂
  | lastElement _ _ _ h₄ c₃ => exact W.before c₃ (W.takes h₄)
  | element _ _ _ h₄ _ c₃ c₅ => exact W.trans c₃ (W.behind h₄ c₅)
  | shorthand h₁ h₂ =>
    exact W.whole (b := false) (.shorthand h₁ h₂) rfl (W.leaf (.identifier h₁) rfl rfl (W.takes h₁))
  | pair h₁ h₂ h₃ c₁ c₃ => exact W.whole (.pair h₁ h₂ h₃) rfl (W.trans c₁ (W.behind h₂ c₃))
  | nameKey h₁ => exact W.step h₁
  | textKey h₁ | numberKey h₁ => exact W.takes h₁
  | computedKey h₁ _ h₃ c₂ => exact W.behind h₁ (W.before c₂ (W.takes h₃))
  -- statements
  | empty h₁ => exact W.leaf (.empty h₁) rfl rfl (W.takes h₁)
  | blockStatement h₁ c₁ => exact W.whole (.blockStatement h₁) rfl c₁
  | functionStatement h₁ h₂ h₃ c₃ => exact W.whole (.functionStatement h₁ h₂ h₃) rfl (W.behind h₁ (W.behind h₂ c₃))
  | choose h₁ h₂ h₃ h₄ c₂ c₃ c₄ =>
    exact W.whole (.choose h₁ h₂ h₃ h₄) rfl (W.behind h₁ (W.trans c₂ (W.trans c₃ c₄)))
  | whileLoop h₁ h₂ h₃ c₂ c₃ => exact W.whole (.whileLoop h₁ h₂ h₃) rfl (W.behind h₁ (W.trans c₂ c₃))
  | doLoop h₁ h₂ h₃ h₄ h₅ c₂ c₄ c₅ =>
    exact W.whole (.doLoop h₁ h₂ h₃ h₄ h₅) rfl (W.behind h₁ (W.trans c₂ (W.behind h₃ (W.before c₄ c₅))))
  | forLoop h₁ h₂ h₃ h₄ h₅ h₆ h₇ h₈ h₉ c₃ c₅ c₇ c₉ =>
    exact W.whole (.forLoop h₁ h₂ h₃ h₄ h₅ h₆ h₇ h₈ h₉) rfl (W.behind h₁ (W.behind h₂
      (W.trans c₃ (W.behind h₄ (W.trans c₅ (W.behind h₆ (W.trans c₇ (W.behind h₈ c₉))))))))
  | returns h₁ h₂ h₃ c₂ c₃ => exact W.whole (.returns h₁ h₂ h₃) rfl (W.behind h₁ (W.before c₂ c₃))
  | breaks h₁ h₂ h₃ c₂ c₃ => exact W.whole (.breaks h₁ h₂ h₃) rfl (W.behind h₁ (W.before c₂ c₃))
  | continues h₁ h₂ h₃ c₂ c₃ => exact W.whole (.continues h₁ h₂ h₃) rfl (W.behind h₁ (W.before c₂ c₃))
  | throws h₁ h₂ h₃ h₄ c₃ c₄ => exact W.whole (.throws h₁ h₂ h₃ h₄) rfl (W.behind h₁ (W.before c₃ c₄))
  | declare h₁ h₂ h₃ h₄ c₃ c₄ => exact W.whole (.declare h₁ h₂ h₃ h₄) rfl (W.trans (W.step h₁) (W.before c₃ c₄))
  | labeled h₁ h₂ h₃ h₄ _ c₄ =>
    -- the label is read as an expression, and is none of the tree
    have hlabel : Lexer.Takes _ .identifier _ := h₂.plain rfl
    exact W.whole (.labeled h₁ h₂ h₃ h₄) rfl (W.behind hlabel (W.behind h₃ c₄))
  | expressionStatement h₁ h₂ h₃ h₄ c₂ c₄ => exact W.whole (.expressionStatement h₁ h₂ h₃ h₄) rfl (W.before c₂ c₄)
  | semicolon h₁ | whileSemicolon h₁ | blockEnd h₁ | label h₁ _ => exact W.takes h₁
  | lineEnd | whileEnd | noInitializer | noAlternative | noInit | noExpression | nothingReturned | noLabel => exact W.here
  | block h₁ _ c₂ | initializer h₁ _ c₂ | alternative h₁ _ c₂ => exact W.behind h₁ c₂
  | blockItem _ _ _ _ c₃ c₄ => exact W.trans c₃ c₄
  | lastDeclarator h₁ _ _ c₂ =>
    rw [Phrase.nodes, declared_cons, declared_nil, List.append_nil]
    exact W.behind h₁ c₂
  | declarator h₁ _ h₃ _ c₂ c₄ =>
    rw [Phrase.nodes, declared_cons]
    exact W.behind h₁ (W.trans c₂ (W.behind h₃ c₄))
  | condition h₁ _ h₃ c₂ => exact W.behind h₁ (W.before c₂ (W.takes h₃))
  | declareInit h₁ h₂ h₃ c₃ => exact W.whole (.declareInit h₁ h₂ h₃) rfl (W.trans (W.step h₁) c₃)
  | expressionInit h₁ h₂ h₃ c₃ => exact W.whole (.expressionInit h₁ h₂ h₃) rfl c₃
  -- the phrases that are another one with nothing behind it
  | primaryChain _ _ c | constructChain _ _ c | member _ _ c | noUpdate _ _ c | noPrefix _ _ _ c | operators _ c
  | binary _ _ c | noChoice _ _ c | noAssign _ _ c | single _ _ c | someExpression _ _ c | returned _ _ c => exact c

/-- The statements of a program are a row, too. -/
theorem DerivesAll.walk {body : List Stmt} (h : DerivesAll l body l') (W : Walk R) : R l (body.map .stmt) l' := by
  induction h with
  | done => exact W.here
  | more _ h₁ _ c => exact W.trans (h₁.walk W) c

end Readback.Grammar
