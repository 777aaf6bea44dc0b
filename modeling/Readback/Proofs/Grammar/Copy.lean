import Readback.Proofs.Grammar.Transport
import Readback.Proofs.Tree.Node
/-!
# The same tokens in another text

A phrase is followed from its start on, token by token.  Where another text has the same tokens at corresponding places, each
taken as it is in the phrase, it has the same phrase, if what is in hand behind it there may stand behind it too.  Which
tokens are taken on the way can be told from the tree: a slash is read once more where the tree has a regular expression.
-/
namespace Readback

open Token (Kind)

namespace Lexer

/-- **The tokens that are taken, one after the other**, on the way from a place to a later one. -/
inductive Path : Lexer → List Token → Lexer → Prop
  | stay {l : Lexer} : Path l [] l
  | step {l l₁ l' : Lexer} {ts : List Token} (h₁ : l.Steps l₁) (h₂ : Path l₁ ts l') : Path l (l.hand :: ts) l'
  | reread {l l₁ l' : Lexer} {u : Token} {ts : List Token} (h₁ : l.Rereads u l₁) (h₂ : Path l₁ ts l') : Path l (u :: ts) l'

theorem Path.trans {l l' l'' : Lexer} {ts us : List Token} (h : l.Path ts l') (h' : l'.Path us l'') :
    l.Path (ts ++ us) l'' := by
  induction h with
  | stay => exact h'
  | step h₁ _ ih => exact .step h₁ (ih h')
  | reread h₁ _ ih => exact .reread h₁ (ih h')

theorem Path.goes {l l' : Lexer} {ts : List Token} (h : l.Path ts l') : l.Goes l' := by
  induction h with
  | stay => exact .stay
  | step h₁ _ ih => exact .step h₁ ih
  | reread h₁ _ ih => exact .reread h₁ ih

/-- A token that is read once more is not the one in hand. -/
theorem Rereads.ne_hand {l l' : Lexer} {u : Token} (h : l.Rereads u l') : u ≠ l.hand := by
  rintro rfl
  have hk := h.kind
  rcases h.slash with hs | ⟨hs, -⟩ <;> cases hs.symm.trans hk

end Lexer

/-- The span of a token that is a regular expression. -/
def Token.regex? (t : Token) : Option Span := if t.kind = .regex then some t.span else none

theorem Token.regex?_of_ne {t : Token} (h : t.kind ≠ .regex) : t.regex? = none := if_neg h

theorem Token.regex?_of_eq {t : Token} (h : t.kind = .regex) : t.regex? = some t.span := if_pos h

namespace Grammar

/-- The nodes of the tree of a phrase that are in no other one. -/
@[simp] def Phrase.nodes : (p : Phrase) → p.Result → List Node
  | .statement, a => [.stmt a]
  | .ending, _ | .whileEnd, _ | .jumpLabel, _ | .functionName, _ | .parameters, _ | .params, _ => []
  | .block, a | .blockRest, a => a.map .stmt
  | .declarators _, a => declared a
  | .alternative, a | .forInit, a => a.toList.map .stmt
  | .initializer _, a | .expressionUnless _, a | .returned, a => a.toList.map .expr
  | .signature, a => a.2.map .stmt
  | .condition, a | .expression, a | .assignment, a | .conditional, a | .binary _, a | .operators _, a | .unary, a
  | .update, a | .member _, a | .chain _, a | .construct, a | .primary, a => [.expr a]
  | .itemsRest, a | .newArguments, a | .argumentsRest, a => a.map .expr
  | .elementsRest, a => elementNodes a
  | .propertiesRest, a => a.map .property
  | .property, a => [.property a]
  | .propertyKey, a => a.nodes

/-! ## Another text -/

/-- The same token, and it starts where it has to; of the token in hand nobody asks where it stops. -/
structure Like (m : Move) (t u : Token) : Prop where
  kind    : u.kind = t.kind
  text    : u.text = t.text
  newline : u.newlineBefore = t.newlineBefore
  start   : u.span.start = m.start t.span.start

theorem Same.like {m : Move} {t u : Token} (h : Same m t u) : Like m t u :=
  ⟨h.kind, h.text, h.newline, congrArg Span.start h.span⟩

/-- Places of a text, with the tokens that will be taken from them on, and the places of another one where these are taken.
Nothing is said of the token behind the last of them. -/
structure Follows (m : Move) (on : List Token → Lexer → Prop) (φ : Lexer → Lexer) : Prop where
  hand  : ∀ {t ts l}, on (t :: ts) l → Like m l.hand (φ l).hand
  stop  : ∀ {ts l}, on ts l → (φ l).cursor.pos = m.stop l.cursor.pos
  steps : ∀ {ts l l'}, on (l.hand :: ts) l → l.Steps l' → on ts l' ∧ (φ l).Steps (φ l')
  again : ∀ {ts l u l'}, on (u :: ts) l → l.Rereads u l' → on ts l' ∧ ∃ u', (φ l).Rereads u' (φ l') ∧ u'.text = u.text

/-- The same, and at each of these places the token in hand is the same one, at the last one as well. -/
structure Copy (m : Move) (on : List Token → Lexer → Prop) (φ : Lexer → Lexer) : Prop where
  hand  : ∀ {ts l}, on ts l → Like m l.hand (φ l).hand
  stop  : ∀ {ts l}, on ts l → (φ l).cursor.pos = m.stop l.cursor.pos
  steps : ∀ {ts l l'}, on (l.hand :: ts) l → l.Steps l' → on ts l' ∧ (φ l).Steps (φ l')
  again : ∀ {ts l u l'}, on (u :: ts) l → l.Rereads u l' → on ts l' ∧ ∃ u', (φ l).Rereads u' (φ l') ∧ u'.text = u.text

/-- From a place to a later one tokens are taken, with regular expressions at the spans that are listed; and where they are the
next tokens of the other text too, something holds. -/
def Way (on : List Token → Lexer → Prop) (l l' : Lexer) (spans : List Span) (Q : Prop) : Prop :=
  ∃ ts, l.Path ts l' ∧ ts.filterMap Token.regex? = spans ∧ ∀ rest, on (ts ++ rest) l → on rest l' ∧ Q

/-- In hand where a phrase ends is, in the other text, what is in hand here, or what may stand behind any such phrase. -/
def Meets (m : Move) (φ : Lexer → Lexer) (p : Phrase) (l : Lexer) : Prop :=
  Like m l.hand (φ l).hand ∨ p.endsAt (φ l).hand

/-- A phrase that is one of the other text too, wherever it may end there; and where it starts, the token in hand is the same
one, unless it has no token. -/
structure Found (m : Move) (φ : Lexer → Lexer) (b : Bool) (p : Phrase) (l : Lexer) (a : p.Result) (l' : Lexer) : Prop where
  start   : Like m l.hand (φ l).hand ∨ (p.least = 0 ∧ l = l')
  derives : Meets m φ p l' → Derives b p (φ l) (p.move m a) (φ l')

/-- **A phrase that is found in the other text**, where the tokens that it is made of are taken there; the regular expressions
among them are those of its tree. -/
def Followed (m : Move) (on : List Token → Lexer → Prop) (φ : Lexer → Lexer) (b : Bool) (p : Phrase) (l : Lexer) (a : p.Result)
    (l' : Lexer) : Prop :=
  Way on l l' ((p.nodes a).flatMap Node.regexes) (Found m φ b p l a l')

section

variable {m : Move} {on : List Token → Lexer → Prop} {inside : Lexer → Prop} {φ : Lexer → Lexer} {b : Bool} {p q : Phrase}
  {l l₁ l' : Lexer} {k : Kind} {t u : Token} {spans spans' : List Span} {Q Q' : Prop}

theorem Like.updateHere (h : Like m t u) : updateHere? u = updateHere? t := by
  rw [updateHere?, updateHere?, h.kind, h.newline]

theorem Like.assignOp (h : Like m t u) : assignOp? u = assignOp? t := by
  rw [assignOp?, assignOp?, h.kind, h.text]

theorem Like.endsStatement (h : Like m t u) : endsStatement u = endsStatement t := by
  unfold Grammar.endsStatement
  rw [h.kind, h.newline]

/-- From a token to the end of an expression. -/
theorem Like.throughExpr (h : Like m t u) (e : Expr) : (t.span.through e.span).move m = u.span.through (e.move m).span := by
  rw [Span.move_through, Expr.span_move]
  simp only [Span.move, Span.through, h.start]

/-! ### Behind a phrase -/

theorem Meets.imp (h : Meets m φ p l) (hpq : ∀ t, p.endsAt t → q.endsAt t) : Meets m φ q l := Or.imp id (hpq _) h

theorem Meets.like (h : Meets m φ p l) (hp : ∀ t, ¬ p.endsAt t) : Like m l.hand (φ l).hand := Or.resolve_right h (hp _)

/-- What is asked of the kind of the token behind a phrase holds in the other text too. -/
theorem Meets.kind (h : Meets m φ p l) {C : Kind → Prop} (hp : ∀ t, p.endsAt t → C t.kind) (hc : C l.hand.kind) :
    C (φ l).hand.kind := by
  rcases h with hs | he
  · rwa [hs.kind]
  · exact hp _ he

theorem Meets.updateHere (h : Meets m φ .update l) (hu : updateHere? l.hand = none) : updateHere? (φ l).hand = none := by
  rcases h with hs | he
  · rwa [hs.updateHere]
  · exact he.2

variable {a : p.Result}

theorem Found.like (h : Found m φ b p l a l') (hp : p.least = 1) : Like m l.hand (φ l).hand :=
  h.start.resolve_right fun hn => by simp [hp] at hn

/-- In front of a phrase the token in hand is the same one, if it is so behind it. -/
theorem Found.like_of_like (h : Found m φ b p l a l') (hl : Like m l'.hand (φ l').hand) : Like m l.hand (φ l).hand := by
  rcases h.start with hs | ⟨-, rfl⟩
  · exact hs
  · exact hl

/-- What may stand behind a phrase that may be missing may stand in front of it. -/
theorem Found.meets (h : Found m φ b p l a l') (hm : Meets m φ p l') (hpq : ∀ t, p.endsAt t → q.endsAt t) : Meets m φ q l := by
  rcases h.start with hs | ⟨-, rfl⟩
  · exact .inl hs
  · exact hm.imp hpq

/-! ### Along the way -/

theorem Way.trans (w : Way on l l₁ spans Q) (w' : Way on l₁ l' spans' Q') : Way on l l' (spans ++ spans') (Q ∧ Q') := by
  obtain ⟨ts, hp, hs, hq⟩ := w
  obtain ⟨us, hp', hs', hq'⟩ := w'
  refine ⟨ts ++ us, hp.trans hp', by rw [List.filterMap_append, hs, hs'], fun rest h => ?_⟩
  rw [List.append_assoc] at h
  obtain ⟨h₁, q⟩ := hq _ h
  obtain ⟨h', q'⟩ := hq' _ h₁
  exact ⟨h', q, q'⟩

/-- What follows, where the end is a place that corresponds to one. -/
theorem Way.imp (w : Way on l l' spans Q) (hs : spans = spans') (f : (∃ ts, on ts l') → Q → Q') :
    Way on l l' spans' Q' := by
  obtain ⟨ts, hp, ht, hq⟩ := w
  refine ⟨ts, hp, ht.trans hs, fun rest h => ?_⟩
  obtain ⟨h', q⟩ := hq rest h
  exact ⟨h', f ⟨_, h'⟩ q⟩

/-- A phrase that takes no token. -/
theorem Followed.of_none (hp : p.least = 0) (hn : (p.nodes a).flatMap Node.regexes = [])
    (f : Meets m φ p l → Derives b p (φ l) (p.move m a) (φ l)) : Followed m on φ b p l a l :=
  ⟨[], .stay, hn.symm, fun _ h => ⟨h, .inr ⟨hp, rfl⟩, f⟩⟩

namespace Follows

/-- Where the token in hand is taken on the way, it is in hand in the other text too. -/
theorem opens (F : Follows m on φ) (w : Way on l l' spans Q) (ho : Opens l l') :
    Way on l l' spans (Like m l.hand (φ l).hand ∧ Q) := by
  obtain ⟨ts, hp, hs, hq⟩ := w
  refine ⟨ts, hp, hs, fun rest h => ?_⟩
  obtain ⟨h', q⟩ := hq rest h
  cases hp with
  | stay => exact absurd ho.left_lt (Nat.lt_irrefl _)
  | step h₁ h₂ => exact ⟨h', F.hand h, q⟩
  | reread h₁ h₂ => exact ⟨h', F.hand h, q⟩

theorem upTo (F : Follows m on φ) (hl : Like m l.hand (φ l).hand) (i' : ∃ ts, on ts l') :
    (l.upTo l').move m = (φ l).upTo (φ l') := by
  obtain ⟨_, i'⟩ := i'
  unfold Span.move Lexer.upTo
  rw [F.stop i', hl.start]

theorem fromStart (F : Follows m on φ) (i' : ∃ ts, on ts l') {e : Expr} :
    (⟨e.span.start, l'.cursor.pos⟩ : Span).move m = ⟨(e.move m).span.start, (φ l').cursor.pos⟩ := by
  obtain ⟨_, i'⟩ := i'
  rw [F.stop i', Expr.span_move]
  rfl

/-- From the start of an expression through a token that is taken behind it. -/
theorem throughHand (F : Follows m on φ) (i' : ∃ ts, on ts l') (h : l.Steps l') (h' : (φ l).Steps (φ l')) (e : Expr) :
    (e.span.through l.hand.span).move m = (e.move m).span.through (φ l).hand.span := by
  obtain ⟨_, i'⟩ := i'
  rw [Span.move_through, Expr.span_move]
  simp only [Span.move, Span.through, h.stop, h'.stop, F.stop i']

theorem steps_of_ne (F : Follows m on φ) (h : l.Steps l') (hk : l.hand.kind ≠ .regex) :
    Way on l l' [] ((φ l).Steps (φ l') ∧ Like m l.hand (φ l).hand) := by
  refine ⟨[l.hand], .step h .stay, by rw [List.filterMap_cons_none (Token.regex?_of_ne hk)]; rfl, fun rest ho => ?_⟩
  obtain ⟨ho', hs⟩ := F.steps ho h
  exact ⟨ho', hs, F.hand ho⟩

theorem takes (F : Follows m on φ) (h : l.Takes k l') (hk : k ≠ .regex) :
    Way on l l' [] ((φ l).Takes k (φ l') ∧ Like m l.hand (φ l).hand) :=
  (F.steps_of_ne h.toSteps (h.kind ▸ hk)).imp rfl fun _ ⟨hs, hl⟩ => ⟨⟨hs, hl.kind.trans h.kind⟩, hl⟩

theorem takes_regex (F : Follows m on φ) (h : l.Takes .regex l') :
    Way on l l' [l.upTo l'] ((φ l).Takes .regex (φ l') ∧ Like m l.hand (φ l).hand) := by
  refine ⟨[l.hand], .step h.toSteps .stay, ?_, fun rest ho => ?_⟩
  · rw [List.filterMap_cons_some (Token.regex?_of_eq h.kind), h.span]
    rfl
  · obtain ⟨ho', hs⟩ := F.steps ho h.toSteps
    exact ⟨ho', ⟨hs, (F.hand ho).kind.trans h.kind⟩, F.hand ho⟩

theorem rereads (F : Follows m on φ) (h : l.Rereads u l') :
    Way on l l' [l.upTo l'] ((∃ u', (φ l).Rereads u' (φ l') ∧ u'.text = u.text) ∧ Like m l.hand (φ l).hand) := by
  refine ⟨[u], .reread h .stay, ?_, fun rest ho => ?_⟩
  · rw [List.filterMap_cons_some (Token.regex?_of_eq h.kind), h.span]
    rfl
  · obtain ⟨ho', hu⟩ := F.again ho h
    exact ⟨ho', hu, F.hand ho⟩

end Follows

theorem Copy.follows (C : Copy m on φ) : Follows m on φ := ⟨C.hand, C.stop, C.steps, C.again⟩

/-- The token in hand at a place in between. -/
theorem Copy.here (C : Copy m on φ) : Way on l l [] (Like m l.hand (φ l).hand) :=
  ⟨[], .stay, rfl, fun _ h => ⟨h, C.hand h⟩⟩

/-- **The tokens on the way to a place inside are taken in the other text.** -/
theorem Transport.follows (T : Transport m inside φ) : Follows m (fun ts l => ∃ l', l.Path ts l' ∧ inside l') φ where
  hand := by
    rintro t ts l ⟨l', hp, hi⟩
    cases hp with
    | step h₁ h₂ => exact (T.same h₁ (T.back h₂.goes hi)).like
    | reread h₁ h₂ => exact (T.again h₁ (T.back h₂.goes hi)).1.like
  stop := by
    rintro ts l ⟨l', hp, hi⟩
    exact T.stop (T.back hp.goes hi)
  steps := by
    rintro ts l l₁ ⟨l', hp, hi⟩ h
    cases hp with
    | step h₁ h₂ =>
      obtain rfl := h.unique h₁
      exact ⟨⟨l', h₂, hi⟩, T.steps h (T.back h₂.goes hi)⟩
    | reread h₁ h₂ => exact absurd rfl h₁.ne_hand
  again := by
    rintro ts l u l₁ ⟨l', hp, hi⟩ h
    cases hp with
    | step h₁ h₂ => exact absurd rfl h.ne_hand
    | reread h₁ h₂ =>
      obtain rfl : l₁ = _ := h.after.trans h₁.after.symm
      obtain ⟨-, u', hu, hs⟩ := T.again h (T.back h₂.goes hi)
      exact ⟨⟨l', h₂, hi⟩, u', hu, hs.text⟩

theorem Stands.meets (h : Stands m inside φ p l) : Meets m φ p l := h.2.imp Same.like id

/-- A token of which something is known that is not known of regular expressions is none. -/
theorem ne_regex {α : Type} {f : Kind → Option α} {a : α} (h : f k = some a) (hf : f .regex = none) : k ≠ .regex := by
  rintro rfl
  cases hf.symm.trans h

theorem ne_regex_of_isName (h : isName k = true) : k ≠ .regex := by
  rintro rfl
  cases h

theorem ne_regex_of_updateHere {op : UpdateOp} (h : updateHere? t = some op) : t.kind ≠ .regex := by
  intro hk
  unfold updateHere? at h
  split at h
  · cases h
  · rw [hk] at h
    cases h

theorem ne_regex_of_assignOp {op : Option BinaryOp} (h : assignOp? t = some op) : t.kind ≠ .regex := by
  intro hk
  rw [assignOp?, hk] at h
  cases h

end

end Grammar

end Readback
