import Readback.Proofs.Grammar.Layer
import Readback.Proofs.Grammar.Read
/-!
# The trees that are read are well formed

What every tree has that is read, said of the trees alone.  Each part of an expression binds at least as tightly as is asked
for where it stands, so the tree is the only one that its tokens may be read as; what has to be a name is one; and nothing
is returned but from a function.
-/
namespace Readback

/-! ## How tightly layers bind -/

namespace Layer

/-- The place of a layer among the others, from the loosest on. -/
def rank : Layer → Nat
  | .expression  => 0
  | .assignment  => 1
  | .conditional => 2
  | .binary _    => 3
  | .unary       => 4
  | .update      => 5
  | .chain _     => 6
  | .primary     => 7

/-- The place within layers of one rank: operators have their precedence, and chains without calls are the tighter ones. -/
def degree : Layer → Nat
  | .binary least => least
  | .chain false  => 1
  | _             => 0

/-- An expression of the second layer may stand where one of the first is asked for. -/
instance : LE Layer := ⟨fun m n => m.rank < n.rank ∨ m.rank = n.rank ∧ m.degree ≤ n.degree⟩

variable {k m n : Layer}

theorem le_def : m ≤ n ↔ m.rank < n.rank ∨ m.rank = n.rank ∧ m.degree ≤ n.degree := Iff.rfl

instance : Decidable (m ≤ n) := decidable_of_iff' _ le_def

@[refl] theorem le_refl (m : Layer) : m ≤ m := .inr ⟨rfl, Nat.le_refl _⟩

theorem le_trans (h₁ : k ≤ m) (h₂ : m ≤ n) : k ≤ n := by
  rw [le_def] at *
  omega

/-- Chains without calls are chains. -/
theorem chain_le (calls : Bool) : Layer.chain calls ≤ .chain false := by cases calls <;> decide

theorem le_chain (calls : Bool) : Layer.chain true ≤ .chain calls := by cases calls <;> decide

end Layer

namespace Expr

/-- A call is reached through members, from the outside and not through a group. -/
def reachesCall : Expr → Bool
  | .call _ _ _ => true
  | .field _ e _ | .index _ e _ => e.reachesCall
  | _ => false

/-- The layer of an expression, as the node at its top has it. -/
def layer : Expr → Layer
  | .sequence _ _ => .expression
  | .assign _ _ _ _ => .assignment
  | .conditional _ _ _ _ => .conditional
  | .binary _ op _ _ => .binary op.precedence
  | .unary _ _ _ | .update _ _ true _ => .unary
  | .update _ _ false _ => .update
  | .call _ _ _ => .chain true
  | .new _ _ _ => .chain false
  | .field _ e _ | .index _ e _ => .chain e.reachesCall
  | .literal _ _ | .identifier _ _ | .this _ | .regex _ _ _ | .array _ _ | .object _ _ | .function _ _ _ _ | .group _ _ =>
    .primary

/-- What may stand in a chain may be the target of a member of that chain. -/
theorem chain_le_reachesCall {calls : Bool} {e : Expr} (h : .chain calls ≤ e.layer) :
    Layer.chain calls ≤ .chain e.reachesCall := by
  cases calls with
  | true => cases e.reachesCall <;> decide
  | false =>
    cases e with
    | call => exact absurd h (by simp only [layer]; decide)
    | field | index => exact h
    | _ => exact Layer.le_refl _

end Expr

/-! ## Well-formed trees -/

/-- The text is a name, and not one of the words that the language has for itself. -/
abbrev IsName (name : String) : Prop := Token.IsToken .identifier name

/-- A statement that the head of a loop may begin with. -/
def Stmt.isInit : Stmt → Bool
  | .expression _ _ | .declare _ _ _ => true
  | _ => false

mutual

/-- The expression and all in it is as the grammar has it: every part is of a layer that may stand there. -/
def Expr.Formed : Expr → Prop
  | .literal _ _ | .this _ | .regex _ _ _ => True
  | .identifier _ name => IsName name
  | .array _ items => ElementsFormed items
  | .object _ items => PropertiesFormed items
  | .function _ name params body => (∀ n ∈ name, IsName n) ∧ (∀ n ∈ params, IsName n) ∧ BodyFormed true body
  | .unary _ _ e => (.unary ≤ e.layer ∧ e.Formed)
  | .update _ _ true e => (.unary ≤ e.layer ∧ e.Formed)
  | .update _ _ false e => (.chain true ≤ e.layer ∧ e.Formed)
  | .binary _ op x y =>
    (.binary op.leftPrecedence ≤ x.layer ∧ x.Formed) ∧ (.binary op.rightPrecedence ≤ y.layer ∧ y.Formed)
  | .assign _ _ x y => (x.isTarget = true ∧ x.Formed) ∧ (.assignment ≤ y.layer ∧ y.Formed)
  | .conditional _ x y z =>
    (.binary 0 ≤ x.layer ∧ x.Formed) ∧ (.assignment ≤ y.layer ∧ y.Formed) ∧ (.assignment ≤ z.layer ∧ z.Formed)
  | .call _ e args => (.chain true ≤ e.layer ∧ e.Formed) ∧ ItemsFormed args
  | .new _ e args => (.chain false ≤ e.layer ∧ e.Formed) ∧ ItemsFormed args
  | .field _ e _ => (.chain true ≤ e.layer ∧ e.Formed)
  | .index _ e x => (.chain true ≤ e.layer ∧ e.Formed) ∧ x.Formed
  | .sequence _ items => 2 ≤ items.length ∧ ItemsFormed items
  | .group _ e => e.Formed

/-- No item, argument or element of a list is a list of expressions itself. -/
def ItemsFormed : List Expr → Prop
  | []      => True
  | e :: es => (.assignment ≤ e.layer ∧ e.Formed) ∧ ItemsFormed es

def ElementsFormed : List (Option Expr) → Prop
  | []           => True
  | none :: es   => ElementsFormed es
  | some e :: es => (.assignment ≤ e.layer ∧ e.Formed) ∧ ElementsFormed es

/-- A property without a value is a name, which is its key, and stands for itself as an expression. -/
def Property.Formed : Property → Prop
  | .pair _ key e     => key.Formed ∧ (.assignment ≤ e.layer ∧ e.Formed)
  | .shorthand s name =>
    IsName name ∧ (Property.shorthand s name).key = .name name ∧ (Property.shorthand s name).value = .identifier s name

def PropertiesFormed : List Property → Prop
  | []      => True
  | p :: ps => p.Formed ∧ PropertiesFormed ps

def PropertyKey.Formed : PropertyKey → Prop
  | .name _ | .text _ | .number _ => True
  | .computed e => (.assignment ≤ e.layer ∧ e.Formed)

/-- The statement is as the grammar has it where it stands, in a function or not. -/
def Stmt.Formed (inside : Bool) : Stmt → Prop
  | .empty _ => True
  | .expression _ e => e.Formed
  | .block _ body => BodyFormed inside body
  | .labeled _ label body => IsName label ∧ body.Formed inside
  | .declare _ kind items => items ≠ [] ∧ DeclaratorsFormed kind items
  | .function _ name params body => IsName name ∧ (∀ n ∈ params, IsName n) ∧ BodyFormed true body
  | .choose _ e yes no => e.Formed ∧ yes.Formed inside ∧ BranchFormed inside no
  | .whileLoop _ e body => e.Formed ∧ body.Formed inside
  | .doLoop _ body e => body.Formed inside ∧ e.Formed
  | .forLoop _ init test step body =>
    ((∀ s ∈ init, s.isInit = true) ∧ BranchFormed inside init) ∧ ValueFormed test ∧ ValueFormed step ∧ body.Formed inside
  | .returns _ value => inside = true ∧ ValueFormed value
  | .breaks _ label | .continues _ label => ∀ n ∈ label, IsName n
  | .throws _ e => e.Formed

def BodyFormed (inside : Bool) : List Stmt → Prop
  | []      => True
  | s :: ss => s.Formed inside ∧ BodyFormed inside ss

def BranchFormed (inside : Bool) : Option Stmt → Prop
  | none   => True
  | some s => s.Formed inside

def ValueFormed : Option Expr → Prop
  | none   => True
  | some e => e.Formed

def InitFormed (kind : DeclKind) : Option Expr → Prop
  | none   => kind ≠ .const
  | some e => (.assignment ≤ e.layer ∧ e.Formed)

def Declarator.Formed (kind : DeclKind) : Declarator → Prop
  | .mk name init => IsName name ∧ InitFormed kind init

def DeclaratorsFormed (kind : DeclKind) : List Declarator → Prop
  | []      => True
  | d :: ds => d.Formed kind ∧ DeclaratorsFormed kind ds

end

namespace Grammar

open Token (Kind)

variable {b : Bool} {p : Phrase} {l l' : Lexer} {least : Nat} {k : Kind} {op op' : BinaryOp}

/-! ## Reading -/

/-- An identifier in hand is a name. -/
theorem isName_of_takes (h : l.Takes .identifier l') : IsName l.hand.text := by
  obtain ⟨g, t, x, v, hf⟩ := Lexer.front_of_next h.ready.outcome h.more
  rw [h.kind] at hf
  have hs := Lexer.Front.swap (r := []) (y := []) hf (.nil x) nofun 0
  have hl : Token.Lexeme l.regexAllowed t .identifier v :=
    ⟨by simpa using hs.bare, hs.some, by simpa [Lexer.swap] using hs.scan⟩
  obtain ⟨rfl, ht, hk⟩ := hl.identifier
  rw [Lexer.hand_of_outcome (congrArg Lexer.Step.outcome hf.next)]
  refine Token.Lexeme.isToken (v := v) ?_
  rw [String.toList_ofList]
  exact Token.lexeme_identifier ht hk true

/-- An operator that an operand of another did not take binds as loosely as that one at least. -/
theorem leftPrecedence_le (h : operatorHere? op.rightPrecedence k = none) (hk : operatorHere? least k = some op') :
    op'.leftPrecedence ≤ op.precedence := by
  obtain ⟨hk, -⟩ := Option.filter_eq_some_iff.1 hk
  rw [operatorHere?, hk, Option.filter_some] at h
  have hlt : op'.precedence < op.rightPrecedence := by simpa using h
  have hright : op.rightPrecedence ≤ op.precedence + 1 := by
    unfold BinaryOp.rightPrecedence
    split <;> omega
  have hmost : op.rightPrecedence ≤ BinaryOp.pow.precedence := by cases op <;> decide
  unfold BinaryOp.leftPrecedence
  split
  · -- `Pow` is taken by every operand on the right
    subst op'
    omega
  · omega

/-- An operand that ends in front of an operator may stand on its left. -/
theorem layer_of_operand {e : Expr} (hl : .binary least ≤ e.layer)
    (hs : ∀ s op x y, e = .binary s op x y → operatorHere? op.rightPrecedence k = none)
    (hk : operatorHere? least k = some op) : .binary op.leftPrecedence ≤ e.layer := by
  cases e with
  | binary _ op' => exact .inr ⟨rfl, leftPrecedence_le (hs _ _ _ _ rfl) hk⟩
  | sequence | assign | conditional => exact absurd hl (by simp [Layer.le_def, Expr.layer, Layer.rank])
  | update _ _ leading => cases leading <;> exact .inl (by simp [Expr.layer, Layer.rank])
  | _ => exact .inl (by simp [Expr.layer, Layer.rank])

/-- What is well formed of a phrase that leads from one place to another. -/
def Formed (b : Bool) : (p : Phrase) → Lexer → p.Result → Lexer → Prop
  | .statement, _, s, _ => s.Formed b
  | .ending, _, _, _ | .whileEnd, _, _, _ => True
  | .block, _, body, _ | .blockRest, _, body, _ => BodyFormed b body
  | .declarators kind, _, items, _ => items ≠ [] ∧ DeclaratorsFormed kind items
  | .initializer kind, _, init, _ => InitFormed kind init
  | .alternative, _, no, _ => BranchFormed b no
  | .forInit, _, init, _ => (∀ s ∈ init, s.isInit = true) ∧ BranchFormed b init
  | .expressionUnless _, _, e, _ | .returned, _, e, _ => ValueFormed e
  | .jumpLabel, _, name, _ | .functionName, _, name, _ => ∀ n ∈ name, IsName n
  | .parameters, _, names, _ | .params, _, names, _ => ∀ n ∈ names, IsName n
  | .signature, _, f, _ => (∀ n ∈ f.1, IsName n) ∧ BodyFormed true f.2
  | .condition, _, e, _ | .expression, _, e, _ => e.Formed
  | .itemsRest, l, es, _ => (l.hand.kind = .comma → es ≠ []) ∧ ItemsFormed es
  | .assignment, _, e, _ => .assignment ≤ e.layer ∧ e.Formed
  | .conditional, _, e, _ => .conditional ≤ e.layer ∧ e.Formed
  | .binary least, _, e, l' =>
    (.binary least ≤ e.layer ∧ e.Formed) ∧ operatorHere? least l'.hand.kind = none
  | .operators least, _, e, l' =>
    (.binary least ≤ e.layer ∧ e.Formed) ∧
      ∀ s op x y, e = .binary s op x y → operatorHere? op.rightPrecedence l'.hand.kind = none
  | .unary, _, e, _ => .unary ≤ e.layer ∧ e.Formed
  | .update, _, e, _ => .update ≤ e.layer ∧ e.Formed
  | .member calls, _, e, _ | .chain calls, _, e, _ => .chain calls ≤ e.layer ∧ e.Formed
  | .construct, _, e, _ => .chain false ≤ e.layer ∧ e.Formed
  | .primary, _, e, _ => .primary ≤ e.layer ∧ e.Formed
  | .newArguments, _, es, _ | .argumentsRest, _, es, _ => ItemsFormed es
  | .elementsRest, _, es, _ => ElementsFormed es
  | .propertiesRest, _, ps, _ => PropertiesFormed ps
  | .property, _, p, _ => p.Formed
  | .propertyKey, _, key, _ => key.Formed

/-- **What is read is well formed.** -/
theorem Derives.formed {a : p.Result} (h : Derives b p l a l') : Formed b p l a l' := by
  induction h with
  | operator _ _ hk _ ih₁ ih₂ =>
    obtain ⟨⟨hlayer, hx⟩, hstop⟩ := ih₁
    obtain ⟨⟨hright, hy⟩, hend⟩ := ih₂
    have hleft := layer_of_operand hlayer hstop hk
    have hleast := (Option.filter_eq_some_iff.1 hk).2
    refine ⟨⟨.inr ⟨rfl, of_decide_eq_true hleast⟩, ⟨hleft, hx⟩, hright, hy⟩, ?_⟩
    rintro _ _ _ _ ⟨⟩
    exact hend
  | constructChain _ _ ih => exact ⟨Layer.le_trans (Layer.chain_le _) ih.1, ih.2⟩
  | field _ _ _ _ ih => exact ⟨Expr.chain_le_reachesCall ih.1, Layer.le_trans (Layer.le_chain _) ih.1, ih.2⟩
  | index _ _ _ _ ih₁ ih₂ =>
    exact ⟨Expr.chain_le_reachesCall ih₁.1, ⟨Layer.le_trans (Layer.le_chain _) ih₁.1, ih₁.2⟩, ih₂⟩
  | sequence _ hk _ ih₁ ih₂ =>
    obtain ⟨hne, hrest⟩ := ih₂
    have := List.length_pos_iff.2 (hne hk)
    exact ⟨by rw [List.length_cons]; omega, ih₁, hrest⟩
  | shorthand h => exact ⟨isName_of_takes h, rfl, rfl⟩
  | declareInit _ _ _ ih => exact ⟨by rintro _ ⟨⟩; rfl, ih⟩
  | expressionInit _ _ _ ih => exact ⟨by rintro _ ⟨⟩; rfl, ih⟩
  | _ =>
    -- what is asked of the parts is what is known of them, or less
    simp only [Formed, Expr.Formed, ItemsFormed, ElementsFormed, Property.Formed, PropertiesFormed, PropertyKey.Formed,
      Stmt.Formed, BodyFormed, BranchFormed, ValueFormed, InitFormed, Declarator.Formed, DeclaratorsFormed] at *
    all_goals grind [isName_of_takes, Layer.le_def, Layer.rank, Layer.degree, Expr.layer]

theorem DerivesAll.formed {body : List Stmt} (h : DerivesAll l body l') : BodyFormed false body := by
  induction h with
  | done _ => trivial
  | more _ h _ ih => exact ⟨h.formed, ih⟩

end Grammar

open Grammar

/-- **Every tree that is read is well formed**, of whatever text and from whatever place: that of a program, and that of an
expression. -/
theorem formed_of_parse (source : String) :
    (∀ p, parseProgram source = .ok p → BodyFormed false p.body) ∧
      ∀ offset e, parseExpressionAt source offset = .ok e → e.Formed := by
  constructor
  · intro p hp
    obtain ⟨-, body, l', h, rfl⟩ := parseProgram_eq_ok.1 hp
    exact h.formed
  · intro offset e he
    obtain ⟨l, -, -, l', -, h⟩ := parseExpressionAt_eq_ok.1 he
    exact h.formed

theorem formed_of_parse_sample :
    (∃ p, parseProgram "f = function (x) \x7b return new x.y(-1 * 2) ** 3, x \x7d" = .ok p ∧ BodyFormed false p.body) ∧
      ∃ e, parseExpressionAt "a ? b++ : \x7bc\x7d" 4 = .ok e ∧ e.Formed := by
  obtain ⟨p, hp⟩ := eq_ok_of_isOk (x := parseProgram "f = function (x) \x7b return new x.y(-1 * 2) ** 3, x \x7d") (by decide +kernel)
  obtain ⟨e, he⟩ := eq_ok_of_isOk (x := parseExpressionAt "a ? b++ : \x7bc\x7d" 4) (by decide +kernel)
  exact ⟨⟨p, hp, (formed_of_parse _).1 p hp⟩, e, he, (formed_of_parse _).2 4 e he⟩

end Readback
