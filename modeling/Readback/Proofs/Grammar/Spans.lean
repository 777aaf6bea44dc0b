import Readback.Proofs.Grammar.Layout
import Readback.Proofs.Grammar.Piece
import Readback.Proofs.Grammar.Walk
/-!
# Where the nodes of a tree stand

The span of a node goes from its first token to the end of its last one.  So the nodes of a tree are nested as they are in the
text, and what the span of an expression or a function cuts out of the text is one by itself.
-/
namespace Readback

/-- **The span of a node is exact**: it is a piece of the text between two characters, and not an empty one, and the parts of the
node stand in it one behind the other. -/
structure Node.Exact (source : List Char) (x : Node) : Prop where
  some   : x.span.start < x.span.stop
  le     : x.span.stop ≤ Text.byteLength source
  start  : Text.isBoundary x.span.start source = true
  stop   : Text.isBoundary x.span.stop source = true
  inside : ∀ y ∈ x.children, y.span.Within x.span
  apart  : x.children.Pairwise fun y z => y.span.stop ≤ z.span.start

theorem Node.mem_all (x : Node) : x ∈ x.all := by
  rw [all_eq]
  exact List.mem_cons_self

namespace Grammar

variable {b : Bool} {l k k' l' : Lexer} {x y : Node} {xs : List Node} {source : List Char}

/-! ## Places in order -/

theorem Opens.start_lt (h : Opens l l') : l.cursor.pos ≤ l.hand.span.start ∧ l.hand.span.start < l'.cursor.pos := by
  obtain ⟨l₁, h₁, hg⟩ := h
  obtain ⟨_, -, hp⟩ := hg.before
  have h₁ : l.cursor.pos ≤ l.hand.span.start ∧ l.hand.span.start < l₁.cursor.pos := by
    rcases h₁ with h₁ | ⟨u, h₁⟩
    · exact h₁.start_lt
    · exact h₁.start_lt
  omega

theorem pos_le_of_goes (h : l.Goes l') : l.cursor.pos ≤ l'.cursor.pos := by
  obtain ⟨_, -, hp⟩ := h.before
  omega

/-- The token in hand is in front of the one in hand at a later place. -/
theorem start_le_of_goes (h : l.Goes k) (ho : Opens k k') : l.hand.span.start ≤ k.hand.span.start := by
  have hk := ho.start_lt.1
  cases h with
  | stay => exact Nat.le_refl _
  | step h₁ h₂ =>
    have := h₁.start_lt.2
    have := pos_le_of_goes h₂
    omega
  | reread h₁ h₂ =>
    have := h₁.start_lt.2
    have := pos_le_of_goes h₂
    omega

theorem NodeAt.span_start (h : NodeAt k x k') : x.span.start = k.hand.span.start := by
  rw [h.span]
  rfl

theorem NodeAt.span_stop (h : NodeAt k x k') : x.span.stop = k'.cursor.pos := by
  rw [h.span]
  rfl

/-! ## Rows of nodes -/

/-- The nodes are read between two places, one behind the other, and so are the parts of each node below them. -/
structure Laid (l : Lexer) (xs : List Node) (l' : Lexer) : Prop where
  goes  : l.Goes l'
  apart : xs.Pairwise fun x y => x.span.stop ≤ y.span.start
  below : ∀ x ∈ xs, ∀ y ∈ x.all, ∃ k k', l.Goes k ∧ k'.Goes l' ∧ NodeAt k y k' ∧ (∀ z ∈ y.children, z.span.Within y.span) ∧
    y.children.Pairwise fun z w => z.span.stop ≤ w.span.start

namespace Laid

theorem none (h : l.Goes l') : Laid l [] l' := ⟨h, .nil, nofun⟩

/-- The nodes stand between the token in hand and the end of the row. -/
theorem bounds (h : Laid l xs l') (hx : x ∈ xs) : l.cursor.pos ≤ x.span.start ∧ l.hand.span.start ≤ x.span.start ∧
    x.span.stop ≤ l'.cursor.pos := by
  obtain ⟨k, k', hk, hk', hn, -⟩ := h.below x hx x x.mem_all
  have h₁ := pos_le_of_goes hk
  have h₂ := hn.opens.start_lt.1
  rw [hn.span_start, hn.span_stop]
  exact ⟨Nat.le_trans h₁ h₂, start_le_of_goes hk hn.opens, pos_le_of_goes hk'⟩

theorem trans {ys : List Node} (h : Laid l xs k) (h' : Laid k ys l') : Laid l (xs ++ ys) l' := by
  refine ⟨h.goes.trans h'.goes, ?_, fun x hx y hy => ?_⟩
  · refine List.pairwise_append.2 ⟨h.apart, h'.apart, fun x hx y hy => ?_⟩
    exact Nat.le_trans (h.bounds hx).2.2 (h'.bounds hy).1
  · rcases List.mem_append.1 hx with hx | hx
    · obtain ⟨m, m', h₁, h₂, h₃⟩ := h.below x hx y hy
      exact ⟨m, m', h₁, h₂.trans h'.goes, h₃⟩
    · obtain ⟨m, m', h₁, h₂, h₃⟩ := h'.below x hx y hy
      exact ⟨m, m', h.goes.trans h₁, h₂, h₃⟩

theorem node (hn : NodeAt l x l') (h : Laid l x.children l') : Laid l [x] l' := by
  refine ⟨h.goes, List.pairwise_singleton _ _, fun x' hx y hy => ?_⟩
  cases List.mem_singleton.1 hx
  rw [Node.all_eq] at hy
  rcases List.mem_cons.1 hy with rfl | hy
  · refine ⟨l, l', .stay, .stay, hn, fun z hz => ?_, h.apart⟩
    obtain ⟨-, h₁, h₂⟩ := h.bounds hz
    exact ⟨hn.span_start ▸ h₁, hn.span_stop ▸ h₂⟩
  · obtain ⟨z, hz, hy⟩ := List.mem_flatMap.1 hy
    exact h.below z hz y hy

theorem walk : Walk Laid where
  here := none .stay
  step h := none h.goes
  reread h := none h.goes
  trans := trans
  node := node

/-- **The nodes of a tree have exact spans.** -/
theorem exact (h : Laid l xs l') (hl : (Lexer.ofSource source).Before l) (hx : x ∈ xs) (hy : y ∈ x.all) : y.Exact source := by
  obtain ⟨k, k', hk, -, hn, hinside, hapart⟩ := h.below x hx y hy
  have hbefore := hl.trans hk.before
  have hstart := (hbefore.trans (Lexer.before_next k)).isBoundary
  have hstop := (hbefore.trans hn.opens.goes.before).isBoundary
  have hspan : k.hand.span.start = k.next.start.pos := congrArg Span.start (Lexer.next_span hn.opens.ready.outcome)
  refine ⟨?_, ?_, ?_, ?_, hinside, hapart⟩
  · rw [hn.span_start, hn.span_stop]
    exact hn.opens.start_lt.2
  · rw [hn.span_stop]
    exact hstop.2
  · rw [hn.span_start, hspan]
    exact hstart.1
  · rw [hn.span_stop]
    exact hstop.1

end Laid

/-! ## What a span cuts out -/

/-- **The expression is one by itself**: its span cuts a text out of the source, and that is read as the same expression, which
starts where the text does. -/
def StandsAlone (source : List Char) (e : Expr) : Prop :=
  ∃ text, Text.slice e.span.start e.span.stop source = some text ∧
    parseExpressionAt (String.ofList text) 0 = .ok (e.move (.left e.span.start))

/-- What is read from the start of its first token on, is read by itself. -/
theorem Derives.parse_alone {start : Nat} {text : List Char} {e : Expr}
    (h : Derives false .expression ⟨⟨start, text ++ l'.cursor.rest⟩, true⟩ e l')
    (hr : Lexer.Ready ⟨⟨start, text ++ l'.cursor.rest⟩, true⟩) :
    parseExpressionAt (String.ofList text) 0 = .ok (e.move (.left start)) := by
  have hb := h.back ⟨hr, Nat.le_refl start⟩
  have hzero : Lexer.back start ⟨⟨start, text ++ l'.cursor.rest⟩, true⟩ =
      ⟨⟨Text.byteLength [], text ++ (l'.back start).cursor.rest⟩, true⟩ := by
    simp [Lexer.back]
  rw [hzero] at hb
  obtain ⟨hc, hk⟩ := Cut.atEnd (l'.back start)
  have := parse_of_cut hb hc (endsExpression_of_kind hk rfl (by decide))
  rwa [List.nil_append, List.append_nil] at this

/-- **What is read as an expression stands alone.** -/
theorem standsAlone_of_parse {source : String} {offset : Nat} {e : Expr} (h : parseExpressionAt source offset = .ok e) :
    StandsAlone source.toList e := by
  obtain ⟨pre, text, l', hs, rfl, -, hd⟩ := exists_text_of_parse h
  have hbefore : (Lexer.ofSource source.toList).Before ⟨⟨Text.byteLength pre, text ++ l'.cursor.rest⟩, true⟩ :=
    ⟨pre, hs, (Nat.zero_add _).symm⟩
  have ho := hd.opens_of_least rfl
  obtain ⟨g, t, r, v, hf⟩ := Lexer.front_of_next ho.ready.outcome ho.ne_eof
  -- from the first token on, the text is read the same
  generalize hstart : Text.byteLength pre + Text.byteLength g = start
  have front : Lexer.Front ⟨⟨start, t ++ r⟩, true⟩ [] t r _ v false := ⟨rfl, .none, hf.bare, hf.some, hf.scan⟩
  obtain ⟨l'', hd⟩ := hd.of_front hf front rfl hstart.symm
  obtain ⟨w, hrest, hpos⟩ := hd.goes.before
  have hrest : t ++ r = w ++ l''.cursor.rest := hrest
  have hpos : l''.cursor.pos = start + Text.byteLength w := hpos
  have hspan : e.span = ⟨start, start + Text.byteLength w⟩ := by
    have hs : e.span = Lexer.upTo _ l'' := hd.spanned
    rw [hs, Lexer.upTo, hand_of_next front.next rfl, hpos]
    rfl
  have hnext : (Lexer.next ⟨⟨Text.byteLength pre, text ++ l'.cursor.rest⟩, true⟩).start = ⟨start, t ++ r⟩ := by
    rw [hf.next, ← hstart]
  have hslice := (hbefore.trans (Lexer.before_next _)).slice ((congrArg Cursor.rest hnext).trans hrest)
  rw [hnext] at hslice
  have hready : Lexer.Ready ⟨⟨start, t ++ r⟩, true⟩ := hd.ready_start rfl
  rw [hrest] at hd hready
  refine ⟨w, ?_, ?_⟩ <;> rw [hspan]
  · exact hslice
  · exact hd.parse_alone hready

/-- **A function of a tree stands alone.** -/
theorem NodeAt.standsAlone {s : Span} {name : Option String} {params : List String} {body : List Stmt}
    (h : NodeAt k (.expr (.function s name params body)) k') (hk : (Lexer.ofSource source).Before k) :
    StandsAlone source (.function s name params body) := by
  obtain ⟨b, hd⟩ := h.function
  obtain ⟨t, start, hnext, rfl, hp⟩ := hd.parse_function
  have hslice := (hk.trans (Lexer.before_next k)).slice (congrArg Cursor.rest hnext)
  rw [hnext] at hslice
  exact ⟨t, hslice, hp⟩

end Grammar

open Grammar

/-- **Spans are exact and nested**, in every program and in every expression that is read at a place of a text.  Where an
expression was read, its span cuts out a text that is read as the same one, and so does the span of every function in it. -/
theorem spans_exact (source : String) :
    (∀ p, parseProgram source = .ok p →
      p.span = ⟨0, Text.byteLength source.toList⟩ ∧ (∀ s ∈ p.body, s.span.Within p.span) ∧
        (p.body.Pairwise fun s t => s.span.stop ≤ t.span.start) ∧
        ∀ s ∈ p.body, ∀ x ∈ (Node.stmt s).all, x.Exact source.toList) ∧
    ∀ offset e, parseExpressionAt source offset = .ok e →
      (∀ x ∈ (Node.expr e).all, x.Exact source.toList) ∧ StandsAlone source.toList e ∧
        ∀ s name params body, Node.expr (.function s name params body) ∈ (Node.expr e).all →
          StandsAlone source.toList (.function s name params body) := by
  constructor
  · intro p hp
    obtain ⟨-, body, l', hd, rfl⟩ := parseProgram_eq_ok.1 hp
    have hlaid := hd.walk Laid.walk
    have hexact (s : Stmt) (hs : s ∈ body) {x : Node} (hx : x ∈ (Node.stmt s).all) : x.Exact source.toList :=
      hlaid.exact (.refl _) (List.mem_map_of_mem hs) hx
    refine ⟨rfl, fun s hs => ?_, List.pairwise_map.1 hlaid.apart, fun s hs x hx => hexact s hs hx⟩
    exact ⟨Nat.zero_le _, (hexact s hs (Node.mem_all _)).le⟩
  · intro offset e he
    obtain ⟨pre, text, l', hs, rfl, -, hd⟩ := exists_text_of_parse he
    have hbefore : (Lexer.ofSource source.toList).Before ⟨⟨Text.byteLength pre, text ++ l'.cursor.rest⟩, true⟩ :=
      ⟨pre, hs, (Nat.zero_add _).symm⟩
    have hlaid := hd.walk Laid.walk
    have hmem : Node.expr e ∈ Phrase.nodes .expression e := List.mem_singleton_self _
    refine ⟨fun x hx => hlaid.exact hbefore hmem hx, standsAlone_of_parse he, fun s name params body hf => ?_⟩
    obtain ⟨k, k', hk, -, hn, -⟩ := hlaid.below _ hmem _ hf
    exact hn.standsAlone (hbefore.trans hk.before)

/-- A function in a group, behind a letter of two bytes and with a slash in a regular expression. -/
theorem spans_exact_sample : ∃ source p e f, source = "é = (function (x) \x7b return /[/]/.test(x) \x7d)" ∧
    parseProgram source = .ok p ∧ parseExpressionAt source 5 = .ok e ∧ (Node.expr e).children = [.expr f] ∧
    (∀ s ∈ p.body, ∀ x ∈ (Node.stmt s).all, x.Exact source.toList) ∧ StandsAlone source.toList e ∧
    StandsAlone source.toList f := by
  obtain ⟨hprogram, hexpr⟩ := spans_exact "é = (function (x) \x7b return /[/]/.test(x) \x7d)"
  obtain ⟨p, hp⟩ := eq_ok_of_isOk (x := parseProgram "é = (function (x) \x7b return /[/]/.test(x) \x7d)")
    (by decide +kernel)
  obtain ⟨e, he, hf⟩ := eq_ok_of_any (x := parseExpressionAt "é = (function (x) \x7b return /[/]/.test(x) \x7d)" 5)
    (p := fun | .group _ (.function ..) => true | _ => false) (by decide +kernel)
  obtain ⟨-, halone, hfunction⟩ := hexpr 5 e he
  split at hf
  · refine ⟨_, p, _, _, rfl, hp, he, rfl, (hprogram p hp).2.2.2, halone, hfunction _ _ _ _ ?_⟩
    rw [Node.all_eq]
    exact List.mem_cons_of_mem _ (List.mem_flatMap.2 ⟨_, List.mem_singleton_self _, Node.mem_all _⟩)
  · cases hf

end Readback
