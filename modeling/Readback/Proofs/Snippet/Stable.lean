import Readback.Proofs.Grammar.Label
import Readback.Proofs.Snippet.Expression
/-!
# Normalizing twice

A text that has been normalized is left alone when it is normalized again.  But a block that was taken for an object literal,
and is none, is not even read any more.
-/
namespace Readback

open Token (Gap)

namespace Grammar

variable {b : Bool} {l l₁ l₂ l₃ l₄ l₅ l' : Lexer} {e : Expr}

/-- Behind a block at the end of a text, the text goes on in the next line with a closing parenthesis. -/
theorem Label.cut_close (h : Label b l l₁ l₂ l₃ l₄ l₅ l' e) (hl : l'.hand.kind = .eof) :
    ∃ newline, Gap (l'.cursor.rest ++ ['\n']) newline ∧
      Cut 1 l'.cursor.rest ((l'.cursor.rest ++ ['\n']) ++ [')']) l' := by
  obtain ⟨newline, hg⟩ := Token.gap_of_bare (Lexer.eof_iff_bare.1 ⟨_, h.closes.ready'.outcome, hl⟩)
  refine ⟨newline, hg, cut_of_gap hg ?_ fun _ => ?_⟩
  · cases l'.cursor.rest with
    | nil => exact .of_mem (by decide) _ _
    | cons c cs => exact .inl rfl
  · rw [regexAllowed_of_steps h.closes.toSteps, h.closes.kind]
    rfl

end Grammar

namespace Snippet

open Grammar

/-- The text between the end of an expression and that of its statement ends with a semicolon. -/
def endsInSemicolon (source : List Char) (expression statement : Span) : Bool :=
  (Text.slice expression.stop statement.stop source).any (·.getLast? == some ';')

/-- The program is taken for an object literal, and is none: it is a block with a label, and the statement behind the label
is an expression with a semicolon, or a sequence in which an item behind the first is not a name. -/
def isMistaken (source : String) : Bool :=
  match parseProgram source with
  | .error _ => false
  | .ok p    =>
    match p.body with
    | [.block _ [.labeled _ _ (.expression s e)]] => endsInSemicolon source.toList e.span s || hasLooseItem e
    | _                                           => false

theorem programText_eq {source : String} {body : List Stmt} (h : ∀ s xs, body = [.block s xs] →
    ¬ (xs = [] ∨ ∃ s₁ name s₂ e, xs = [.labeled s₁ name (.expression s₂ e)])) : programText source body = source := by
  unfold programText
  split
  · exact absurd (.inl rfl) (h _ _ rfl)
  · exact absurd (.inr ⟨_, _, _, _, rfl⟩) (h _ _ rfl)
  · rfl

/-- **A block with a label is put in parentheses.**  No other program is mistaken: an empty block becomes an empty object, and
the rest keep their texts. -/
theorem program_cases {source : String} {p : Program} (hp : parseProgram source = .ok p) :
    (∃ s s₁ name s₂ e, p.body = [.block s [.labeled s₁ name (.expression s₂ e)]] ∧
      programText source p.body = "(" ++ source ++ "\n)") ∨
    (isMistaken source = false ∧ (programText source p.body = "(\x7b\x7d)" ∨ programText source p.body = source)) := by
  unfold isMistaken
  rw [hp]
  dsimp only
  split
  · rename_i s s₁ name s₂ e hb
    exact .inl ⟨s, s₁, name, s₂, e, hb, by rw [hb]; rfl⟩
  · rename_i hlabel
    refine .inr ⟨rfl, ?_⟩
    unfold programText
    split
    · exact .inl rfl
    · rename_i hb
      exact (hlabel _ _ _ _ _ hb).elim
    · exact .inr rfl

/-- The semicolon behind the expression of a label is seen in the text. -/
theorem endsInSemicolon_iff {cs : List Char} {l l₁ l₂ l₃ l₄ l₅ l' : Lexer} {e : Expr}
    (h : Label false l l₁ l₂ l₃ l₄ l₅ l' e) (hcs : l = .ofSource cs) :
    endsInSemicolon cs e.span (l₃.upTo l₅) = true ↔ l₄.hand.kind = .semicolon := by
  have hgoes : l.Goes l₄ := h.opens.goes.trans (h.name.goes.trans (h.colon.goes.trans h.body.goes))
  obtain ⟨pre, hpre, hpos⟩ := hgoes.before
  have hstop : e.span.stop = l₄.cursor.pos := by
    have hs : e.span = l₃.upTo l₄ := h.body.spanned
    rw [hs]
    rfl
  subst hcs
  have hpos : l₄.cursor.pos = Text.byteLength pre := hpos.trans (Nat.zero_add _)
  have hcs : cs = pre ++ l₄.cursor.rest := hpre
  unfold endsInSemicolon Text.slice
  rw [hstop, hpos, hcs, Text.dropBytes_byteLength_append]
  rcases h.kind with h₁ | ⟨rfl, h₁⟩
  · obtain ⟨g, t, r, v, hf⟩ := Lexer.front_of_next h₁.ready.outcome h₁.more
    obtain ⟨-, ht⟩ := hf.punctuator (by rw [h₁.kind]; rfl)
    have hall : ∀ p ∈ Token.punctuators, p.2 = .semicolon → p.1 = [';'] := by decide
    obtain rfl : t = [';'] := hall _ ht h₁.kind
    have h₅ : (l₃.upTo l₅).stop = Text.byteLength pre + Text.byteLength (g ++ [';']) := by
      rw [Lexer.upTo, h₁.after, hf.next, Text.byteLength_append, ← Nat.add_assoc, ← hpos]
    rw [h₅, if_pos (Nat.le_add_right _ _), Nat.add_sub_cancel_left, hf.rest, ← List.append_assoc, Option.bind_some,
      Text.takeBytes_byteLength_append, Option.any_some, List.getLast?_append]
    exact iff_of_true rfl h₁.kind
  · have h₄ : (l₃.upTo l₄).stop = Text.byteLength pre := hpos
    rw [h₄, if_pos (Nat.le_refl _), Nat.sub_self, Option.bind_some, Text.takeBytes_zero]
    refine iff_of_false Bool.false_ne_true fun hk => ?_
    cases h₁.kind.symm.trans hk

end Snippet

/-! ## Whole expressions -/

open Grammar Snippet

theorem normalize_false (source : String) :
    normalize source false =
      match parseProgram source with
      | .ok p    => .ok (programText source p.body)
      | .error _ => normalize source true := rfl

/-- A text that is an expression, up to its end. -/
structure Whole (t : String) (e : Expr) : Prop where
  parse : parseExpressionAt t 0 = .ok e
  stop  : e.span.stop = Text.byteLength t.toList

theorem eq_nil_of_byteLength {cs : List Char} (h : Text.byteLength cs = 0) : cs = [] := by
  cases cs with
  | nil => rfl
  | cons c cs =>
    have := c.utf8Size_pos
    rw [Text.byteLength_cons] at h
    omega

theorem Whole.readOff {t : String} {e : Expr} (h : Whole t e) :
    ∃ l', ReadOff t.toList e t.toList l' ∧ l'.cursor.rest = [] := by
  obtain ⟨text, l', hr⟩ := readOff_iff.2 h.parse
  have hs := h.stop
  rw [hr.stop, hr.split, Text.byteLength_append] at hs
  have hn := eq_nil_of_byteLength (Nat.left_eq_add.1 hs)
  have ht := hr.split
  rw [hn, List.append_nil] at ht
  exact ⟨l', ht ▸ hr, hn⟩

/-- A text that is an expression is left alone as one, unless it wants parentheses. -/
theorem Whole.normalize_true {t : String} {e : Expr} (h : Whole t e) (he : e.needsParens = false) :
    normalize t true = .ok t := by
  obtain ⟨l', hr, hn⟩ := h.readOff
  refine normalize_expression_eq_ok.2 ⟨e, t.toList, l', hr, hn ▸ .bare Token.bare_nil, ?_⟩
  rw [wrap, he]
  exact (String.ofList_toList).symm

/-- **A text that is an expression is left alone**, unless it wants parentheses. -/
theorem Whole.normalize {t : String} {e : Expr} (h : Whole t e) (he : e.needsParens = false) :
    normalize t false = .ok t := by
  rw [normalize_false]
  cases hp : parseProgram t with
  | error d => exact h.normalize_true he
  | ok p =>
    obtain ⟨-, body, m, hd, rfl⟩ := parseProgram_eq_ok.1 hp
    obtain ⟨l', hr, -⟩ := h.readOff
    refine congrArg Except.ok (programText_eq ?_)
    rintro s xs rfl hxs
    obtain ⟨hblock, hm⟩ := block_of_derivesAll hd
    obtain ⟨s', props, ho⟩ := object_of_block hblock hr.derives.led hxs
    have hx := ho.expression_of_primary (opensPrimary_of_primary ho).1 (endsExpression_of_kind hm rfl nofun)
    rw [(hr.derives.unique hx).1] at he
    cases he

/-! ## Blocks in parentheses -/

theorem toList_parens (source : String) :
    ("(" ++ source ++ "\n)").toList = '(' :: (source.toList ++ ['\n', ')']) := by
  rw [String.toList_append, String.toList_append]
  rfl

section

variable {source : String} {l₁ l₂ l₃ l₄ l₅ l' : Lexer} {e : Expr}

/-- **A block that is an object literal is one in parentheses.** -/
theorem whole_of_label (h : Label false (.ofSource source.toList) l₁ l₂ l₃ l₄ l₅ l' e) (hl : l'.hand.kind = .eof)
    (hk : l₄.hand.kind = .rBrace) (he : hasLooseItem e = false) :
    ∃ s e', Whole ("(" ++ source ++ "\n)") (.group s e') := by
  obtain ⟨newline, hg, hc⟩ := h.cut_close hl
  obtain ⟨s, props, ho⟩ := h.object hk he
  have hx := ho.expression_of_primary (opensPrimary_of_primary ho).1 (endsExpression_of_kind hl rfl nofun)
  obtain ⟨pre, hpre, -⟩ := hx.goes.before
  have hpre : source.toList = pre ++ l'.cursor.rest := hpre
  rw [hpre] at hx
  obtain ⟨hready, m, hm, hd⟩ := hx.grouped hg hc
  have ht : ("(" ++ source ++ "\n)").toList = '(' :: (pre ++ ((l'.cursor.rest ++ ['\n']) ++ [')'])) := by
    rw [toList_parens, hpre]
    simp only [List.append_assoc, List.cons_append, List.nil_append]
  rw [← ht] at hready hd
  exact ⟨_, _, parseExpressionAt_zero.2 ⟨hready, m, (ready_of_rest_eq_nil hm).1, hd⟩, rfl⟩

/-- **A block that is no object literal is nothing in parentheses.** -/
theorem not_leads_of_label (h : Label false (.ofSource source.toList) l₁ l₂ l₃ l₄ l₅ l' e) (hl : l'.hand.kind = .eof)
    (hk : ¬ (l₄.hand.kind = .rBrace ∧ hasLooseItem e = false)) :
    (Lexer.ofSource ("(" ++ source ++ "\n)").toList).hand.kind = .lParen ∧
      ¬ Leads false (.ofSource ("(" ++ source ++ "\n)").toList) := by
  obtain ⟨newline, hg, hc⟩ := h.cut_close hl
  have hgoes : (Lexer.ofSource source.toList).Goes l' := h.opens.goes.trans (h.name.goes.trans (h.colon.goes.trans
    (h.body.goes.trans (h.ending.goes.trans h.closes.goes))))
  obtain ⟨pre, hpre, -⟩ := hgoes.before
  have hpre : source.toList = pre ++ l'.cursor.rest := hpre
  have hopen := takes_open (hpre ▸ hc.ready_of_goes hgoes)
  have ht : ("(" ++ source ++ "\n)").toList = '(' :: (pre ++ ((l'.cursor.rest ++ ['\n']) ++ [')'])) := by
    rw [toList_parens, hpre]
    simp only [List.append_assoc, List.cons_append, List.nil_append]
  rw [ht]
  refine ⟨hopen.kind, fun hleads => hk ?_⟩
  obtain ⟨e', m, hd⟩ := (hleads.bracket hopen).1 rfl
  rw [← hpre] at hd
  obtain ⟨hcut, hkind⟩ := h.cut hc
  obtain ⟨h₁, h₂⟩ := hcut.of_leads hd.led
  exact ⟨hkind.symm.trans h₁, (hasLooseItem_move _ e).symm.trans h₂⟩

/-- A text that does not start as an expression, nor as a statement of a sort of its own, is not normalized. -/
theorem normalize_error (hk : opensStatement (Lexer.ofSource source.toList).hand.kind = false)
    (hn : (Lexer.ofSource source.toList).hand.kind ≠ .eof) (h : ¬ Leads false (.ofSource source.toList)) :
    ∃ d, normalize source false = .error d := by
  have hd : ∀ {e : Expr} {m : Lexer}, ¬ Derives false .expression (.ofSource source.toList) e m := fun hd => h hd.led
  rw [normalize_false]
  cases hp : parseProgram source with
  | ok p =>
    obtain ⟨-, body, m, hall, rfl⟩ := parseProgram_eq_ok.1 hp
    cases hall with
    | done he => exact absurd he hn
    | more _ h₁ =>
      obtain ⟨_, _, he⟩ := expression_of_statement h₁ hk
      exact absurd he hd
  | error d =>
    cases hx : normalize source true with
    | error d' => exact ⟨d', rfl⟩
    | ok t =>
      obtain ⟨_, _, _, hr, -⟩ := normalize_expression_eq_ok.1 hx
      exact absurd hr.derives hd

/-- A program that is a block with a label was mistaken unless the block, and the expression in it, can be read as an object
literal too. -/
theorem label_of_program {p : Program} {s s₁ s₂ : Span} {name : String} (hp : parseProgram source = .ok p)
    (hb : p.body = [.block s [.labeled s₁ name (.expression s₂ e)]]) :
    ∃ l₁ l₂ l₃ l₄ l₅ l', Label false (.ofSource source.toList) l₁ l₂ l₃ l₄ l₅ l' e ∧ l'.hand.kind = .eof ∧
      (isMistaken source = false ↔ l₄.hand.kind = .rBrace ∧ hasLooseItem e = false) := by
  have hm : isMistaken source = (endsInSemicolon source.toList e.span s₂ || hasLooseItem e) := by
    unfold isMistaken
    rw [hp]
    dsimp only
    rw [hb]
  obtain ⟨-, body, m, hd, rfl⟩ := parseProgram_eq_ok.1 hp
  dsimp only at hb
  rw [hb] at hd
  obtain ⟨hblock, hl⟩ := block_of_derivesAll hd
  obtain ⟨l₁, l₂, l₃, l₄, l₅, h, rfl⟩ := label_of_block hblock
  have hsemi := endsInSemicolon_iff h rfl
  refine ⟨l₁, l₂, l₃, l₄, l₅, m, h, hl, ?_⟩
  rw [hm, Bool.or_eq_false_iff, Bool.eq_false_iff, ne_eq, hsemi]
  rcases h.kind with h₁ | ⟨-, h₁⟩ <;> simp [h₁.kind]

/-- A block with a label, put in parentheses, is left alone if it was not mistaken, and is nothing if it was. -/
theorem normalize_label {p : Program} {s s₁ s₂ : Span} {name : String} (hp : parseProgram source = .ok p)
    (hb : p.body = [.block s [.labeled s₁ name (.expression s₂ e)]]) :
    (isMistaken source = false → normalize ("(" ++ source ++ "\n)") false = .ok ("(" ++ source ++ "\n)")) ∧
      (isMistaken source = true → ∃ d, normalize ("(" ++ source ++ "\n)") false = .error d) := by
  obtain ⟨l₁, l₂, l₃, l₄, l₅, m, h, hl, hiff⟩ := label_of_program hp hb
  constructor
  · intro hf
    obtain ⟨hk, he⟩ := hiff.1 hf
    obtain ⟨s', e', hw⟩ := whole_of_label h hl hk he
    exact hw.normalize rfl
  · intro ht
    obtain ⟨hk, hleads⟩ := not_leads_of_label h hl fun hn => by
      rw [hiff.2 hn] at ht
      cases ht
    exact normalize_error (by rw [hk]; rfl) (by rw [hk]; nofun) hleads

end

/-- **A text that has been normalized is left alone**, and a block that was mistaken for an object literal is an error: it is
put in parentheses, and there it is nothing. -/
theorem normalize_stable {source t : String} (h : normalize source false = .ok t) :
    (isMistaken source = false → normalize t false = .ok t) ∧
      (isMistaken source = true → t = "(" ++ source ++ "\n)" ∧ ∃ d, normalize t false = .error d) := by
  rw [normalize_false] at h
  cases hp : parseProgram source with
  | error d =>
    rw [hp] at h
    have hm : isMistaken source = false := by rw [isMistaken, hp]
    refine ⟨fun _ => ?_, fun ht => nomatch hm.symm.trans ht⟩
    obtain ⟨e, text, l', hr, -, rfl⟩ := normalize_expression_eq_ok.1 h
    refine (Whole.mk hr.parse_wrap hr.stop_wrap).normalize ?_
    by_cases hn : e.needsParens = true
    · rw [if_pos hn]
      rfl
    · rw [if_neg hn]
      simpa using hn
  | ok p =>
    rw [hp] at h
    cases h
    obtain ⟨s, s₁, name, s₂, e, hb, ht⟩ | ⟨hm, ht⟩ := program_cases hp
    · rw [ht]
      obtain ⟨h₁, h₂⟩ := normalize_label hp hb
      exact ⟨h₁, fun hm => ⟨rfl, h₂ hm⟩⟩
    · refine ⟨fun _ => ?_, fun hm' => nomatch hm.symm.trans hm'⟩
      rcases ht with ht | ht
      · rw [ht]
        decide +kernel
      · rw [ht, normalize_false, hp]
        exact congrArg Except.ok ht

/-- A semicolon behind a label makes the difference. -/
theorem normalize_stable_semicolon :
    (normalize "\x7ba: 1\x7d" false = .ok "(\x7ba: 1\x7d\n)" ∧
      normalize "(\x7ba: 1\x7d\n)" false = .ok "(\x7ba: 1\x7d\n)") ∧
    (normalize "\x7ba: 1;\x7d" false = .ok "(\x7ba: 1;\x7d\n)" ∧
      ∃ d, normalize "(\x7ba: 1;\x7d\n)" false = .error d) := by
  have h₁ : normalize "\x7ba: 1\x7d" false = .ok "(\x7ba: 1\x7d\n)" := by decide +kernel
  have h₂ : normalize "\x7ba: 1;\x7d" false = .ok "(\x7ba: 1;\x7d\n)" := by decide +kernel
  exact ⟨⟨h₁, (normalize_stable h₁).1 (by decide +kernel)⟩, h₂, ((normalize_stable h₂).2 (by decide +kernel)).2⟩

end Readback
