import Readback.Proofs.Grammar.Back
import Readback.Proofs.Grammar.Climb
import Readback.Proofs.Grammar.Layout
import Readback.Proofs.Grammar.Start
/-!
# One program behind another

Where a text ends, its last statement ends.  It ends as well in front of a semicolon on a line of its own, or with it: all
that is asked of a statement is what may stand behind it.  Behind the semicolon a text is read as it is by itself.
-/
namespace Readback

namespace Grammar

open Token (Kind)
open Lexer (swap)

/-! ## A semicolon in the place of the end -/

/-- Another text goes on with a semicolon where a text ends, and behind it not with the other branch of a statement. -/
structure Closed (m : Move) (φ : Lexer → Lexer) (e c : Lexer) : Prop where
  transport : Transport m (·.Goes e) φ
  semicolon : (φ e).Takes .semicolon c
  behind    : c.hand.kind ≠ .keyword .else

/-- The sorts of phrases that end with a statement. -/
def Phrase.isTail : Phrase → Bool
  | .statement | .alternative => true
  | _ => false

/-- The phrase is one of the other text too, apart from the spans, and ends in front of the semicolon or behind it. -/
def Closes (φ : Lexer → Lexer) (e c : Lexer) (b : Bool) (p : Phrase) (l : Lexer) (a : p.Result) : Prop :=
  ∃ a' k, (k = φ e ∨ k = c) ∧ Derives b p (φ l) a' k ∧ p.move .erase a' = p.move .erase a

section

variable {m : Move} {φ : Lexer → Lexer} {e c l l₁ l₂ l₃ l₄ l₅ l₆ l₇ l₈ l' : Lexer} {b : Bool} {p : Phrase}

/-- In the other text a semicolon is behind what a statement ends with. -/
theorem Closed.ending {a : p.Result} {u : Unit} (C : Closed m φ e c) (h : Derives b p l a l₁)
    (hu : Derives b .ending l₁ u e) (hp : p.endsAt (φ e).hand) :
    Derives b p (φ l) (p.move m a) (φ l₁) ∧ ∃ k, (k = φ e ∨ k = c) ∧ (φ l₁).Takes .semicolon k := by
  cases hu with
  | semicolon h₁ =>
    have i := C.transport.inner h₁.toSteps .stay
    exact ⟨h.moved C.transport i.stands, _, .inl rfl, C.transport.takes h₁ .stay⟩
  | lineEnd => exact ⟨h.moved C.transport ⟨.stay, .inr hp⟩, _, .inr rfl, C.semicolon⟩

theorem choose_closed {x : Expr} {yes : Stmt} {no : Option Stmt} (C : Closed m φ e c) (h₁ : l.Takes (.keyword .if) l₁)
    (h₂ : Derives b .condition l₁ x l₂) (h₃ : Derives b .statement l₂ yes l₃) (h₄ : Derives b .alternative l₃ no e)
    (c₃ : l₃ = e → Closes φ e c b .statement l₂ yes) (c₄ : Closes φ e c b .alternative l₃ no) :
    Closes φ e c b .statement l (.choose (l.upTo e) x yes no) := by
  have T := C.transport
  have g₂ := h₃.goes.trans h₄.goes
  have t₁ := T.takes h₁ (h₂.goes.trans g₂)
  have d₂ := h₂.moved T ⟨g₂, .inr trivial⟩
  cases h₄ with
  | alternative h₅ h₆ =>
    obtain ⟨no, k, hk, d₄, hno⟩ := c₄
    have i₃ := T.inner h₅.toSteps h₆.goes
    refine ⟨_, k, hk, .choose t₁ d₂ (h₃.moved T i₃.stands) d₄, ?_⟩
    simp only [Phrase.move, Stmt.move, Stmt.move_move, Expr.move_move] at hno ⊢
    rw [hno]
    rfl
  | noAlternative =>
    -- the statement of the branch has taken the semicolon, or it is in hand
    obtain ⟨yes, k, hk, d₃, hyes⟩ := c₃ rfl
    have hk' : k.hand.kind ≠ .keyword .else := by
      rcases hk with rfl | rfl
      · simp [C.semicolon.kind]
      · exact C.behind
    refine ⟨_, k, hk, .choose t₁ d₂ d₃ (.noAlternative hk'), ?_⟩
    simp only [Phrase.move, Stmt.move, Expr.move_move] at hyes ⊢
    rw [hyes]
    rfl

theorem doLoop_closed {x : Expr} {body : Stmt} {u : Unit} (C : Closed m φ e c) (h₁ : l.Takes (.keyword .do) l₁)
    (h₂ : Derives b .statement l₁ body l₂) (h₃ : l₂.Takes (.keyword .while) l₃) (h₄ : Derives b .condition l₃ x l₄)
    (h₅ : Derives b .whileEnd l₄ u e) : Closes φ e c b .statement l (.doLoop (l.upTo e) body x) := by
  have T := C.transport
  obtain ⟨k, hk, d₅⟩ : ∃ k, (k = φ e ∨ k = c) ∧ Derives b .whileEnd (φ l₄) () k := by
    cases h₅ with
    | whileSemicolon h => exact ⟨_, .inl rfl, .whileSemicolon (T.takes h .stay)⟩
    | whileEnd => exact ⟨_, .inr rfl, .whileSemicolon C.semicolon⟩
  have g₃ := h₄.goes.trans h₅.goes
  have i₂ := T.inner h₃.toSteps g₃
  have d₂ := h₂.moved T i₂.stands
  have d₄ := h₄.moved T ⟨h₅.goes, .inr trivial⟩
  exact ⟨_, k, hk, .doLoop (T.takes h₁ (h₂.goes.trans i₂.inside)) d₂ (T.takes h₃ g₃) d₄ d₅,
    Stmt.bare_move m (.doLoop (l.upTo e) body x)⟩

theorem forLoop_closed {init : Option Stmt} {test step : Option Expr} {body : Stmt} (C : Closed m φ e c)
    (h₁ : l.Takes (.keyword .for) l₁) (h₂ : l₁.Takes .lParen l₂) (h₃ : Derives b .forInit l₂ init l₃)
    (h₄ : l₃.Takes .semicolon l₄) (h₅ : Derives b (.expressionUnless .semicolon) l₄ test l₅) (h₆ : l₅.Takes .semicolon l₆)
    (h₇ : Derives b (.expressionUnless .rParen) l₆ step l₇) (h₈ : l₇.Takes .rParen l₈) (h₉ : Derives b .statement l₈ body e)
    (c₉ : Closes φ e c b .statement l₈ body) :
    Closes φ e c b .statement l (.forLoop (l.upTo e) init test step body) := by
  have T := C.transport
  obtain ⟨body, k, hk, d₉, hbody⟩ := c₉
  have i₇ := T.inner h₈.toSteps h₉.goes
  have i₆ := h₇.inner_of_inner T i₇
  have i₅ := T.inner h₆.toSteps i₆.inside
  have i₄ := h₅.inner_of_inner T i₅
  have i₃ := T.inner h₄.toSteps i₄.inside
  have i₂ := h₃.inner_of_inner T i₃
  have i₁ := T.inner h₂.toSteps i₂.inside
  refine ⟨_, k, hk, .forLoop (T.takes h₁ i₁.inside) (T.takes h₂ i₂.inside) (h₃.moved T i₃.stands)
    (T.takes h₄ i₄.inside) (h₅.moved T i₅.stands) (T.takes h₆ i₆.inside) (h₇.moved T i₇.stands)
    (T.takes h₈ h₉.goes) d₉, ?_⟩
  simp only [Phrase.move, Stmt.move, moveBranch_move, moveValue_move] at hbody ⊢
  rw [hbody]
  rfl

/-- **A statement that ends with the text** is one of the other text. -/
theorem Derives.closed {a : p.Result} (h : Derives b p l a l') (C : Closed m φ e c) (he : l' = e)
    (hp : p.isTail = true) : Closes φ e c b p l a := by
  have T := C.transport
  have hexpr : endsExpression (φ e).hand := endsExpression_of_kind C.semicolon.kind rfl nofun
  have hstop : endsStatement (φ e).hand = true := by simp [endsStatement, C.semicolon.kind]
  have hname : (φ e).hand.kind ≠ .identifier := by simp [C.semicolon.kind]
  -- up to the spans, what is made of moved parts is moved
  have said {x x' : Stmt} (h : x'.bare = (x.move m).bare) :
      Phrase.move .erase .statement x' = Phrase.move .erase .statement x := h.trans (x.bare_move m)
  induction h with
  -- statements that end by themselves
  | empty h₁ =>
    subst he
    exact ⟨_, _, .inl rfl, .empty (T.takes h₁ .stay), rfl⟩
  | blockStatement h₁ =>
    subst he
    exact ⟨_, _, .inl rfl, .blockStatement (h₁.moved T ⟨.stay, .inr trivial⟩), said rfl⟩
  | functionStatement h₁ h₂ h₃ =>
    subst he
    have t₂ := T.takes h₂ h₃.goes
    have d := Derives.functionStatement (T.takes h₁ (h₂.goes.trans h₃.goes)) t₂ (h₃.moved T ⟨.stay, .inr trivial⟩)
    rw [(T.same h₂.toSteps h₃.goes).text] at d
    exact ⟨_, _, .inl rfl, d, said rfl⟩
  -- statements that end with one
  | choose h₁ h₂ h₃ h₄ _ c₃ c₄ =>
    subst he
    exact choose_closed C h₁ h₂ h₃ h₄ (fun he => c₃ he rfl) (c₄ rfl rfl)
  | whileLoop h₁ h₂ h₃ _ c₃ =>
    subst he
    obtain ⟨body, k, hk, d₃, hbody⟩ := c₃ rfl rfl
    have g₂ := h₃.goes
    refine ⟨_, k, hk, .whileLoop (T.takes h₁ (h₂.goes.trans g₂)) (h₂.moved T ⟨g₂, .inr trivial⟩) d₃, ?_⟩
    simp only [Phrase.move, Stmt.move, Expr.move_move] at hbody ⊢
    rw [hbody]
    rfl
  | doLoop h₁ h₂ h₃ h₄ h₅ =>
    subst he
    exact doLoop_closed C h₁ h₂ h₃ h₄ h₅
  | forLoop h₁ h₂ h₃ h₄ h₅ h₆ h₇ h₈ h₉ _ _ _ c₉ =>
    subst he
    exact forLoop_closed C h₁ h₂ h₃ h₄ h₅ h₆ h₇ h₈ h₉ (c₉ rfl rfl)
  | labeled h₁ h₂ h₃ h₄ _ c₄ =>
    subst he
    obtain ⟨body, k, hk, d₄, hbody⟩ := c₄ rfl rfl
    have i₁ := T.inner h₃.toSteps h₄.goes
    have i := h₂.inner_of_inner T i₁
    refine ⟨_, k, hk, .labeled (i.same.kind.symm ▸ h₁) (h₂.moved T i₁.stands) (T.takes h₃ h₄.goes) d₄, ?_⟩
    simp only [Phrase.move, Stmt.move] at hbody ⊢
    rw [hbody]
    rfl
  | alternative h₁ h₂ c₂ =>
    subst he
    obtain ⟨no, k, hk, d₂, hno⟩ := c₂ rfl rfl
    exact ⟨_, k, hk, .alternative (T.takes h₁ h₂.goes) d₂, congrArg some hno⟩
  | noAlternative h₁ =>
    subst he
    exact ⟨_, _, .inl rfl, .noAlternative (by simp [C.semicolon.kind]), rfl⟩
  -- statements that end with a semicolon, or where a line ends
  | returns h₁ h₂ h₃ =>
    subst he
    obtain ⟨d₂, k, hk, d₃⟩ := C.ending h₂ h₃ ⟨hexpr, hstop⟩
    exact ⟨_, k, hk, .returns (T.takes h₁ (h₂.goes.trans h₃.goes)) d₂ (.semicolon d₃), said rfl⟩
  | breaks h₁ h₂ h₃ =>
    subst he
    obtain ⟨d₂, k, hk, d₃⟩ := C.ending h₂ h₃ hname
    exact ⟨_, k, hk, .breaks (T.takes h₁ (h₂.goes.trans h₃.goes)) d₂ (.semicolon d₃), rfl⟩
  | continues h₁ h₂ h₃ =>
    subst he
    obtain ⟨d₂, k, hk, d₃⟩ := C.ending h₂ h₃ hname
    exact ⟨_, k, hk, .continues (T.takes h₁ (h₂.goes.trans h₃.goes)) d₂ (.semicolon d₃), rfl⟩
  | throws h₁ h₂ h₃ h₄ =>
    subst he
    obtain ⟨d₃, k, hk, d₄⟩ := C.ending h₃ h₄ hexpr
    have i₁ := h₃.inner T rfl h₄.goes
    exact ⟨_, k, hk, .throws (T.takes h₁ i₁.inside) (i₁.same.newline.symm ▸ h₂) d₃ (.semicolon d₄), said rfl⟩
  | declare h₁ h₂ h₃ h₄ =>
    subst he
    obtain ⟨d₃, k, hk, d₄⟩ := C.ending h₃ h₄ hexpr
    have g₁ := h₃.goes.trans h₄.goes
    exact ⟨_, k, hk, .declare (T.steps h₁ g₁) ((T.same h₁ g₁).kind.symm ▸ h₂) d₃ (.semicolon d₄), said rfl⟩
  | expressionStatement h₁ h₂ h₃ h₄ =>
    subst he
    obtain ⟨d₂, k, hk, d₄⟩ := C.ending h₂ h₄ hexpr
    have i := h₂.inner T rfl h₄.goes
    exact ⟨_, k, hk, .expressionStatement (i.same.kind.symm ▸ h₁) d₂ (by simp [d₄.kind]) (.semicolon d₄), said rfl⟩
  | _ => cases hp

/-! ## What is behind the semicolon -/

/-- Nothing that starts a statement is the other branch of one in front. -/
theorem ne_else_of_statement {x : Stmt} (h : Derives b .statement l x l') : l.hand.kind ≠ .keyword .else := by
  intro hk
  obtain ⟨e, k, he⟩ := expression_of_statement h (by rw [hk]; rfl)
  exact Leads.ne_else he.led hk

/-- **Behind the end of a line a text has the statements that it has by itself.** -/
theorem DerivesAll.behind_line {cs : List Char} {body : List Stmt} {n : Nat} (h : DerivesAll (.ofSource cs) body l')
    (hr : (Lexer.ofSource cs).Ready) (hc : c = ⟨⟨n, '\n' :: cs⟩, true⟩) :
    c.Ready ∧ c.hand.kind ≠ .keyword .else ∧ ∃ body' f, DerivesAll c body' f ∧ body'.map Stmt.bare = body.map Stmt.bare := by
  subst hc
  cases h with
  | done hk =>
    obtain ⟨hready, hhand⟩ := Lexer.hand_of_bare (l := ⟨⟨n, '\n' :: cs⟩, true⟩)
      ((Token.bare_cons (by decide)).2 (Lexer.bare_of_eof hr hk))
    refine ⟨hready, ?_, [], _, .done ?_, rfl⟩ <;> rw [hhand]
    nofun
  | more hk h₁ h₂ =>
    obtain ⟨g, t, r, v, hf⟩ := Lexer.front_of_next hr.outcome hk
    -- the text by itself, moved behind the line, and with the end of the line in front
    have front : Lexer.Front ((Lexer.ofSource cs).slide (· + (n + 1))) g t r _ v _ :=
      ⟨hf.rest, hf.gap, hf.bare, hf.some, hf.scan⟩
    have behind : Lexer.Front ⟨⟨n, '\n' :: cs⟩, true⟩ ('\n' :: g) t r _ v _ :=
      ⟨congrArg ('\n' :: ·) hf.rest, .space (by decide) hf.gap, hf.bare, hf.some, hf.scan⟩
    have hpos : n + Text.byteLength ('\n' :: g) = 0 + (n + 1) + Text.byteLength g := by
      rw [Text.byteLength_cons, show ('\n').utf8Size = 1 from rfl]
      omega
    have hkind : (Lexer.hand ⟨⟨n, '\n' :: cs⟩, true⟩).kind = (Lexer.ofSource cs).hand.kind := by
      rw [hand_of_next behind.next rfl]
    have hd := (DerivesAll.more hk h₁ h₂).slide (rigid_right (n + 1)) ⟨hr, Nat.zero_le _⟩
    obtain ⟨f, hd⟩ := hd.of_front front behind hk rfl hpos
    refine ⟨⟨_, congrArg Lexer.Step.outcome behind.next⟩, hkind ▸ ne_else_of_statement h₁, _, f, hd, ?_⟩
    simp [moveBody_eq_map]

/-! ## Programs -/

/-- What the statements of a program say: those that say nothing are left out, and so are the spans. -/
def content (body : List Stmt) : List Stmt := (body.map Stmt.bare).filter (!·.isEmpty)

theorem content_cons {x y : Stmt} (h : x.bare = y.bare) (xs : List Stmt) : content (x :: xs) = content [y] ++ content xs := by
  unfold content
  rw [List.map_cons, h, List.map_singleton, ← List.filter_append]
  rfl

/-- **Statements go on behind a semicolon** that stands where they ended. -/
theorem DerivesAll.closed {body rest : List Stmt} {f : Lexer} (h : DerivesAll l body l') (C : Closed m φ l' c)
    (hr : DerivesAll c rest f) : ∃ body', DerivesAll (φ l) body' f ∧ content body' = content body ++ content rest := by
  induction h with
  | done hk =>
    refine ⟨_, .more ?_ (.empty C.semicolon) hr, rfl⟩
    simp [C.semicolon.kind]
  | @more l x l₁ xs l' hk h₁ h₂ ih =>
    obtain ⟨body', hd, hb⟩ := ih C
    have hk' := (h₁.inner C.transport rfl h₂.goes).same.kind.symm ▸ hk
    have hgoal {x'} (hx : Stmt.bare x' = x.bare) : content (x' :: body') = content (x :: xs) ++ content rest := by
      rw [content_cons hx, hb, content_cons (rfl : x.bare = x.bare) xs, List.append_assoc]
    cases h₂ with
    | done =>
      obtain ⟨x', k, rfl | rfl, d, hx⟩ := h₁.closed C rfl rfl
      · exact ⟨_, .more hk' d hd, hgoal hx⟩
      · exact ⟨_, .more hk' d hr, content_cons hx _⟩
    | more _ h₃ h₄ =>
      have i₁ := h₃.inner C.transport rfl h₄.goes
      exact ⟨_, .more hk' (h₁.moved C.transport i₁.stands) hd, hgoal (x.bare_move m)⟩

/-- **Where a text ends, another may go on** with a semicolon on a line of its own. -/
theorem Cut.atLine {g z : List Char} (he : e.Ready) (hk : e.hand.kind = .eof) (hg : e.cursor.rest = g)
    (hz : Lexer.Ready ⟨⟨e.cursor.pos + Text.byteLength (g ++ ['\n', ';']), z⟩, true⟩) :
    Cut 0 g (g ++ '\n' :: ';' :: z) e ∧ (swap 0 g (g ++ '\n' :: ';' :: z) e).Takes .semicolon
      ⟨⟨e.cursor.pos + Text.byteLength (g ++ ['\n', ';']), z⟩, true⟩ := by
  obtain ⟨newline, hgap⟩ := Token.gap_of_bare (hg ▸ Lexer.bare_of_eof he hk)
  have hend : swap 0 g (g ++ '\n' :: ';' :: z) e = ⟨⟨e.cursor.pos, g ++ '\n' :: ';' :: z⟩, e.regexAllowed⟩ :=
    @Lexer.swap_eq e [] g hg 0 _
  have front := Lexer.front_of_mark (l := ⟨⟨e.cursor.pos, g ++ '\n' :: ';' :: z⟩, e.regexAllowed⟩) (c := ';')
    (k := .semicolon) (x := z) (by decide) (by simp) hgap
  have hpos : e.cursor.pos + Text.byteLength (g ++ ['\n', ';']) =
      e.cursor.pos + Text.byteLength (g ++ ['\n']) + Text.byteLength [';'] := by
    simp only [Text.byteLength_append, Text.byteLength_cons, Text.byteLength_nil]
    omega
  rw [hpos] at hz ⊢
  have htakes := takes_of_front front nofun hz
  rw [hend]
  refine ⟨⟨hg, ?_, ?_, hend ▸ htakes.ready⟩, htakes⟩
  · cases g with
    | nil => exact .of_mem (by decide) _ _
    | cons d g => exact .inl rfl
  · cases g with
    | nil => exact fun h => absurd (Option.some.inj h) (by decide)
    | cons d g => exact fun h hn => absurd h hn

end

end Grammar

open Grammar

/-- **Programs compose**: one behind the other, with a semicolon on a line between them, they say what both say. -/
theorem parseProgram_append {source₁ source₂ : String} {p₁ p₂ : Program} (h₁ : parseProgram source₁ = .ok p₁)
    (h₂ : parseProgram source₂ = .ok p₂) :
    ∃ p, parseProgram (source₁ ++ "\n;\n" ++ source₂) = .ok p ∧ content p.body = content p₁.body ++ content p₂.body := by
  obtain ⟨hr₁, body₁, e, hd₁, rfl⟩ := parseProgram_eq_ok.1 h₁
  obtain ⟨hr₂, body₂, e₂, hd₂, rfl⟩ := parseProgram_eq_ok.1 h₂
  obtain ⟨text, hrest, -⟩ := hd₁.goes.before
  obtain ⟨hready, helse, rest, f, hd, hbare⟩ := hd₂.behind_line hr₂ rfl
  obtain ⟨hcut, htakes⟩ := Cut.atLine (ready_of_goes hd₁.goes hr₁) hd₁.eof rfl hready
  obtain ⟨body, hd, hbody⟩ := hd₁.closed ⟨hcut.transport, htakes, helse⟩ hd
  have hstart : Lexer.swap 0 e.cursor.rest (e.cursor.rest ++ '\n' :: ';' :: '\n' :: source₂.toList)
      (.ofSource source₁.toList) = .ofSource (source₁ ++ "\n;\n" ++ source₂).toList := by
    have hsource : source₁.toList = text ++ e.cursor.rest := hrest
    rw [Lexer.swap_eq hrest]
    simp [Lexer.ofSource, hsource]
  rw [hstart] at hd
  refine ⟨_, parseProgram_eq_ok.2 ⟨hstart ▸ hcut.ready_of_goes hd₁.goes, body, f, hd, rfl⟩, ?_⟩
  rw [hbody]
  unfold content
  rw [hbare]

/-- A comment that the line ends, and two statements that say nothing between two that do. -/
theorem parseProgram_append_sample : ∃ p₁ p₂, parseProgram "do x++; while (x < 3) // twice" = .ok p₁ ∧
    parseProgram ";/x/.test(y)" = .ok p₂ ∧ ∃ p,
      parseProgram ("do x++; while (x < 3) // twice" ++ "\n;\n" ++ ";/x/.test(y)") = .ok p ∧
        content p.body = content p₁.body ++ content p₂.body := by
  obtain ⟨p₁, h₁⟩ := eq_ok_of_isOk (x := parseProgram "do x++; while (x < 3) // twice") (by decide +kernel)
  obtain ⟨p₂, h₂⟩ := eq_ok_of_isOk (x := parseProgram ";/x/.test(y)") (by decide +kernel)
  exact ⟨p₁, p₂, h₁, h₂, parseProgram_append h₁ h₂⟩

end Readback
