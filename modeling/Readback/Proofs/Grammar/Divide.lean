import Readback.Proofs.Grammar.Fill
/-!
# A slash behind an operand

Whether a slash divides is told from the token before it, and where an operand ends that token says so: a slash behind the
operand divides it.  The one exception is a field that is named by a keyword.  The grammar takes any keyword for the name of a
field, but to whoever reads tokens most keywords end no operand, so there the slash opens a regular expression.
-/
namespace Readback

open Token (Kind Lexeme Fence)

namespace Expr

/-- A member, an index, a call or a primary expression. -/
def isOperand : Expr → Bool
  | .literal _ _ | .identifier _ _ | .this _ | .regex _ _ _ | .array _ _ | .object _ _ | .function _ _ _ _
  | .group _ _ | .field _ _ _ | .index _ _ _ | .call _ _ _ => true
  | _ => false

/-- The expression is a field whose name is a keyword that is no operand by itself. -/
def endsInWord : Expr → Bool
  | .field _ _ name => !(Token.kindOfName name).endsOperand
  | _ => false

end Expr

namespace Grammar

open Reading
open Lexer (swap)

variable {b bit : Bool} {p : Phrase} {l l₁ l₂ l' : Lexer} {e e₁ : Expr} {k : Kind} {n : Nat} {name : String}

/-! ## The last token of an operand -/

/-- The kind of a name in hand is the kind that its text has. -/
theorem kindOfName_hand (hl : l.Ready) (hk : isName l.hand.kind = true) :
    Token.kindOfName l.hand.text = l.hand.kind := by
  have hne : l.hand.kind ≠ .eof := fun h => by rw [h] at hk; cases hk
  obtain ⟨g, t, x, v, hf⟩ := Lexer.front_of_next hl.outcome hne
  obtain ⟨c, s, rfl⟩ := List.exists_cons_of_ne_nil hf.some
  have htext : l.hand.text = String.ofList v := congrArg Token.text (hand_of_next hf.next rfl)
  rw [htext]
  obtain ⟨-, -, -, hv⟩ | hw | hw | ⟨hw, -⟩ | hw := Token.scan_cases hf.scan
  · exact hv.symm
  · rw [hw] at hk; cases hk
  · rw [hw] at hk; cases hk
  · rw [hw] at hk; cases hk
  · unfold isName at hk
    split at hk
    · rename_i h; rw [h] at hw; cases hw
    · rename_i h; rw [h] at hw; cases hw
    · cases hk

theorem regexAllowed_of_takes (h : l.Takes k l') : l'.regexAllowed = !k.endsOperand :=
  h.kind ▸ regexAllowed_of_steps h.toSteps

theorem regexAllowed_of_rereads {u : Token} (h : l.Rereads u l') : l'.regexAllowed = false := by
  obtain ⟨t, x, hr, ht⟩ := Lexer.exists_text_of_regexAt h.outcome
  rw [h.after, Lexer.again, Lexer.regexAt_of_regex hr ht]

/-- What the bit says where a phrase ends whose last token is known. -/
def EndBit : (p : Phrase) → p.Result → Lexer → Prop
  | .primary, e, l => l.regexAllowed = e.endsInWord
  | .chain _, e, l => e.isOperand = true → l.regexAllowed = e.endsInWord
  | .construct, e, _ => e.isOperand = false
  | .signature, _, l | .block, _, l | .blockRest, _, l | .argumentsRest, _, l | .elementsRest, _, l
  | .propertiesRest, _, l => l.regexAllowed = false
  | _, _, _ => True

/-- **Behind an operand a slash divides**, unless the operand is a field that is named by a keyword. -/
theorem Derives.endBit {a : p.Result} (h : Derives b p l a l') : EndBit p a l' := by
  induction h with
  -- primary expressions
  | number h₁ _ | text h₁ | regex h₁ | identifier h₁ | this h₁ => exact regexAllowed_of_takes h₁
  | word h₁ h₂ =>
    refine (regexAllowed_of_steps h₁).trans ?_
    unfold wordLiteral? at h₂
    split at h₂ <;> first | (rename_i hk; rw [hk]; rfl) | cases h₂
  | slash h₁ => exact regexAllowed_of_rereads h₁
  | function _ _ _ _ c => exact c
  | group _ _ h₃ _ => exact regexAllowed_of_takes h₃
  | array _ _ c | object _ _ c => exact c
  -- members and calls
  | primaryChain _ _ c => exact fun _ => c
  | constructChain _ _ c => exact fun ho => absurd ho (by rw [c]; nofun)
  | construct => rfl
  | field _ _ h₃ h₄ _ =>
    intro _
    rw [Expr.endsInWord, kindOfName_hand h₄.ready h₃]
    exact regexAllowed_of_steps h₄
  | index _ _ _ h₄ _ _ => exact fun _ => regexAllowed_of_takes h₄
  | call _ _ _ _ c => exact fun _ => c
  -- what ends with a bracket
  | signature _ _ _ _ _ c | block _ _ c | blockItem _ _ _ _ _ c => exact c
  | blockEnd h₁ | argumentsEnd h₁ | elementsEnd h₁ | propertiesEnd h₁ => exact regexAllowed_of_takes h₁
  | lastArgument _ _ h₃ _ | lastProperty _ _ h₃ _ => exact regexAllowed_of_takes h₃
  | lastElement _ _ _ h₄ _ => exact regexAllowed_of_takes h₄
  | argument _ _ _ _ _ c | hole _ _ c | element _ _ _ _ _ _ c | moreProperties _ _ _ _ _ c => exact c
  | _ => trivial

/-- An expression that is an operand is a chain, and no operator stands in front of it. -/
theorem Derives.chain_of_isOperand (h : Derives b .expression l e l') (ho : e.isOperand = true) :
    unaryOp? l.hand.kind = none ∧ updateOp? l.hand.kind = none ∧ Derives b (.chain true) l e l' := by
  cases h with
  | sequence => cases ho
  | single h _ =>
  cases h with
  | assign => cases ho
  | noAssign h _ =>
  cases h with
  | choice => cases ho
  | noChoice h _ =>
  cases h with
  | binary h _ =>
  cases h with
  | operator => cases ho
  | operators h =>
  cases h with
  | unary => cases ho
  | updateFirst => cases ho
  | noPrefix h₁ h₂ h =>
  cases h with
  | update => cases ho
  | noUpdate h _ =>
  cases h with
  | member h _ => exact ⟨h₁, h₂, h⟩

/-! ## Where the slash divides -/

/-- The text behind an operand that is divided by a name. -/
def divisor (name : String) : List Char := " / ".toList ++ name.toList

theorem front_of_divisor (n : Nat) (name : String) :
    Lexer.Front ⟨⟨n, divisor name⟩, false⟩ [' '] ['/'] (' ' :: name.toList) .slash ['/'] false := by
  have hslash : Lexeme false ['/'] .slash ['/'] := Token.lexeme_punctuator (by decide) fun _ => rfl
  have hblank : ' ' ∈ Token.fences := by decide
  exact hslash.front gap_blank (.of_mem hblank [] name.toList) nofun n

/-- A name at the end of a text is an operand of a division. -/
theorem name_derives (hn : Token.IsToken .identifier name) (n least : Nat) :
    ∃ m, m.hand.kind = .eof ∧ (⟨⟨n, ' ' :: name.toList⟩, true⟩ : Lexer).Ready ∧ m.Ready ∧
      Derives b (.binary least) ⟨⟨n, ' ' :: name.toList⟩, true⟩
        (.identifier ⟨n + 1, n + 1 + Text.byteLength name.toList⟩ name) m := by
  have hf := (hn.identifier true).front gap_blank (.nil _) nofun n
  rw [List.append_nil] at hf
  have hend := @ready_of_rest_eq_nil ⟨⟨n + 1 + Text.byteLength name.toList, []⟩, false⟩ rfl
  have ht : Lexer.Takes _ .identifier ⟨⟨n + 1 + Text.byteLength name.toList, []⟩, false⟩ := takes_of_front hf nofun hend.1
  have hhand := hand_of_next hf.next rfl
  have hd : Derives b .primary _ _ _ := .identifier ht
  rw [Lexer.upTo, hhand, String.ofList_toList] at hd
  have he := endsAssignment_of_kind hend.2 rfl
  refine ⟨_, hend.2, ht.ready, hend.1, .binary (.operators (hd.unary_of_primary (by rw [ht.kind]; rfl) he.1.1)) ?_⟩
  rw [hend.2]
  rfl

/-- **An operand that no keyword ends is divided.** -/
theorem Derives.divided (h : Derives b .expression l e ⟨⟨n, []⟩, false⟩) (ho : e.isOperand = true)
    (hn : Token.IsToken .identifier name) :
    ∃ m, (swap 0 [] (divisor name) l).Ready ∧ m.Ready ∧
      Derives b .expression (swap 0 [] (divisor name) l) (.binary ⟨e.span.start, n + 3 + Text.byteLength name.toList⟩ .div e
        (.identifier ⟨n + 3, n + 3 + Text.byteLength name.toList⟩ name)) m := by
  obtain ⟨h₁, h₂, hc⟩ := h.chain_of_isOperand ho
  have hf := front_of_divisor n name
  have hhand := hand_of_next hf.next rfl
  obtain ⟨m, hm, hr, hr', hd⟩ := @name_derives b name hn (n + 2) BinaryOp.div.rightPrecedence
  have ht : Lexer.Takes ⟨⟨n, divisor name⟩, false⟩ .slash _ := takes_of_front hf nofun hr
  have hend : swap 0 [] (divisor name) ⟨⟨n, []⟩, false⟩ = ⟨⟨n, divisor name⟩, false⟩ :=
    @Lexer.swap_eq ⟨⟨n, []⟩, false⟩ [] [] rfl 0 _
  have hblank : ' ' ∈ Token.fences := by decide
  have hcut : Cut 0 [] (divisor name) ⟨⟨n, []⟩, false⟩ := ⟨rfl, .of_mem hblank _ _, nofun, hend ▸ ht.ready⟩
  have hkind := (hc.inner hcut.transport rfl .stay).same.kind
  have hmove : Phrase.move (.right 0) (.chain true) e = e := Phrase.move_stay (.chain true) e
  have hext : extendsChain true (Lexer.hand ⟨⟨n, divisor name⟩, false⟩).kind = false := by rw [ht.kind]; rfl
  have hop : operatorHere? 0 (Lexer.hand ⟨⟨n, divisor name⟩, false⟩).kind = some .div := by rw [ht.kind]; rfl
  -- the operand is the same one in front of the slash, and the slash goes on with it
  have hchain := hc.cut hcut (hend ▸ hext)
  rw [hend, hmove] at hchain
  have hunary : Derives b .unary _ e _ := .noPrefix (hkind ▸ h₁) (hkind ▸ h₂)
    (.noUpdate (.member hchain hext) (by rw [hhand]; rfl))
  have he := endsExpression_of_kind hm rfl nofun
  have hquotient := Derives.operator (.operators hunary) ht.toSteps hop hd
  exact ⟨m, hchain.ready_start rfl, hr',
    .single (.noAssign (.noChoice (.binary hquotient he.1.1.2) he.1.2.1) he.1.2.2) he.2⟩

/-! ## Where it opens a regular expression -/

/-- The characters that close a regular expression, end its line, or change what closes it. -/
def regexMarks : List Char := ['/', '[', '\\', '\n', '\r', '\u2028', '\u2029']

/-- Without any of them no regular expression is closed. -/
theorem regexBody_open {cs : List Char} (h : ∀ c ∈ cs, c ∉ regexMarks) : Token.regexBody false cs = (cs.length, false) := by
  induction cs with
  | nil => rfl
  | cons c cs ih =>
    obtain ⟨hc, hcs⟩ := List.forall_mem_cons.1 h
    simp only [regexMarks, List.mem_cons, List.not_mem_nil, or_false, not_or] at hc
    obtain ⟨hslash, hbracket, hback, hline⟩ := hc
    have hopen : (c == '[' || (c != ']' && false)) = false := by simp [hbracket]
    rw [Token.regexBody_cons hback, if_neg (by simp [hslash]), if_neg (by simp [Text.endsLine, hline]), hopen, ih hcs]
    rfl

/-- A name has none of them. -/
theorem regexBody_name (hn : Token.IsToken .identifier name) :
    Token.regexBody false (' ' :: name.toList) = (name.toList.length + 1, false) := by
  have hall : regexMarks.all (fun d => d != ' ' && !Token.continuesName d) = true := by decide +kernel
  obtain ⟨v, hv⟩ := hn.lexeme nofun
  refine regexBody_open fun c hc hm => ?_
  have hmark := List.all_eq_true.1 hall c hm
  obtain rfl | hc := List.mem_cons.1 hc
  · simp at hmark
  · have hname := hv.identifier.2.1.2 c hc
    simp [hname] at hmark

/-- **Where a regular expression is allowed, the slash opens one that nothing closes.** -/
theorem next_of_divisor (hn : Token.IsToken .identifier name) (n : Nat) :
    (Lexer.next ⟨⟨n, divisor name⟩, true⟩).outcome =
      .error (Lexer.refuse .openRegex ⟨n + 1, n + 3 + Text.byteLength name.toList⟩) := by
  have hregex : Token.regex ('/' :: ' ' :: name.toList) = ⟨name.toList.length + 2, .error .openRegex⟩ := by
    unfold Token.regex
    rw [List.drop_succ_cons, List.drop_zero, regexBody_name hn]
    rfl
  have htrivia : Token.trivia (divisor name) = ⟨1, false, false⟩ := by
    have hbare : Token.trivia ('/' :: ' ' :: name.toList) = .none := Token.trivia_cons_eq_none.2 ⟨by decide, rfl⟩
    exact (Token.trivia_space (by decide) _).trans (hbare ▸ rfl)
  have hscan : Lexer.scan true ('/' :: ' ' :: name.toList) = ⟨name.toList.length + 2, .error .openRegex⟩ := by
    rw [Lexer.scan_cons, if_neg (by decide +kernel), if_neg (by simp [Lexer.startsNumber, Text.isDigit]),
      if_neg (by decide), if_pos ⟨rfl, rfl⟩, hregex]
    rfl
  have hstart : (⟨n, divisor name⟩ : Cursor).skip 1 = ⟨n + 1, '/' :: ' ' :: name.toList⟩ := rfl
  have hstop : ((⟨n + 1, '/' :: ' ' :: name.toList⟩ : Cursor).skip (name.toList.length + 2)).pos =
      n + 3 + Text.byteLength name.toList := by
    have hskip := @Lexer.skip_append ⟨n + 1, _⟩ ('/' :: ' ' :: name.toList) [] (List.append_nil _).symm
    have hslash : ('/').utf8Size = 1 ∧ (' ').utf8Size = 1 := ⟨rfl, rfl⟩
    have hlength : Text.byteLength ('/' :: ' ' :: name.toList) = Text.byteLength name.toList + 2 := by
      rw [Text.byteLength_cons, Text.byteLength_cons]
      omega
    rw [show name.toList.length + 2 = ('/' :: ' ' :: name.toList).length from rfl, hskip, hlength]
    show n + 1 + _ = _
    omega
  unfold Lexer.next
  dsimp only
  rw [htrivia, if_neg (by simp)]
  dsimp only
  rw [hstart, hscan]
  unfold Lexer.stepOf
  dsimp only [Cursor.span]
  rw [hstop]

/-! ## What is refused -/

/-- A chain does not go on with a field when there is no token to take in hand behind its name. -/
theorem callRest_of_error {d : Diagnostic} {m : Nat} (h₁ : l₁.Takes .dot l₂) (h₂ : isName l₂.hand.kind = true)
    (h₃ : l₂.next.after.next.outcome = .error d) : callRest (rules m) e₁ (l₁.state b) = .refused d := by
  have hsuffix : memberSuffix (rules m) e₁ (l₁.state b) = .refused d := by
    unfold memberSuffix
    rw [bind_of_done (accept_of_takes h₁), if_pos rfl, kind_bind]
    unfold isName at h₂
    split at h₂
    · rename_i hk
      rw [hk]
      exact bind_of_refused (advance_of_error h₃)
    · rename_i hk
      rw [hk]
      exact bind_of_refused (advance_of_error h₃)
    · cases h₂
  unfold callRest
  rw [kind_bind, h₁.kind]
  exact bind_of_refused hsuffix

/-- An expression is refused where the operand it starts with is. -/
theorem expression_of_refused {d : Diagnostic} {m : Nat} (h₁ : unaryOp? l.hand.kind = none)
    (h₂ : updateOp? l.hand.kind = none) (h : call (rules m) (l.state b) = .refused d) :
    expression (rules m) (l.state b) = .refused d := by
  have hunary : unary (rules m) (l.state b) = .refused d := by
    unfold unary
    rw [token_bind, h₁, h₂]
    exact bind_of_refused h
  have hbinary : binary (rules m) 0 (l.state b) = .refused d := bind_of_refused hunary
  have hconditional : conditional (rules m) (l.state b) = .refused d := bind_of_refused hbinary
  have hassignment : assignment (rules m) (l.state b) = .refused d := bind_of_refused hconditional
  exact bind_of_refused hassignment

/-- More text behind the text that is left at a place is more text at the end. -/
theorem swap_behind (h : l.Goes l') (front : Nat) (y : List Char) :
    swap front l'.cursor.rest (l'.cursor.rest ++ y) l = swap front [] y l := by
  obtain ⟨r, hr, -⟩ := h.before
  rw [Lexer.swap_eq hr, @Lexer.swap_eq l l.cursor.rest [] (List.append_nil _).symm, hr, List.append_assoc]

/-- In front of the last token a text may be cut to go on behind that token. -/
theorem Cut.behind {front : Nat} {y : List Char} (hf : Fence [] y) (hy : y.head? ≠ some '/')
    (hr : (swap front [] y l).Ready) : Cut front l.cursor.rest (l.cursor.rest ++ y) l := by
  refine ⟨rfl, ?_, fun hs hx => ?_, (swap_behind .stay front y).symm ▸ hr⟩
  · have := hf.append l.cursor.rest
    rwa [List.append_nil] at this
  · cases hl : l.cursor.rest with
    | nil =>
      rw [hl] at hs
      exact absurd hs hy
    | cons c cs =>
      rw [hl] at hs hx
      exact absurd hs hx

/-- **A field that is named by a keyword is not divided.** -/
theorem Derives.undivided (h : Derives b .expression l e ⟨⟨n, []⟩, true⟩) (ho : e.isOperand = true)
    (hw : e.endsInWord = true) (hn : Token.IsToken .identifier name) :
    (swap 0 [] (divisor name) l).Ready ∧ ∀ m, (swap 0 [] (divisor name) l).left ≤ m →
      expression (rules m) ((swap 0 [] (divisor name) l).state b) =
        .refused (Lexer.refuse .openRegex ⟨n + 1, n + 3 + Text.byteLength name.toList⟩) := by
  obtain ⟨h₁, h₂, hc⟩ := h.chain_of_isOperand ho
  have hblank : ' ' ∈ Token.fences := by decide
  have hfence : Fence [] (divisor name) := .of_mem hblank _ _
  cases hc with
  | primaryChain _ hp => cases hp <;> cases hw
  | constructChain _ hp => cases hp; cases hw
  | index => cases hw
  | call => cases hw
  | @field _ _ e₁ l₁ l₂ _ _ hc hdot hname hlast =>
    -- the text is cut in front of the name of the field, which is the last token that is read
    have hrest : l₂.next.after.cursor.rest = [] ++ [] := by rw [← hlast.after]; rfl
    obtain ⟨hready, -, hafter⟩ := next_swap 0 hfence hlast.ready hlast.more hrest (fun _ hs => nomatch hs)
    rw [← hlast.after] at hafter
    have hend : swap 0 [] (divisor name) ⟨⟨n, []⟩, true⟩ = ⟨⟨n, divisor name⟩, true⟩ :=
      @Lexer.swap_eq ⟨⟨n, []⟩, true⟩ [] [] rfl 0 _
    have herror := next_of_divisor hn n
    rw [← hend, ← hafter] at herror
    have hcut := Cut.behind hfence (show (divisor name).head? ≠ some '/' from nofun) ⟨_, hready⟩
    have hdot' := hcut.transport.takes hdot .stay
    have hchain := hc.moved hcut.transport (hcut.transport.inner hdot.toSteps .stay).stands
    have hkind := (hc.inner hcut.transport rfl hdot.goes).same.kind
    rw [swap_behind .stay, swap_behind hdot.goes] at hdot'
    rw [swap_behind hdot.goes, swap_behind (hc.goes.trans hdot.goes)] at hchain
    rw [swap_behind (hc.goes.trans hdot.goes)] at hkind
    refine ⟨hchain.ready_start rfl, fun m hm => ?_⟩
    obtain ⟨m', -, hcall⟩ := hchain.complete m hm
    refine expression_of_refused (hkind ▸ h₁) (hkind ▸ h₂) (hcall.trans ?_)
    exact callRest_of_error hdot' (by rw [Lexer.hand_of_outcome hready]; exact hname) herror

end Grammar

open Grammar

/-- **A slash behind an operand divides it**: a text that is an operand as a whole, with a slash and a name behind it, is read
as the quotient of that operand and the name.  Only where the operand is a field that is named by a keyword, but for the
keywords that are operands themselves, it is refused, as the slash then opens a regular expression that nothing closes. -/
theorem parse_divided {text name : String} {e : Expr} (h : parseExpressionAt text 0 = .ok e)
    (hs : e.span = ⟨0, Text.byteLength text.toList⟩) (ho : e.isOperand = true) (hn : Token.IsToken .identifier name) :
    parseExpressionAt (text ++ " / " ++ name) 0 =
      let size := Text.byteLength text.toList
      let stop := size + 3 + Text.byteLength name.toList
      if e.endsInWord then .error (Lexer.refuse .openRegex ⟨size + 1, stop⟩)
      else .ok (.binary ⟨0, stop⟩ .div e (.identifier ⟨size + 3, stop⟩ name)) := by
  obtain ⟨bit, hd⟩ := derives_of_parse h hs
  have hbit : bit = e.endsInWord := (hd.chain_of_isOperand ho).2.2.endBit ho
  have hstart : Lexer.swap 0 [] (divisor name) (.ofSource text.toList) = .ofSource (text ++ " / " ++ name).toList := by
    rw [@Lexer.swap_eq (.ofSource text.toList) text.toList [] (List.append_nil _).symm]
    simp [Lexer.ofSource, divisor]
  dsimp only
  cases hw : e.endsInWord with
  | false =>
    rw [hbit, hw] at hd
    obtain ⟨m, hl, hm, hq⟩ := hd.divided ho hn
    rw [hstart] at hl hq
    rw [hs] at hq
    exact parseExpressionAt_zero.2 ⟨hl, m, hm, hq⟩
  | true =>
    rw [hbit, hw] at hd
    obtain ⟨hl, hr⟩ := hd.undivided ho hw hn
    rw [hstart] at hl hr
    have hat : Lexer.at? (text ++ " / " ++ name).toList 0 = some (.ofSource (text ++ " / " ++ name).toList) :=
      at?_byteLength [] _
    unfold parseExpressionAt
    rw [hat]
    dsimp only
    unfold expressionOutcome
    rw [start_of_ready hl fresh_read_expression, read_apply]
    exact congrArg Outcome.result (hr _ (Nat.le_refl _))

/-- Behind a call a slash divides, whatever is between its parentheses. -/
theorem parse_divided_call : ∃ e, parseExpressionAt "f(/[/]/ / 2).in[0].g()" 0 = .ok e ∧ e.span = ⟨0, 22⟩ ∧
    e.isOperand = true ∧ Token.IsToken .identifier "b" ∧ e.endsInWord = false ∧
    parseExpressionAt "f(/[/]/ / 2).in[0].g() / b" 0 = .ok (.binary ⟨0, 26⟩ .div e (.identifier ⟨25, 26⟩ "b")) := by
  obtain ⟨e, he, hp⟩ := eq_ok_of_any (x := parseExpressionAt "f(/[/]/ / 2).in[0].g()" 0)
    (p := fun e : Expr => decide (e.span = ⟨0, 22⟩) && e.isOperand && !e.endsInWord) (by decide +kernel)
  simp only [Bool.and_eq_true, decide_eq_true_eq, Bool.not_eq_true'] at hp
  obtain ⟨⟨hs, ho⟩, hw⟩ := hp
  have hn : Token.IsToken .identifier "b" := Token.isToken_of_letter 'b' (by decide +kernel)
  have hd := parse_divided he hs ho hn
  rw [hw] at hd
  exact ⟨e, he, hs, ho, hn, hw, hd⟩

/-- The name `if` is a member, and behind it the slash opens a regular expression. -/
theorem parse_not_divided : ¬ ∀ (text name : String) (e : Expr), parseExpressionAt text 0 = .ok e →
    e.span = ⟨0, Text.byteLength text.toList⟩ → e.isOperand = true → Token.IsToken .identifier name →
    ∃ s r, parseExpressionAt (text ++ " / " ++ name) 0 = .ok (.binary s .div e (.identifier r name)) := by
  intro h
  obtain ⟨e, he, hp⟩ := eq_ok_of_any (x := parseExpressionAt "a.if" 0)
    (p := fun e : Expr => decide (e.span = ⟨0, 4⟩) && e.isOperand) (by decide +kernel)
  simp only [Bool.and_eq_true, decide_eq_true_eq] at hp
  have hn : Token.IsToken .identifier "b" := Token.isToken_of_letter 'b' (by decide +kernel)
  obtain ⟨s, r, hd⟩ := h "a.if" "b" e he hp.1 hp.2 hn
  have herror : (parseExpressionAt "a.if / b" 0).isOk = false := by decide +kernel
  rw [show "a.if" ++ " / " ++ "b" = "a.if / b" from rfl] at hd
  rw [hd] at herror
  cases herror

end Readback
