import Readback.Proofs.Token.Spelling
/-!
# Texts that are tokens

A text that is a token by itself is one in front of every fence, and behind every gap.  Here are the texts of all sorts that
are written: punctuators, keywords, names, numbers, strings and regular expressions.
-/
namespace Readback

namespace Token

/-- The text is a token by itself, when the bit is as given. -/
structure Lexeme (bit : Bool) (t : List Char) (k : Kind) (v : List Char) : Prop where
  bare : trivia t = .none
  some : t ≠ []
  scan : Lexer.scan bit t = ⟨t.length, .ok (k, v)⟩

variable {bit newline : Bool} {t v g x : List Char} {k : Kind} {c : Char} {cs : List Char}

/-- **A token by itself is a token in front of a fence.** -/
theorem Lexeme.front (h : Lexeme bit t k v) (hg : Gap g newline) (hx : Fence [] x) (hs : x.head? ≠ .some '/') (n : Nat) :
    Lexer.Front ⟨⟨n, g ++ (t ++ x)⟩, bit⟩ g t x k v newline := by
  have h₀ : Lexer.Front ⟨⟨0, t⟩, bit⟩ [] t ([] ++ []) k v false :=
    ⟨by simp, .none, by simpa using h.bare, h.some, by simpa using h.scan⟩
  have h₁ := h₀.swap hx (fun _ hc => absurd hc hs) 0
  exact ⟨rfl, hg, by simpa using h₁.bare, h.some, by simpa [Lexer.swap] using h₁.scan⟩

theorem Lexeme.of_front (h : Lexer.Front ⟨⟨0, t⟩, bit⟩ [] t [] k v newline) : Lexeme bit t k v :=
  ⟨by simpa using h.bare, h.some, by simpa using h.scan⟩

theorem Lexeme.kind_ne_eof (h : Lexeme bit t k v) : k ≠ .eof :=
  Lexer.scan_ne_eof (congrArg Scan.outcome h.scan) h.some

/-! ## Punctuators -/

/-- **A punctuator is a token**, but for a slash where it would open a regular expression. -/
theorem lexeme_punctuator (h : (t, k) ∈ punctuators) (hs : t.head? = .some '/' → bit = false) : Lexeme bit t k t := by
  have hall : punctuators.all (fun p => p.1.head?.all (fun c => !startsName c && !Text.isDigit c && c != '"' && c != '\'' &&
      !isSpace c && !opensComment c p.1.tail) && (p.1.tail.head?.all fun c => !Text.isDigit c) && p.1 != [] &&
      (punctuator? p.1 == .some p)) = true := by decide +kernel
  have hp := List.all_eq_true.1 hall _ h
  rcases t with _ | ⟨c, cs⟩
  · simp at hp
  simp only [List.head?_cons, Option.all_some, List.tail_cons, Bool.and_eq_true, Bool.not_eq_true', bne_iff_ne,
    beq_iff_eq] at hp
  obtain ⟨⟨⟨⟨⟨⟨⟨⟨h₁, h₂⟩, h₃⟩, h₄⟩, h₅⟩, h₆⟩, h₇⟩, -⟩, h₈⟩ := hp
  refine ⟨trivia_cons_eq_none.2 ⟨h₅, h₆⟩, nofun, ?_⟩
  have hd : cs.head?.any Text.isDigit = false := by
    cases cs with
    | nil => rfl
    | cons d cs => simpa using h₇
  rw [Lexer.scan_cons, if_neg (by simp [h₁]), if_neg (by simp [Lexer.startsNumber, h₂, hd]), if_neg (by simp [h₃, h₄]),
    if_neg (fun hc => by simpa [hs (by rw [hc.1]; rfl)] using hc.2), h₈]

/-- A minus sign is one by itself in front of anything but another one or an equals sign. -/
theorem scan_minus {c : Char} (h₁ : c ≠ '-') (h₂ : c ≠ '=') (x : List Char) (bit : Bool) :
    Lexer.scan bit ('-' :: c :: x) = ⟨1, .ok (.minus, ['-'])⟩ := by
  have h₁ : ('-' == c) = false := by simpa using fun h => h₁ h.symm
  have h₂ : ('=' == c) = false := by simpa using fun h => h₂ h.symm
  have hp : punctuator? ('-' :: c :: x) = some (['-'], .minus) := by
    simp [punctuator?, punctuators, List.isPrefixOf, h₁, h₂]
  rw [Lexer.scan_cons, if_neg (by decide +kernel), if_neg (by simp [Lexer.startsNumber, Text.isDigit]), if_neg (by decide),
    if_neg (by simp), hp]
  rfl

/-! ## Names and keywords -/

/-- The characters of a name. -/
def Spelled (cs : List Char) : Prop := cs.head?.any startsName = true ∧ ∀ c ∈ cs, continuesName c = true

theorem lexeme_spelled (h : Spelled cs) (bit : Bool) : Lexeme bit cs (kindOfName (String.ofList cs)) cs := by
  rcases cs with _ | ⟨c, cs⟩
  · cases h.1
  · exact .of_front (Lexer.front_of_name (by simpa using h.1) (List.forall_mem_cons.1 h.2).2 (by nofun)
      (List.append_nil _).symm)

theorem lexeme_keyword {w : String} {word : Keyword} (h : (w, word) ∈ Keyword.table) (bit : Bool) :
    Lexeme bit w.toList (.keyword word) w.toList := by
  have hall : Keyword.table.all (fun p => p.1.toList.head?.any startsName && p.1.toList.all continuesName &&
      (Keyword.ofText? p.1 == .some p.2)) = true := by decide +kernel
  have hp := List.all_eq_true.1 hall _ h
  simp only [Bool.and_eq_true, List.all_eq_true, beq_iff_eq] at hp
  have hl := lexeme_spelled ⟨hp.1.1, hp.1.2⟩ bit
  rwa [String.ofList_toList, show kindOfName w = .keyword word by rw [kindOfName, hp.2]] at hl

/-! ## Texts that are read as one token -/

/-- The text is one token of a kind, and nothing else. -/
def IsToken (k : Kind) (text : String) : Prop :=
  ∃ t, (Lexer.ofSource text.toList).next.outcome = .ok t ∧ t.kind = k ∧ t.span = ⟨0, Text.byteLength text.toList⟩

theorem byteLength_eq_zero : Text.byteLength cs = 0 ↔ cs = [] := by
  refine ⟨fun h => ?_, fun h => h ▸ rfl⟩
  cases cs with
  | nil => rfl
  | cons c cs =>
    have := c.utf8Size_pos
    rw [Text.byteLength_cons] at h
    omega

theorem IsToken.lexeme {text : String} (h : IsToken k text) (hk : k ≠ .eof) : ∃ v, Lexeme true text.toList k v := by
  obtain ⟨u, hu, rfl, hs⟩ := h
  obtain ⟨g, t, x, v, hf⟩ := Lexer.front_of_next hu hk
  rw [hf.next] at hu
  rw [← Except.ok.inj hu] at hs
  have hr : text.toList = g ++ (t ++ x) := hf.rest
  simp only [Span.mk.injEq, Lexer.ofSource, Nat.zero_add, byteLength_eq_zero] at hs
  obtain ⟨rfl, hstop⟩ := hs
  obtain rfl : x = [] := byteLength_eq_zero.1 (by
    rw [hr] at hstop
    simp only [Text.byteLength_append, Text.byteLength_nil] at hstop
    omega)
  rw [List.nil_append, List.append_nil] at hr
  exact ⟨v, by rw [hr]; simpa using hf.bare, by rw [hr]; exact hf.some, by rw [hr]; simpa [Lexer.ofSource] using hf.scan⟩

theorem Lexeme.isToken {text : String} (h : Lexeme true text.toList k v) : IsToken k text := by
  have hf := h.front (x := []) .none (.nil _) nofun 0
  rw [List.nil_append, List.append_nil] at hf
  refine ⟨_, congrArg Lexer.Step.outcome hf.next, rfl, ?_⟩
  simp

/-- The ways in which a text begins with a token. -/
theorem scan_cases {n : Nat} (h : Lexer.scan bit (c :: cs) = ⟨n, .ok (k, v)⟩) :
    (startsName c = true ∧ n = (nameRun (c :: cs)).length ∧ v = nameRun (c :: cs) ∧ k = kindOfName (String.ofList v)) ∨
      k = .number ∨ k = .string ∨
      (k = .regex ∧ c = '/' ∧ bit = true ∧ Token.regex (c :: cs) = ⟨n, .ok ()⟩ ∧ v = (c :: cs).take n) ∨
      Lexer.isWord k = false := by
  rw [Lexer.scan_cons] at h
  split at h
  · cases h
    exact .inl ⟨‹_›, rfl, rfl, rfl⟩
  split at h
  · obtain ⟨_, -, he⟩ := map_eq_ok (congrArg Scan.outcome h)
    cases he
    exact .inr (.inl rfl)
  split at h
  · obtain ⟨_, -, he⟩ := map_eq_ok (congrArg Scan.outcome h)
    cases he
    exact .inr (.inr (.inl rfl))
  split at h
  · rename_i hc
    have hs := congrArg Scan.size h
    obtain ⟨_, hr, he⟩ := map_eq_ok (congrArg Scan.outcome h)
    dsimp only at hs
    rw [hs] at he
    cases he
    exact .inr (.inr (.inr (.inl ⟨rfl, hc.1, hc.2, Scan.eq_of hs hr, rfl⟩)))
  · cases hp : punctuator? (c :: cs) with
    | none => rw [hp] at h; cases h
    | some p =>
      obtain ⟨w, j⟩ := p
      rw [hp] at h
      cases h
      exact .inr (.inr (.inr (.inr (Lexer.isWord_punctuators _ (List.mem_of_find?_eq_some hp)))))

/-- What is scanned as it stands. -/
theorem text_of_taken {α : Type} {m n : Nat} {j : Kind} {o : Except Fault α}
    (h : (⟨m, o.map fun _ => (j, cs.take m)⟩ : Scan (Kind × List Char)) = ⟨n, .ok (k, v)⟩) : v = cs.take n := by
  obtain rfl : m = n := congrArg Scan.size h
  obtain ⟨_, -, he⟩ := map_eq_ok (congrArg Scan.outcome h)
  cases he
  rfl

/-- **The text of a token is what is scanned**, if it is not a string. -/
theorem scan_text {n : Nat} : ∀ {cs : List Char}, Lexer.scan bit cs = ⟨n, .ok (k, v)⟩ → k ≠ .string → v = cs.take n
  | [], h, _ => by cases h; rfl
  | c :: cs, h, hk => by
    rw [Lexer.scan_cons] at h
    split at h
    · cases h
      exact List.prefix_iff_eq_take.1 (List.takeWhile_prefix _)
    split at h
    · exact text_of_taken h
    split at h
    · obtain ⟨_, -, he⟩ := map_eq_ok (congrArg Scan.outcome h)
      cases he
      exact absurd rfl hk
    split at h
    · exact text_of_taken h
    · cases hp : punctuator? (c :: cs) with
      | none => rw [hp] at h; cases h
      | some p =>
        rw [hp] at h
        cases h
        exact List.prefix_iff_eq_take.1 <| punctuator_prefix hp

/-- **An identifier is spelled as a name, and is no keyword.** -/
theorem Lexeme.identifier (h : Lexeme bit t .identifier v) :
    v = t ∧ Spelled t ∧ Keyword.ofText? (String.ofList t) = none := by
  rcases t with _ | ⟨c, cs⟩
  · exact absurd rfl h.some
  obtain ⟨hc, hn, rfl, hk⟩ | hk | hk | ⟨hk, -⟩ | hk := scan_cases h.scan
  · have hrun : nameRun (c :: cs) = c :: cs := (List.takeWhile_prefix _).eq_of_length hn.symm
    rw [hrun] at hk ⊢
    refine ⟨rfl, ⟨by simpa using hc, fun d hd => List.mem_takeWhile_imp (hrun.symm ▸ hd)⟩, ?_⟩
    unfold kindOfName at hk
    split at hk
    · cases hk
    · assumption
  all_goals cases hk

theorem lexeme_identifier {cs : List Char} (h : Spelled cs) (hk : Keyword.ofText? (String.ofList cs) = none) (bit : Bool) :
    Lexeme bit cs .identifier cs := by
  have hl := lexeme_spelled h bit
  rwa [show kindOfName (String.ofList cs) = .identifier by rw [kindOfName, hk]] at hl

theorem IsToken.identifier {name : String} (h : IsToken .identifier name) (bit : Bool) :
    Lexeme bit name.toList .identifier name.toList := by
  obtain ⟨v, hv⟩ := h.lexeme nofun
  obtain ⟨-, hs, hk⟩ := hv.identifier
  exact lexeme_identifier hs hk bit

/-- A letter that is no keyword is a name. -/
theorem isToken_of_letter (c : Char) (h : startsName c = true ∧ Keyword.ofText? (String.ofList [c]) = none) :
    IsToken .identifier (String.ofList [c]) := by
  refine Lexeme.isToken (v := [c]) ?_
  rw [String.toList_ofList]
  refine lexeme_identifier ⟨by simpa using h.1, ?_⟩ h.2 true
  simpa using continuesName_of_startsName h.1

/-! ## Numbers and strings -/

theorem lexeme_number (x : Magnitude) (bit : Bool) : Lexeme bit (Number.sizeText x) .number (Number.sizeText x) := by
  obtain ⟨whole, part, power, ht, hw, hd, -⟩ := Number.spells_sizeText x
  rw [ht]
  exact .of_front (Lexer.front_of_number hw hd (.nil _) (List.append_nil _).symm)

theorem lexeme_quote (s : List Char) (bit : Bool) : Lexeme bit (Text.Quoted.encode s) .string s :=
  .of_front (Lexer.front_of_string (.inl rfl) (stringBody_encode s []) (List.append_nil _).symm)

/-! ## Regular expressions -/

/-- **A regular expression by itself** starts with a slash, and is read whole. -/
theorem Lexeme.regex (h : Lexeme bit t .regex v) :
    bit = true ∧ v = t ∧ t.head? = .some '/' ∧ Token.regex t = ⟨t.length, .ok ()⟩ := by
  rcases t with _ | ⟨c, cs⟩
  · exact absurd rfl h.some
  obtain ⟨-, -, -, hk⟩ | hk | hk | ⟨-, rfl, hb, hr, hv⟩ | hk := scan_cases h.scan
  · unfold kindOfName at hk
    split at hk <;> cases hk
  · cases hk
  · cases hk
  · exact ⟨hb, by rw [hv, List.take_length], rfl, hr⟩
  · cases hk

/-- A text that begins with a slash, but no comment, begins with one of two punctuators where no regular expression is
allowed. -/
theorem scan_slash (x : List Char) :
    Lexer.scan false ('/' :: x) =
      if x.head? = .some '=' then ⟨2, .ok (.compoundAssign, ['/', '='])⟩ else ⟨1, .ok (.slash, ['/'])⟩ := by
  rw [Lexer.scan_cons, if_neg (by decide +kernel), if_neg (by simp [Lexer.startsNumber, Text.isDigit]), if_neg (by decide),
    if_neg (by simp)]
  rcases x with _ | ⟨d, x⟩
  · rfl
  · by_cases hd : d = '='
    · subst hd
      rfl
    · rw [if_neg (by simpa using hd)]
      have hp : punctuator? ('/' :: d :: x) = .some (['/'], .slash) := by
        have hne : ('=' == d) = false := by simpa using fun h => hd h.symm
        simp [punctuator?, punctuators, List.isPrefixOf, hne]
      rw [hp]
      rfl

end Token

end Readback
