import Readback.Proofs.Snippet.Expression
import Readback.Proofs.Value.Makes
import Readback.Session
/-!
# What a session writes can be typed again

Whatever was typed, all objects of a session were read from texts, and all its names are paths.  So the text of a result, which
may be put in parentheses before it is read, has a value that the result is recalled as (`Session.result_recalled`).
-/
namespace Readback

open Grammar

/-! ## Names of results -/

/-- A name with a number behind it is no text that ends otherwise. -/
theorem append_decimal_ne {text : String} (h : text.toList.getLast?.any Text.isDigit = false) (name : String) (k : Nat) :
    name ++ Text.decimal k ≠ text := by
  rintro rfl
  have hne : Text.digits k ≠ [] := by
    unfold Text.digits
    split <;> simp
  have hlast : (name ++ Text.decimal k).toList.getLast? = some ((Text.digits k).getLast hne) := by
    rw [String.toList_append, Text.decimal, String.toList_ofList, List.getLast?_append_of_ne_nil _ hne,
      List.getLast?_eq_some_getLast hne]
  rw [hlast, Option.any_some, Text.isDigit_of_mem_digits (List.getLast_mem hne)] at h
  cases h

/-- A name with a number behind it is a name. -/
theorem isToken_append_decimal {name : String} (hn : Token.IsToken .identifier name) (k : Nat) :
    Token.IsToken .identifier (name ++ Text.decimal k) := by
  obtain ⟨v, hv⟩ := hn.lexeme nofun
  obtain ⟨-, ⟨hfirst, hall⟩, -⟩ := hv.identifier
  have hspelled : Token.Spelled (name ++ Text.decimal k).toList := by
    rw [String.toList_append, Text.decimal, String.toList_ofList]
    refine ⟨?_, fun c hc => ?_⟩
    · obtain ⟨c, cs, hcs⟩ := List.exists_cons_of_ne_nil hv.some
      rw [hcs] at hfirst ⊢
      exact hfirst
    · rcases List.mem_append.1 hc with hc | hc
      · exact hall c hc
      · exact Token.continuesName_of_isDigit (Text.isDigit_of_mem_digits hc)
  have hkeyword : Keyword.ofText? (name ++ Text.decimal k) = none := by
    have hends : Keyword.table.all (fun p => !p.1.toList.getLast?.any Text.isDigit) = true := by decide +kernel
    unfold Keyword.ofText?
    rw [Option.map_eq_none_iff, List.find?_eq_none]
    intro p hp
    have := List.all_eq_true.1 hends p hp
    simpa using (append_decimal_ne (by simpa using this) name k).symm
  exact Token.Lexeme.isToken (Token.lexeme_identifier hspelled (by rwa [String.ofList_toList]) true)

/-- **What a result is called is a path.** -/
theorem isPath_append_decimal {name : String} (hn : Token.IsToken .identifier name) (k : Nat) :
    IsPath (name ++ Text.decimal k) := by
  refine isPath_of_identifier (isToken_append_decimal hn k) fun hm => ?_
  have hends : ∀ text ∈ reservedNames, text.toList.getLast?.any Text.isDigit = false := by decide +kernel
  exact append_decimal_ne (hends _ hm) name k rfl

/-- A binding is of what was bound, or was there before. -/
theorem Dictionary.mem_insert {α : Type} {d : Dictionary α} {key k : String} {value x : α}
    (h : (k, x) ∈ (d.insert key value).entries) : k = key ∨ (k, x) ∈ d.entries := by
  unfold Dictionary.insert at h
  split at h
  · obtain ⟨e, he, hr⟩ := List.mem_map.1 h
    unfold Dictionary.replace at hr
    split at hr
    · exact .inl (congrArg Prod.fst hr).symm
    · exact .inr (hr ▸ he)
  · rcases List.mem_append.1 h with h | h
    · exact .inr h
    · exact .inl (congrArg Prod.fst (List.mem_singleton.1 h))

theorem Registry.HasPaths.bind {reg : Registry} {path : String} (hr : reg.HasPaths) (hp : IsPath path) (v : Value) :
    (reg.bind path v).HasPaths := by
  intro k x hm
  rcases Dictionary.mem_insert hm with rfl | hm
  · exact hp
  · exact hr k x hm

namespace Session

variable {s : Session} {line text : String} {v : Value} {heap : Heap}

/-! ## Sessions as they can be -/

/-- The session after some lines. -/
def after (s : Session) (lines : List String) : Session := lines.foldl (fun s line => (s.inspect line).2) s

theorem evaluate_eq_ok : s.evaluate line = .ok (v, heap) ↔
    ∃ text e, normalize line true = .ok text ∧ parseExpressionAt text 0 = .ok e ∧
      s.heap.evaluate s.registry text e = .ok (v, heap) := by
  unfold Session.evaluate
  cases hn : normalize line true with
  | error d => exact iff_of_false nofun (by rintro ⟨_, _, ⟨⟩, -⟩)
  | ok text =>
    cases hp : parseExpressionAt text 0 with
    | error d =>
      simp only [bind, Except.bind, hp]
      exact iff_of_false nofun (by rintro ⟨_, _, ⟨⟩, h, -⟩; cases hp.symm.trans h)
    | ok e =>
      simp only [bind, Except.bind, hp]
      constructor
      · exact fun hv => ⟨text, e, rfl, hp, hv⟩
      · rintro ⟨_, _, ⟨⟩, h, hv⟩
        cases hp.symm.trans h
        exact hv

theorem legal_evaluate (hs : s.heap.Legal) (he : s.evaluate line = .ok (v, heap)) : heap.Legal := by
  obtain ⟨text, e, -, hp, hv⟩ := evaluate_eq_ok.1 he
  exact legal_of_evaluate hp hs hv

theorem heap_remember (s : Session) (v : Value) : (s.remember v).heap = s.heap := by
  unfold remember
  split <;> rfl

theorem config_remember (s : Session) (v : Value) : (s.remember v).config = s.config := by
  unfold remember
  split <;> rfl

theorem config_inspect (s : Session) (line : String) : (s.inspect line).2.config = s.config := by
  unfold inspect
  split
  · rfl
  · exact config_remember _ _

theorem legal_inspect (hs : s.heap.Legal) (line : String) : (s.inspect line).2.heap.Legal := by
  unfold inspect
  split
  · exact hs
  · rename_i he
    dsimp only
    rw [heap_remember]
    exact legal_evaluate hs he

/-- **All objects of a session can be read back**, whatever its lines were. -/
theorem legal_after : ∀ (lines : List String) {s : Session}, s.heap.Legal → (s.after lines).heap.Legal
  | [], _, hs => hs
  | line :: lines, _, hs => legal_after lines (legal_inspect hs line)

theorem legal_start (config : SessionConfig) : ({ config := config } : Session).heap.Legal := fun _ _ ho => by
  simp [Heap.object?] at ho

/-- So every walk of a session comes back. -/
theorem render?_after (config : SessionConfig) (lines : List String) (seen : List ObjectId) (v : Value) :
    (after { config := config } lines).renderer.render? seen v =
      some ((after { config := config } lines).renderer.render seen v) :=
  Renderer.render?_of_grounded ((legal_after lines (legal_start config)).grounded v) seen

theorem hasPaths_remember (hs : s.registry.HasPaths) (hn : Token.IsToken .identifier s.config.historyName) (v : Value) :
    (s.remember v).registry.HasPaths := by
  unfold remember
  split
  · exact hs.bind (isPath_append_decimal hn _) v
  · exact hs

theorem hasPaths_inspect (hs : s.registry.HasPaths) (hn : Token.IsToken .identifier s.config.historyName) (line : String) :
    (s.inspect line).2.registry.HasPaths := by
  unfold inspect
  split
  · exact hs
  · rename_i v heap _
    exact @hasPaths_remember { s with heap := heap } hs hn v

/-- **All names of a session are paths**, when the name for its results is one. -/
theorem hasPaths_after : ∀ (lines : List String) {s : Session}, s.registry.HasPaths →
    Token.IsToken .identifier s.config.historyName →
      (s.after lines).registry.HasPaths ∧ Token.IsToken .identifier (s.after lines).config.historyName
  | [], _, hs, hn => ⟨hs, hn⟩
  | line :: lines, s, hs, hn => hasPaths_after lines (hasPaths_inspect hs hn line) (by rwa [config_inspect])

/-! ## Results that are typed again -/

theorem normalize_of_fills {e : Expr} (h : Fills 0 text.toList [] e) : normalize text true = .ok (Snippet.wrap e text) := by
  obtain ⟨hp, hs⟩ := h.parse
  obtain ⟨t, l', hr⟩ := readOff_iff.2 hp
  have hstop := hr.stop
  rw [hs, hr.split] at hstop
  have hrest : l'.cursor.rest = [] := Token.byteLength_eq_zero.1 (by
    dsimp only at hstop
    rw [Text.byteLength_append] at hstop
    omega)
  have ht : t = text.toList := by rw [hr.split, hrest, List.append_nil]
  refine normalize_expression_eq_ok.2 ⟨e, t, l', hr, ?_, by rw [ht, String.ofList_toList]⟩
  rw [hrest]
  exact .bare Token.bare_nil

/-- What is written in parentheses is read and evaluated as well. -/
theorem evaluate_of_parse {e : Expr} {t : String} {r : Except Diagnostic (Value × Heap)} (hn : normalize text true = .ok t)
    (hp : parseExpressionAt t 0 = .ok e) (hv : s.heap.evaluate s.registry t e = r) : s.evaluate text = r := by
  unfold Session.evaluate
  simp only [hn, bind, Except.bind, hp]
  exact hv

/-- **A legible text can be typed**, and has a value as the text means. -/
theorem evaluate_of_legible {m : Meaning Value} (hl : Legible m s.registry text.toList) :
    ∃ v' h', s.evaluate text = .ok (v', h') ∧ s.heap.Grows h' ∧ m.Holds h' v' := by
  obtain ⟨e, hf, he⟩ := hl 0 [] .nil
  have hn := normalize_of_fills hf
  unfold Snippet.wrap at hn
  split at hn
  · -- in parentheses it is another tree, further to the right
    obtain ⟨e', hf', he'⟩ := hl 1 [')'] (.cons (k := .rParen) (by decide) [])
    obtain ⟨span, hg⟩ := fills_group hf' .nil
    have ht : ("(" ++ text ++ ")").toList = '(' :: (text.toList ++ [')']) := by simp
    obtain ⟨v', h', hrun, hgrow, hm⟩ := he' ['('] rfl s.heap
    rw [← ht] at hg
    refine ⟨v', h', evaluate_of_parse hn hg.parse.1 ?_, hgrow, hm⟩
    rw [Heap.evaluate, Evaluator.evaluate, ht]
    exact hrun
  · obtain ⟨v', h', hrun, hgrow, hm⟩ := he [] rfl s.heap
    rw [List.nil_append, List.append_nil] at hrun
    exact ⟨v', h', evaluate_of_parse hn hf.parse.1 hrun, hgrow, hm⟩

/-- **The text of a result can be typed again.**  Whatever lines a session was given from its start, with whatever name for
its results: when the next line has a value, and the value has a text once it is remembered, that text has a value in the
session: the very value where its selector was written, and elsewhere one of the same structure, element by element. -/
theorem result_recalled {config : SessionConfig} {lines : List String} {line text : String} {v : Value} {heap : Heap}
    (hn : Token.IsToken .identifier config.historyName)
    (he : (after { config := config } lines).evaluate line = .ok (v, heap))
    (ht : (({ after { config := config } lines with heap := heap } : Session).remember v).renderer.source v = .ok text) :
    ∃ v' h', (({ after { config := config } lines with heap := heap } : Session).remember v).evaluate text = .ok (v', h') ∧
      heap.Grows h' ∧
      Recalled (({ after { config := config } lines with heap := heap } : Session).remember v).renderer h' [] v v' := by
  have hlegal := legal_evaluate (legal_after lines (legal_start config)) he
  obtain ⟨hpaths, hname⟩ := hasPaths_after lines (s := { config := config }) (fun _ _ hm => absurd hm List.not_mem_nil) hn
  have hpaths := @hasPaths_remember { after { config := config } lines with heap := heap } hpaths hname v
  generalize hafter : ({ after { config := config } lines with heap := heap } : Session).remember v = s at *
  have hheap : s.heap = heap := by rw [← hafter, heap_remember]
  subst hheap
  exact evaluate_of_legible ((legible_of_render hpaths s.config.maxArrayLength).1 [] v (hlegal.readable v) text ht)

/-- An object, which is `$1` from the first line on, in an array with a regular expression. -/
theorem result_recalled_array : Token.IsToken .identifier ({} : SessionConfig).historyName ∧ ∃ v heap,
    (after { config := {} } ["({})"]).evaluate "[$1, /a/g]" = .ok (v, heap) ∧
    (({ after { config := {} } ["({})"] with heap := heap } : Session).remember v).renderer.source v = .ok "[$1, /a/g]" ∧
    ∃ v' h', (({ after { config := {} } ["({})"] with heap := heap } : Session).remember v).evaluate "[$1, /a/g]" =
        .ok (v', h') ∧ heap.Grows h' ∧
      Recalled (({ after { config := {} } ["({})"] with heap := heap } : Session).remember v).renderer h' [] v v' := by
  have name : Token.IsToken .identifier ({} : SessionConfig).historyName :=
    Token.isToken_of_letter '$' (by decide +kernel)
  have run : ((after { config := {} } ["({})"]).evaluate "[$1, /a/g]").toOption.any (fun r =>
      (({ after { config := {} } ["({})"] with heap := r.2 } : Session).remember r.1).renderer.source r.1 |>.toOption.any
        (· == "[$1, /a/g]")) = true := by decide +kernel
  obtain ⟨⟨v, heap⟩, he, run⟩ := eq_ok_of_any run
  obtain ⟨text, ht, run⟩ := eq_ok_of_any run
  obtain rfl := eq_of_beq run
  exact ⟨name, v, heap, he, ht, result_recalled name he ht⟩

end Session

end Readback
