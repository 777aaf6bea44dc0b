import Readback.Proofs.Value.Legible
import Readback.Proofs.Value.Reach
/-!
# Values that are read back

A value that is written is read back as one that matches (`source_recalled`), when what is copied into the text is what it
is taken for: functions, regular expressions, and the paths of names.  By induction on the walk, every text that it comes to
is legible.
-/
namespace Readback

open Grammar
open Renderer (messageOf)

/-! ## Names -/

namespace Dictionary

theorem find?_of_mem {α : Type} {d : Dictionary α} {key : String} {x : α} (h : (key, x) ∈ d.entries) :
    d.find? key = some x := by
  have hn := d.nodup
  unfold find?
  generalize d.entries = es at h hn
  induction es with
  | nil => cases h
  | cons e es ih =>
    rw [List.map_cons, List.nodup_cons] at hn
    rcases List.mem_cons.1 h with rfl | h
    · simp
    · have hne : e.1 ≠ key := fun he => hn.1 (he ▸ List.mem_map_of_mem h)
      rw [List.find?_cons_of_neg (by simpa using hne)]
      exact ih h hn.2

end Dictionary

/-- A name that is an identifier is a path. -/
theorem isPath_of_identifier {name : String} (hn : Token.IsToken .identifier name) (hr : name ∉ reservedNames) : IsPath name := by
  have hf := fills_token (.identifier · name) (hn.identifier true) rfl (derives_identifier name) .nil 0
  exact ⟨hr, _, hf.parse.1, hf.parse.2, rfl⟩

namespace Registry

variable {reg : Registry} {v : Value} {path : String}

theorem mem_of_selectorFor (h : reg.selectorFor v = some path) : (path, v) ∈ reg.entries := by
  unfold selectorFor at h
  split at h
  · obtain ⟨⟨path, w⟩, hf, rfl⟩ := Option.map_eq_some_iff.1 h
    have hw : w = v := by simpa using List.find?_some hf
    exact hw ▸ List.mem_of_find?_eq_some hf
  · cases h

/-- **What a value is named is bound to it.** -/
theorem lookup?_selectorFor (h : reg.selectorFor v = some path) : reg.lookup? path = some v :=
  Dictionary.find?_of_mem (mem_of_selectorFor h)

/-- The value has a name. -/
def Named (reg : Registry) (v : Value) : Prop := ∃ path, reg.selectorFor v = some path

/-- Every path can be read. -/
def HasPaths (reg : Registry) : Prop := ∀ path v, (path, v) ∈ reg.entries → IsPath path

end Registry

/-! ## What can be read -/

/-- Of all that a value leads to: regular expressions are as asked for, or have an empty pattern; functions are what their
text is read as; and the messages of errors are texts. -/
structure Readable (regexp : String → String → Prop) (h : Heap) (v : Value) : Prop where
  regexps   : ∀ {w o pattern flags}, h.Reachable v w → h.Shows w .regexp o → o.content = .regexp pattern flags →
    regexp pattern flags ∨ pattern = "" ∧ ∀ c ∈ flags.toList, Token.continuesName c = true
  functions : ∀ {w o source}, h.Reachable v w → h.Shows w .function o → o.content = .function source → IsFunctionText source
  errors    : ∀ {w o sort m}, h.Reachable v w → h.Shows w (.error sort) o → o.properties.find? "message" = some m →
    ∃ s, m = .text s

/-- It is enough that no object of the heap is otherwise. -/
theorem Readable.of_objects {regexp : String → String → Prop} {h : Heap} {v : Value}
    (ho : ∀ id o, h.object? id = some o →
      (∀ pattern flags, o.content = .regexp pattern flags →
        regexp pattern flags ∨ pattern = "" ∧ ∀ c ∈ flags.toList, Token.continuesName c = true) ∧
      (∀ source, o.content = .function source → IsFunctionText source) ∧
      ∀ sort m, h.objectKind o = .error sort → o.properties.find? "message" = some m → ∃ s, m = .text s) :
    Readable regexp h v := by
  refine ⟨fun _ hs hc => ?_, fun _ hs hc => ?_, fun _ hs hm => ?_⟩ <;> obtain ⟨⟨id, rfl, hid⟩, hk⟩ := hs
  · exact (ho id _ hid).1 _ _ hc
  · exact (ho id _ hid).2.1 _ hc
  · exact (ho id _ hid).2.2 _ _ hk hm

/-- The text of the pattern and the flags is one regular expression, and the flags begin behind its last slash. -/
def IsSplit (pattern flags : String) : Prop := IsRegexp pattern flags ∧ '/' ∉ flags.toList

theorem Readable.of_leads {regexp : String → String → Prop} {h : Heap} {v w : Value} (hr : Readable regexp h v)
    (hl : h.Leads v w) : Readable regexp h w :=
  ⟨fun hw => hr.regexps (hw.head hl), fun hw => hr.functions (hw.head hl), fun hw => hr.errors (hw.head hl)⟩

/-- An empty pattern is written as a group of nothing. -/
theorem isSplit_empty {flags : String} (hf : ∀ c ∈ flags.toList, Token.continuesName c = true) : IsSplit "(?:)" flags := by
  have hregex : Token.regex ('/' :: ("(?:)/".toList ++ flags.toList)) =
      ⟨("(?:)/".toList ++ flags.toList).length + 1, .ok ()⟩ := by
    have hrun : Token.nameRun flags.toList = flags.toList := List.takeWhile_eq_self_iff.2 (by simpa using hf)
    show (⟨6 + (Token.nameRun flags.toList).length, .ok ()⟩ : Token.Scan Unit) = _
    rw [hrun, List.length_append, Nat.add_right_comm]
    rfl
  refine ⟨isRegexp_of_regex (by simp) hregex rfl nofun, fun hs => ?_⟩
  have := hf _ hs
  revert this
  decide +kernel

theorem Readable.split {h : Heap} {v : Value} {o : Object} {pattern flags : String} (hv : Readable IsSplit h v)
    (hs : h.Shows v .regexp o) (hc : o.content = .regexp pattern flags) : IsSplit (writtenPattern pattern) flags := by
  rcases hv.regexps (.refl v) hs hc with hsplit | ⟨rfl, hf⟩
  · have hne : pattern ≠ "" := by
      rintro rfl
      -- two slashes begin a comment
      obtain ⟨t, ht⟩ := hsplit.1.lexeme nofun
      have hbare := ht.bare
      rw [show ("/" ++ "" ++ "/" ++ flags).toList = '/' :: '/' :: flags.toList by simp] at hbare
      have := (Token.trivia_cons_eq_none.1 hbare).2
      simp [Token.opensComment] at this
    rwa [writtenPattern, if_neg hne]
  · exact isSplit_empty hf

section

variable {reg : Registry} {h : Heap} {max : Nat} {seen : List ObjectId} {v : Value} {text : String}

/-- It matches this value, and not for its name. -/
def Meaning.likeness (h : Heap) (v : Value) : Meaning Value := 
  ⟨fun h' => Matches (fun _ => False) h h' v, fun hg hm => hm.grows hg⟩

/-- It is what the value is recalled as, from where it is written. -/
def Meaning.recalled (r : Renderer) (seen : List ObjectId) (v : Value) : Meaning Value :=
  ⟨fun h' => Recalled r h' seen v, fun hg hr => hr.grows hg⟩

def Meaning.recalledItems (r : Renderer) (seen : List ObjectId) (xs : List (Option Value)) : Meaning (List (Option Value)) :=
  ⟨fun h' => RecalledItems r h' seen xs, fun hg hr => hr.grows hg⟩

/-! ## Texts of values -/

theorem resolver_of_selector {r : Renderer} {kind : Kind} (hs : r.selector kind v = .ok text) : r.resolver v = some text := by
  unfold Renderer.selector at hs
  split at hs
  · split at hs
    · rename_i path hp
      cases hs
      exact (Option.filter_eq_some_iff.1 hp).1
    · cases hs
  · cases hs

theorem shows_function {id : ObjectId} {o : Object} {source : String} (ho : h.object? id = some o)
    (hc : o.content = .function source) : h.Shows (.object id) .function o :=
  ⟨⟨id, rfl, ho⟩, by simp [Heap.objectKind_eq, Object.ownKind?, hc]⟩

/-- An error that is written has a text as its message, which is empty for want of another. -/
theorem Readable.message {o : Object} {sort : ErrorKind} (hv : Readable IsSplit h v) (hs : h.Shows v (.error (some sort)) o) :
    ∃ s, messageOf o = .text s := by
  unfold messageOf
  cases hm : o.properties.find? "message" with
  | none => exact ⟨"", rfl⟩
  | some m =>
    obtain ⟨s, rfl⟩ := hv.errors (.refl v) hs hm
    exact ⟨s, rfl⟩

/-- A primitive is like itself. -/
theorem legible_likeness {t : List Char} (ht : Legible (.exactly v) reg t) (hv : v.hasIdentity = false) :
    Legible (.likeness h v) reg t :=
  ht.imp fun _ _ hw => by
    obtain rfl := hw
    exact Matches.primitive hv

theorem writtenPattern_writtenPattern (pattern : String) : writtenPattern (writtenPattern pattern) = writtenPattern pattern := by
  unfold writtenPattern
  split <;> rfl

/-- **What is written of an object at once** is its selector, or legible as what is like it. -/
theorem legible_of_objectPlan {id : ObjectId} {o : Object} {entered : List ObjectId}
    (hv : Readable IsSplit h (.object id)) (ho : h.object? id = some o)
    (hp : (Renderer.mk h reg.selectorFor max).objectPlan id o = .text (.ok text) entered) :
    reg.selectorFor (.object id) = some text ∨
      h.kindOf (.object id) ≠ .array ∧ Legible (.likeness h (.object id)) reg text.toList := by
  unfold Renderer.objectPlan Renderer.objectPlanOf at hp
  split at hp
  · rename_i pattern flags hk hc
    cases hp
    have hs := Heap.Shows.of_kindOf ho hk
    refine .inr ⟨fun ha => (by cases hk.symm.trans ha), ?_⟩
    exact (legible_regexp (hv.split hs hc).1 (hv.split hs hc).2).imp fun h' v' hm =>
      Matches.regexp hs hc ⟨hm, rfl⟩ rfl (writtenPattern_writtenPattern pattern).symm
  · rename_i time hk hc
    cases hp
    refine .inr ⟨fun ha => (by cases hk.symm.trans ha), ?_⟩
    exact (legible_date time).imp fun h' v' hm =>
      Matches.date (.of_kindOf ho hk) hc ⟨hm, rfl⟩ rfl (Date.text?_timeOf time).symm
  · split at hp
    · exact .inl (resolver_of_selector (Renderer.Plan.text.inj hp).1)
    · cases hp
  · rename_i sort hk
    split at hp
    · rename_i hm
      obtain ⟨s, hs⟩ := hv.message (.of_kindOf ho hk)
      rw [hs] at hm
      cases hm
    · cases hp
  · exact .inl (resolver_of_selector (Renderer.Plan.text.inj hp).1)

/-- **What is written at once** is the selector of the value, or legible as what is like it. -/
theorem legible_of_plan {entered : List ObjectId} (hv : Readable IsSplit h v)
    (hp : (Renderer.mk h reg.selectorFor max).plan seen v = .text (.ok text) entered) :
    reg.selectorFor v = some text ∨ h.kindOf v ≠ .array ∧ Legible (.likeness h v) reg text.toList := by
  unfold Renderer.plan Renderer.planOf at hp
  split at hp
  · cases hp
    exact .inr ⟨nofun, legible_likeness (legible_wordValue "undefined" (by decide)) rfl⟩
  · cases hp
    exact .inr ⟨nofun, legible_likeness (legible_word "null" .null .null (by decide) rfl) rfl⟩
  · rename_i b
    cases hp
    refine .inr ⟨nofun, legible_likeness ?_ rfl⟩
    cases b
    · exact legible_word "false" .false (.bool false) (by decide) rfl
    · exact legible_word "true" .true (.bool true) (by decide) rfl
  · cases hp
    exact .inr ⟨nofun, legible_likeness (legible_number _) rfl⟩
  · cases hp
    exact .inr ⟨nofun, legible_likeness (legible_text _) rfl⟩
  · exact .inl (resolver_of_selector (Renderer.Plan.text.inj hp).1)
  · rename_i id
    split at hp
    · split at hp
      · cases hp
      · exact .inl (resolver_of_selector (Renderer.Plan.text.inj hp).1)
    · rename_i o ho
      split at hp
      · rename_i source hc
        cases hp
        have hs := shows_function ho hc
        refine .inr ⟨fun ha => (by cases hs.kindOf.symm.trans ha), ?_⟩
        exact (legible_function (hv.functions (.refl _) hs hc)).imp fun h' v' hm => Matches.function hs hc ⟨hm, rfl⟩ rfl
      · split at hp
        · cases hp
        · exact legible_of_objectPlan hv ho hp

/-- A text that is not the selector of its value has to be legible by itself; a selector is so in any case. -/
theorem legible_recalled (hreg : reg.HasPaths) (ht : ((Renderer.mk h reg.selectorFor max).render seen v).outcome = .ok text)
    (hl : reg.selectorFor v = some text ∨ (¬ (Renderer.mk h reg.selectorFor max).Selects seen v →
      Legible (.recalled ⟨h, reg.selectorFor, max⟩ seen v) reg text.toList)) :
    Legible (.recalled ⟨h, reg.selectorFor, max⟩ seen v) reg text.toList := by
  by_cases hs : (Renderer.mk h reg.selectorFor max).Selects seen v
  · obtain ⟨path, hp, hpath⟩ := id hs
    cases ht.symm.trans hpath
    have hv := legible_path (hreg _ _ (Registry.mem_of_selectorFor hp)) (Registry.lookup?_selectorFor hp)
    refine hv.imp fun h' w hw => ?_
    obtain rfl := hw
    exact Recalled.selected hs
  · exact hl.elim (fun hp => absurd ⟨text, hp, ht⟩ hs) (fun hl => hl hs)

theorem eq_ok_of_map {α β : Type} {f : α → β} {x : Except Failure α} {b : β} (h : x.map f = .ok b) :
    ∃ a, x = .ok a ∧ f a = b := by
  cases x with
  | ok a => exact ⟨a, rfl, Except.ok.inj h⟩
  | error e => cases h

/-- **Every text that a walk comes to is legible**, as what its value is recalled as from there. -/
theorem legible_of_render (hreg : reg.HasPaths) (max : Nat) :
    (∀ seen v, Readable IsSplit h v → ∀ text, ((Renderer.mk h reg.selectorFor max).render seen v).outcome = .ok text →
      Legible (.recalled ⟨h, reg.selectorFor, max⟩ seen v) reg text.toList) ∧
    (∀ seen xs, (∀ v, some v ∈ xs → Readable IsSplit h v) → ∀ texts,
      ((Renderer.mk h reg.selectorFor max).renderItems seen xs).outcome = .ok texts →
        LegibleItems reg (.recalledItems ⟨h, reg.selectorFor, max⟩ seen xs) xs texts) := by
  refine (Renderer.mk h reg.selectorFor max).plan_induction
    (P := fun seen v => Readable IsSplit h v → ∀ text, ((Renderer.mk h reg.selectorFor max).render seen v).outcome = .ok text →
      Legible (.recalled ⟨h, reg.selectorFor, max⟩ seen v) reg text.toList)
    (Q := fun seen xs => (∀ v, some v ∈ xs → Readable IsSplit h v) → ∀ texts,
      ((Renderer.mk h reg.selectorFor max).renderItems seen xs).outcome = .ok texts →
        LegibleItems reg (.recalledItems ⟨h, reg.selectorFor, max⟩ seen xs) xs texts)
    ?text ?array ?error ?nil ?hole ?stop ?item
  case text =>
    intro seen v outcome entered hp hv text ht
    refine legible_recalled hreg ht ?_
    rw [Renderer.render_text hp] at ht
    obtain rfl : outcome = .ok text := ht
    exact (legible_of_plan hv hp).imp_right fun ⟨hk, hl⟩ hn => hl.imp fun h' w hm => Recalled.plain hn hk hm
  case array =>
    intro seen v id xs hp ih hv text ht
    obtain ⟨rfl, -, o, ho, hc, hk, -⟩ := Renderer.planOf_array hp
    refine legible_recalled hreg ht ?_
    rw [Renderer.render_array hp] at ht
    dsimp only [Renderer.arrayOutcome] at ht
    split at ht
    · rename_i texts hts
      cases ht
      have hi := ih (fun w hw => hv.of_leads (Renderer.leads_of_planOf_array hp hw)) texts hts
      exact .inr fun hn => legible_array hi fun h' w ys hw hys =>
        Recalled.array hn (.of_kindOf ho hk) hc ⟨hw, rfl⟩ rfl hys
    · exact .inl (resolver_of_selector ht)
    · cases ht
  case error =>
    intro seen v id sort message hp ih hv text ht
    obtain ⟨rfl, -, o, ho, hk, rfl, -⟩ := Renderer.planOf_error hp
    have hs := Heap.Shows.of_kindOf ho hk
    obtain ⟨s, hm⟩ := hv.message hs
    refine legible_recalled hreg ht ?_
    rw [Renderer.render_error hp, hm, Renderer.render_text rfl] at ht
    cases ht
    refine .inr fun hn => ?_
    have hl : Legible (.recalled ⟨h, reg.selectorFor, max⟩ seen (.object id)) reg _ :=
      (@legible_error _ _ sort s (legible_text s)).imp fun h' w hw =>
        Recalled.plain hn (fun ha => by cases hk.symm.trans ha) (Matches.error hs hm ⟨hw, rfl⟩ rfl)
    simpa using hl
  case nil =>
    intro seen _ texts ht
    rw [Renderer.renderItems_nil] at ht
    cases ht
    exact .nil fun _ => RecalledItems.nil
  case hole =>
    intro seen rest ih hv texts ht
    rw [Renderer.renderItems_hole] at ht
    obtain ⟨others, hts, rfl⟩ := eq_ok_of_map ht
    exact .hole (ih (fun v hm => hv v (List.mem_cons_of_mem _ hm)) others hts) fun _ _ => RecalledItems.hole
  case stop =>
    intro seen v rest e _ he _ texts ht
    rw [Renderer.renderItems_stop he] at ht
    cases ht
  case item =>
    intro seen v rest text ihv he ihr hv texts ht
    rw [Renderer.renderItems_item he] at ht
    obtain ⟨others, hts, rfl⟩ := eq_ok_of_map ht
    exact .item (ihv (hv v List.mem_cons_self) text he) (ihr (fun w hm => hv w (List.mem_cons_of_mem _ hm)) others hts)
      fun _ _ _ => RecalledItems.item

/-- What is recalled matches, for readers who have the registry. -/
theorem matches_of_recalled {h' : Heap} {v' : Value} (hr : Recalled ⟨h, reg.selectorFor, max⟩ h' seen v v') :
    Matches reg.Named h h' v v' :=
  hr.matches fun _ path hp => ⟨path, hp⟩

/-- A legible text is read from its first byte to its last, and evaluated. -/
theorem Legible.recalled {m : Meaning Value} (hl : Legible m reg text.toList) (h : Heap) :
    ∃ e v' h', parseExpressionAt text 0 = .ok e ∧ e.span = ⟨0, Text.byteLength text.toList⟩ ∧
      h.evaluate reg text e = .ok (v', h') ∧ h.Grows h' ∧ m.Holds h' v' := by
  obtain ⟨e, hf, he⟩ := hl 0 [] .nil
  obtain ⟨v', h', hrun, hg, hm⟩ := he [] rfl h
  rw [List.nil_append, List.append_nil] at hrun
  exact ⟨e, v', h', hf.parse.1, hf.parse.2, hrun, hg, hm⟩

end

/-- **A value that is written is read back.**  On every heap, with every registry whose paths can be read, for a value that
leads to no regular expression, function or message that cannot: the text of the value is one expression, and evaluated
with the same registry it gives a value that matches. -/
theorem source_recalled {reg : Registry} {h : Heap} {max : Nat} {v : Value} {text : String} (hreg : reg.HasPaths)
    (hv : Readable IsSplit h v) (ht : (Renderer.mk h reg.selectorFor max).source v = .ok text) :
    ∃ e v' h', parseExpressionAt text 0 = .ok e ∧ e.span = ⟨0, Text.byteLength text.toList⟩ ∧
      h.evaluate reg text e = .ok (v', h') ∧ h.Grows h' ∧ Matches reg.Named h h' v v' := by
  obtain ⟨e, v', h', hp, hs, he, hg, hr⟩ := ((legible_of_render hreg max).1 [] v hv text ht).recalled h
  exact ⟨e, v', h', hp, hs, he, hg, matches_of_recalled hr⟩

/-! ## A value that is read back, and one that is not -/

/-- `[x, /(?:)/g, Error("no"), ,]`, where `x` is the name of an object, which is in the array for its own sake. -/
def sample : Heap :=
  { objects := #[.ordinary, .regexp "" "g", .error .error (some (.text "no")),
      .array [some (.object ⟨0⟩), some (.object ⟨1⟩), some (.object ⟨2⟩), none]] }

/-- The registry in which the first object is `x`. -/
def sampleNames : Registry := ({} : Registry).bind "x" (.object ⟨0⟩)

/-- An object with a name, an empty regular expression, an error and a hole, all in an array, are read back. -/
theorem source_recalled_sample : sampleNames.HasPaths ∧ Readable IsSplit sample (.object ⟨3⟩) ∧
    (Renderer.mk sample sampleNames.selectorFor 100).source (.object ⟨3⟩) = .ok "[x, /(?:)/g, Error(\"no\"), ,]" ∧
    ∃ e v' h', parseExpressionAt "[x, /(?:)/g, Error(\"no\"), ,]" 0 = .ok e ∧ e.span = ⟨0, 28⟩ ∧
      sample.evaluate sampleNames "[x, /(?:)/g, Error(\"no\"), ,]" e = .ok (v', h') ∧ sample.Grows h' ∧
      Matches sampleNames.Named sample h' (.object ⟨3⟩) v' := by
  have paths : sampleNames.HasPaths := by
    intro path v hm
    obtain ⟨rfl, rfl⟩ : path = "x" ∧ v = .object ⟨0⟩ := by
      simpa [sampleNames, Registry.entries, Registry.bind, Dictionary.insert, Dictionary.keys] using hm
    exact isPath_of_identifier (Token.isToken_of_letter 'x' (by decide +kernel)) (by decide)
  have readable : Readable IsSplit sample (.object ⟨3⟩) := by
    refine .of_objects fun id o ho => ?_
    have : o ∈ sample.objects := Array.mem_of_getElem? ho
    simp only [sample, List.mem_toArray, List.mem_cons, List.not_mem_nil, or_false] at this
    rcases this with rfl | rfl | rfl | rfl
    · exact ⟨by rintro _ _ ⟨⟩, by rintro _ ⟨⟩, by rintro _ _ ⟨⟩⟩
    · refine ⟨?_, by rintro _ ⟨⟩, by rintro _ _ ⟨⟩⟩
      rintro _ _ ⟨⟩
      exact .inr ⟨rfl, List.forall_mem_singleton.2 (by decide +kernel)⟩
    · refine ⟨by rintro _ _ ⟨⟩, by rintro _ ⟨⟩, ?_⟩
      rintro _ m - hm
      exact ⟨"no", (Option.some.inj hm).symm⟩
    · exact ⟨by rintro _ _ ⟨⟩, by rintro _ ⟨⟩, by rintro _ _ ⟨⟩⟩
  have text : (Renderer.mk sample sampleNames.selectorFor 100).source (.object ⟨3⟩) =
      .ok "[x, /(?:)/g, Error(\"no\"), ,]" := by decide +kernel
  exact ⟨paths, readable, text, source_recalled paths readable text⟩

/-- A regular expression whose flags have a slash in them, behind a bracket that its pattern leaves open, is written as one
with another pattern: without the condition on the flags it would not be read back. -/
theorem source_not_recalled : ∃ (h : Heap) (v : Value) (text : String), Registry.HasPaths {} ∧ Readable IsRegexp h v ∧
    (Renderer.mk h (Registry.selectorFor {}) 100).source v = .ok text ∧
    ¬ ∃ e v' h', parseExpressionAt text 0 = .ok e ∧ e.span = ⟨0, Text.byteLength text.toList⟩ ∧
      h.evaluate {} text e = .ok (v', h') ∧ Matches (Registry.Named {}) h h' v v' := by
  have joined : ∀ pattern flags, ("/" ++ pattern ++ "/" ++ flags).toList = "/[/]/g".toList → IsRegexp pattern flags :=
    fun pattern flags h => isRegexp_of_regex (t := ['[', '/', ']', '/', 'g']) h rfl rfl (List.cons_ne_nil _ _)
  refine ⟨{ objects := #[.regexp "[" "]/g"] }, .object ⟨0⟩, "/[/]/g", fun _ _ hm => absurd hm List.not_mem_nil,
    .of_objects fun id o ho => ?_, ?_, ?_⟩
  · obtain rfl : o = .regexp "[" "]/g" := by simpa using Array.mem_of_getElem? ho
    refine ⟨?_, by rintro _ ⟨⟩, by rintro _ _ ⟨⟩⟩
    rintro _ _ ⟨⟩
    exact .inl (joined _ _ rfl)
  · have hplan : Renderer.plan ⟨{ objects := #[.regexp "[" "]/g"] }, Registry.selectorFor {}, 100⟩ []
        (.object ⟨0⟩) = .text (.ok "/[/]/g") [⟨0⟩] := rfl
    rw [Renderer.source, Renderer.render_text hplan]
  · rintro ⟨e, v', h', hp, -, he, hm⟩
    obtain ⟨w, hw⟩ := (joined "[/]" "g" rfl).lexeme (by decide)
    obtain ⟨-, rfl, -⟩ := hw.regex
    have hflags : '/' ∉ "g".toList := by decide
    have hf := (fills_token (.regex · "[/]" "g") hw rfl (derives_regex "[/]" hflags) .nil 0).parse.1
    cases hp.symm.trans hf
    rw [Heap.evaluate, Evaluator.evaluate] at he
    cases he
    have hk : Heap.kindOf { objects := #[.regexp "[" "]/g"] } (.object ⟨0⟩) = .regexp := rfl
    cases hm with
    | array hs => cases hk.symm.trans hs.kindOf
    | date hs => cases hk.symm.trans hs.kindOf
    | function hs => cases hk.symm.trans hs.kindOf
    | error hs => cases hk.symm.trans hs.kindOf
    | regexp hs hc hs' hc' =>
      obtain ⟨⟨_, ⟨⟩, ho⟩, -⟩ := hs
      obtain ⟨⟨_, ⟨⟩, ho'⟩, -⟩ := hs'
      cases ho
      cases ho'
      have hflags := (Content.regexp.inj hc).2.trans (Content.regexp.inj hc').2.symm
      exact absurd hflags (by decide)

end Readback
