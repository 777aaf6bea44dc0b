import Readback.Proofs.Grammar.Spot
import Readback.Proofs.Snippet.Expression
/-!
# Trees that are written

The tokens of a tree, with blanks between them, are read as the tree when it is one of the layers of the grammar
(`parse_written`).  There is one lemma for each way in which a layer is made, and the reading is by induction on the layers.
-/
namespace Readback

namespace Grammar

open Token (Kind Gap Lexeme)

variable {b : Bool} {g : List Char} {ts : List String}
variable {P : Token → Prop}

/-! ## Lists -/

/-- Arguments, and the parenthesis behind them. -/
theorem reads_arguments {args : List Expr} (ha : ∀ e ∈ args, Layer.assignment.Reads e) (hy : Faces [' '] false ts P) (b : Bool) :
    Faces [' '] true (itemTokens args ++ ")" :: ts) (fun _ => True) ∧
    ∀ n, ∃ args' n', Derives b .argumentsRest (spot [' '] n true (itemTokens args ++ ")" :: ts)) args'
      (spot [' '] n' false ts) ∧ args'.map Expr.bare = args.map Expr.bare := by
  match args, ha with
  | [], _ =>
    refine ⟨(faces_mark (c := ')') (k := .rParen) (by decide) ts true).mono fun _ _ => trivial, fun n => ?_⟩
    obtain ⟨n', ht⟩ := takes_mark (c := ')') (k := .rParen) (by decide) gap_blank _ hy rfl n
    exact ⟨[], n', .argumentsEnd ht, rfl⟩
  | [e], ha =>
    obtain ⟨hf, hr⟩ := ha e (List.mem_singleton_self e) b true [' '] (")" :: ts) gap_blank
      (faces_closer (c := ')') (k := .rParen) (by decide) rfl ts)
    refine ⟨hf.mono fun _ _ => trivial, fun n => ?_⟩
    obtain ⟨e', n₁, he, hb⟩ := hr n
    obtain ⟨n', ht⟩ := takes_mark (c := ')') (k := .rParen) (by decide) gap_blank _ hy rfl n₁
    exact ⟨[e'], n', .lastArgument (Layer.ne_of_opens (hf n).2 rfl) he ht, by simp only [List.map_cons, hb]⟩
  | e :: x :: rest, ha =>
    obtain ⟨ha, hrest⟩ := List.forall_mem_cons.1 ha
    obtain ⟨hf', hr'⟩ := reads_arguments hrest hy b
    have htokens : itemTokens (e :: x :: rest) ++ ")" :: ts =
        e.tokens ++ "," :: (itemTokens (x :: rest) ++ ")" :: ts) := by
      rw [itemTokens, List.append_assoc, List.cons_append]
      nofun
    obtain ⟨hf, hr⟩ := ha b true [' '] ("," :: (itemTokens (x :: rest) ++ ")" :: ts)) gap_blank
      (faces_closer (c := ',') (k := .comma) (by decide) rfl _)
    rw [htokens]
    refine ⟨hf.mono fun _ _ => trivial, fun n => ?_⟩
    obtain ⟨e', n₁, he, hb⟩ := hr n
    obtain ⟨n₂, ht⟩ := takes_mark (c := ',') (k := .comma) (by decide) gap_blank false hf' rfl n₁
    obtain ⟨args', n', hargs, hbs⟩ := hr' n₂
    exact ⟨e' :: args', n', .argument (Layer.ne_of_opens (hf n).2 rfl) he ht hargs, by simp only [List.map_cons, hb, hbs]⟩

/-- The items of a sequence, behind the first. -/
theorem reads_items {items : List Expr} (hi : ∀ e ∈ items, Layer.assignment.Reads e)
    (hy : Faces [' '] false ts endsExpression) (b : Bool) :
    Faces [' '] false (items.flatMap (fun e => "," :: e.tokens) ++ ts)
      (fun t => endsAssignment t ∧ (t.kind = .comma ↔ items ≠ [])) ∧
    ∀ n, ∃ items' n', Derives b .itemsRest (spot [' '] n false (items.flatMap (fun e => "," :: e.tokens) ++ ts)) items'
      (spot [' '] n' false ts) ∧ items'.map Expr.bare = items.map Expr.bare := by
  induction items with
  | nil => exact ⟨hy.mono fun t ht => ⟨ht.1, by simp [ht.2]⟩, fun n => ⟨[], n, .noItem (hy n).2.2, rfl⟩⟩
  | cons e items ih =>
    obtain ⟨he, hi⟩ := List.forall_mem_cons.1 hi
    obtain ⟨hf', hr'⟩ := ih hi
    obtain ⟨hf, hr⟩ := he b true [' '] _ gap_blank (hf'.mono fun _ ht => ht.1)
    rw [List.flatMap_cons, List.cons_append, List.cons_append, List.append_assoc]
    refine ⟨(faces_mark (c := ',') (k := .comma) (by decide) _ false).mono fun t ht => ?_, fun n => ?_⟩
    · exact ⟨endsAssignment_of_kind ht rfl, by simp [ht]⟩
    · obtain ⟨n₁, ht⟩ := takes_mark (c := ',') (k := .comma) (by decide) gap_blank false hf rfl n
      obtain ⟨e', n₂, he, hb⟩ := hr n₁
      obtain ⟨items', n', hitems, hbs⟩ := hr' n₂
      exact ⟨e' :: items', n', .item ht he hitems, by simp only [List.map_cons, hb, hbs]⟩

theorem itemTokens_cons (e : Expr) (es : List Expr) :
    itemTokens (e :: es) = e.tokens ++ es.flatMap (fun e => "," :: e.tokens) := by
  induction es generalizing e with
  | nil => rw [itemTokens, List.flatMap_nil, List.append_nil]
  | cons x es ih =>
    rw [itemTokens, ih x, List.flatMap_cons, List.cons_append]
    nofun

/-- Elements, and the bracket behind them. -/
theorem reads_elements {elements : List (Option Expr)} (hi : ∀ e, some e ∈ elements → Layer.assignment.Reads e)
    (hy : Faces [' '] false ts P) (b : Bool) :
    Faces [' '] true (elementTokens elements ++ "]" :: ts) (fun _ => True) ∧
    ∀ n, ∃ elements' n', Derives b .elementsRest (spot [' '] n true (elementTokens elements ++ "]" :: ts)) elements'
      (spot [' '] n' false ts) ∧ elements'.map (·.map Expr.bare) = elements.map (·.map Expr.bare) := by
  match elements, hi with
  | [], _ =>
    refine ⟨(faces_mark (c := ']') (k := .rBracket) (by decide) ts true).mono fun _ _ => trivial, fun n => ?_⟩
    obtain ⟨n', ht⟩ := takes_mark (c := ']') (k := .rBracket) (by decide) gap_blank _ hy rfl n
    exact ⟨[], n', .elementsEnd ht, rfl⟩
  | none :: rest, hi =>
    obtain ⟨hf', hr'⟩ := reads_elements (fun e he => hi e (List.mem_cons_of_mem _ he)) hy b
    refine ⟨(faces_mark (c := ',') (k := .comma) (by decide) _ true).mono fun _ _ => trivial, fun n => ?_⟩
    obtain ⟨n₁, ht⟩ := takes_mark (c := ',') (k := .comma) (by decide) gap_blank true hf' rfl n
    obtain ⟨elements', n', he, hb⟩ := hr' n₁
    exact ⟨none :: elements', n', .hole ht he, by simp only [List.map_cons, hb]⟩
  | [some e], hi =>
    obtain ⟨hf, hr⟩ := hi e (List.mem_singleton_self _) b true [' '] ("]" :: ts) gap_blank
      (faces_closer (c := ']') (k := .rBracket) (by decide) rfl ts)
    refine ⟨hf.mono fun _ _ => trivial, fun n => ?_⟩
    obtain ⟨e', n₁, he, hb⟩ := hr n
    obtain ⟨n', ht⟩ := takes_mark (c := ']') (k := .rBracket) (by decide) gap_blank _ hy rfl n₁
    exact ⟨[some e'], n', .lastElement (Layer.ne_of_opens (hf n).2 rfl) (Layer.ne_of_opens (hf n).2 rfl) he ht,
      by simp only [List.map_cons, Option.map_some, hb]⟩
  | some e :: x :: rest, hi =>
    obtain ⟨hf', hr'⟩ := reads_elements (fun e he => hi e (List.mem_cons_of_mem _ he)) hy b
    have htokens : elementTokens (some e :: x :: rest) ++ "]" :: ts =
        e.tokens ++ "," :: (elementTokens (x :: rest) ++ "]" :: ts) := by
      rw [elementTokens, List.append_assoc, List.cons_append]
      nofun
    obtain ⟨hf, hr⟩ := hi e List.mem_cons_self b true [' '] ("," :: (elementTokens (x :: rest) ++ "]" :: ts)) gap_blank
      (faces_closer (c := ',') (k := .comma) (by decide) rfl _)
    rw [htokens]
    refine ⟨hf.mono fun _ _ => trivial, fun n => ?_⟩
    obtain ⟨e', n₁, he, hb⟩ := hr n
    obtain ⟨n₂, ht⟩ := takes_mark (c := ',') (k := .comma) (by decide) gap_blank false hf' rfl n₁
    obtain ⟨elements', n', hrest, hbs⟩ := hr' n₂
    exact ⟨some e' :: elements', n', .element (Layer.ne_of_opens (hf n).2 rfl) (Layer.ne_of_opens (hf n).2 rfl) he ht hrest,
      by simp only [List.map_cons, Option.map_some, hb, hbs]⟩

/-! ## Properties -/

/-- The one token of a key is taken with its text, and closes nothing. -/
theorem takes_key {w : String} {k : Token.Kind} {v : List Char} (hl : Lexeme true w.toList k v) (hk : k ≠ .rBrace)
    (hend : k.endsOperand = true) (hy : Faces [' '] false ts P) :
    Faces [' '] true (w :: ts) (·.kind ≠ .rBrace) ∧
    ∀ n, ∃ n', (spot [' '] n true (w :: ts)).Takes k (spot [' '] n' false ts) ∧
      (spot [' '] n true (w :: ts)).hand.text = String.ofList v := by
  have hf := faces_of_lexeme hl gap_blank ts
  refine ⟨hf.mono fun t ht => ht.1.trans_ne hk, fun n => ?_⟩
  obtain ⟨n', ht⟩ := takes_of_lexeme hl gap_blank hy hend n
  exact ⟨n', ht, (hf n).2.2.1⟩

/-- A key, where what is behind it is the bit's affair alone. -/
theorem reads_key {s : Span} {key : PropertyKey} {e : Expr} (hp : (Property.pair s key e).Plain)
    (hi : ∀ x ∈ (Property.pair s key e).parts, Layer.assignment.Reads x) (hy : Faces [' '] false ts P) (b : Bool) :
    Faces [' '] true (key.tokens ++ ts) (·.kind ≠ .rBrace) ∧
    ∀ n, ∃ key' n', Derives b .propertyKey (spot [' '] n true (key.tokens ++ ts)) key' (spot [' '] n' false ts) ∧
      key'.move .erase = key.move .erase := by
  cases key with
  | name name =>
    rw [PropertyKey.tokens, List.singleton_append]
    obtain ⟨hf, hr⟩ := takes_key (Token.IsToken.identifier hp true) (by decide) rfl hy
    refine ⟨hf, fun n => ?_⟩
    obtain ⟨n', ht, htext⟩ := hr n
    refine ⟨_, n', .nameKey ht.toSteps (by rw [ht.kind]; rfl), ?_⟩
    rw [htext, String.ofList_toList]
  | text value =>
    rw [PropertyKey.tokens, List.singleton_append]
    have hl : Lexeme true (Text.quote value).toList .string value.toList := by
      rw [Text.quote, String.toList_ofList]
      exact Token.lexeme_quote _ _
    obtain ⟨hf, hr⟩ := takes_key hl (by decide) rfl hy
    refine ⟨hf, fun n => ?_⟩
    obtain ⟨n', ht, htext⟩ := hr n
    refine ⟨_, n', .textKey ht, ?_⟩
    rw [htext, String.ofList_toList]
  | number x =>
    obtain ⟨size, rfl⟩ := hp
    rw [PropertyKey.tokens, List.singleton_append]
    obtain ⟨-, -, -, -, -, -, hr⟩ := Number.spells_sizeText size
    have hl : Lexeme true (Number.finite false size).source.toList .number (Number.sizeText size) := by
      rw [Number.source, String.toList_ofList]
      exact Token.lexeme_number _ _
    obtain ⟨hf, hkey⟩ := takes_key hl (by decide) rfl hy
    refine ⟨hf, fun n => ?_⟩
    obtain ⟨n', ht, htext⟩ := hkey n
    exact ⟨_, n', .numberKey ht (by rw [htext, String.toList_ofList]; exact hr), rfl⟩
  | computed x =>
    obtain ⟨hf, hr⟩ := hi x List.mem_cons_self b true [' '] ("]" :: ts) gap_blank
      (faces_closer (c := ']') (k := .rBracket) (by decide) rfl ts)
    rw [PropertyKey.tokens, List.cons_append, List.append_assoc]
    refine ⟨(faces_mark (c := '[') (k := .lBracket) (by decide) _ true).mono fun t ht => by rw [ht]; decide, fun n => ?_⟩
    obtain ⟨n₁, ho⟩ := takes_mark (c := '[') (k := .lBracket) (by decide) gap_blank true hf rfl n
    obtain ⟨e', n₂, he, hb⟩ := hr n₁
    obtain ⟨n', hc⟩ := takes_mark (c := ']') (k := .rBracket) (by decide) gap_blank false hy rfl n₂
    exact ⟨_, n', .computedKey ho he hc, congrArg PropertyKey.computed hb⟩

theorem reads_property {p : Property} (hp : p.Plain) (hi : ∀ x ∈ p.parts, Layer.assignment.Reads x)
    (hy : Faces [' '] false ts fun t => t.kind = .comma ∨ t.kind = .rBrace) (b : Bool) :
    Faces [' '] true (p.tokens ++ ts) (·.kind ≠ .rBrace) ∧
    ∀ n, ∃ p' n', Derives b .property (spot [' '] n true (p.tokens ++ ts)) p' (spot [' '] n' false ts) ∧
      p'.move .erase = p.move .erase := by
  cases p with
  | shorthand s name =>
    rw [Property.tokens, List.singleton_append]
    obtain ⟨hf, hr⟩ := takes_key (Token.IsToken.identifier hp true) (by decide) rfl hy
    refine ⟨hf, fun n => ?_⟩
    obtain ⟨n', ht, htext⟩ := hr n
    refine ⟨_, n', .shorthand ht (hy n').2, ?_⟩
    rw [htext, String.ofList_toList]
    rfl
  | pair s key e =>
    have he : Layer.assignment.Reads e := hi e (by cases key <;> simp [Property.parts])
    obtain ⟨hf₂, hr₂⟩ := he b true [' '] ts gap_blank
      (hy.mono fun t ht => by rcases ht with ht | ht <;> exact endsAssignment_of_kind ht rfl)
    have hcolon := faces_mark (c := ':') (k := .colon) (by decide) (e.tokens ++ ts) false
    obtain ⟨hf₁, hr₁⟩ := reads_key hp hi hcolon b
    rw [Property.tokens, List.append_assoc, List.cons_append]
    refine ⟨hf₁, fun n => ?_⟩
    obtain ⟨key', n₁, hk, hbk⟩ := hr₁ n
    obtain ⟨n₂, hc⟩ := takes_mark (c := ':') (k := .colon) (by decide) gap_blank false hf₂ rfl n₁
    obtain ⟨e', n', hv, hbv⟩ := hr₂ n₂
    refine ⟨_, n', .pair hk hc hv, ?_⟩
    simp only [Property.move, hbk, Span.move_erase _ s]
    exact congrArg _ hbv

/-- Properties, and the brace behind them. -/
theorem reads_properties {items : List Property} (hp : ∀ p ∈ items, p.Plain)
    (hi : ∀ p ∈ items, ∀ x ∈ p.parts, Layer.assignment.Reads x) (hy : Faces [' '] false ts P) (b : Bool) :
    Faces [' '] true (propertyTokens items ++ "\x7d" :: ts) (fun _ => True) ∧
    ∀ n, ∃ items' n', Derives b .propertiesRest (spot [' '] n true (propertyTokens items ++ "\x7d" :: ts)) items'
      (spot [' '] n' false ts) ∧ items'.map (·.move .erase) = items.map (·.move .erase) := by
  match items, hp, hi with
  | [], _, _ =>
    refine ⟨(faces_mark (c := '\x7d') (k := .rBrace) (by decide) ts true).mono fun _ _ => trivial, fun n => ?_⟩
    obtain ⟨n', ht⟩ := takes_mark (c := '\x7d') (k := .rBrace) (by decide) gap_blank _ hy rfl n
    exact ⟨[], n', .propertiesEnd ht, rfl⟩
  | [p], hp, hi =>
    have hclose := faces_mark (c := '\x7d') (k := .rBrace) (by decide) ts false
    obtain ⟨hf, hr⟩ := reads_property (hp p (List.mem_singleton_self p)) (hi p (List.mem_singleton_self p))
      (hclose.mono fun _ ht => .inr ht) b
    refine ⟨hf.mono fun _ _ => trivial, fun n => ?_⟩
    obtain ⟨p', n₁, hd, hb⟩ := hr n
    obtain ⟨n', ht⟩ := takes_mark (c := '\x7d') (k := .rBrace) (by decide) gap_blank _ hy rfl n₁
    exact ⟨[p'], n', .lastProperty (hf n).2 hd ht, by simp only [List.map_cons, hb]⟩
  | p :: x :: rest, hp, hi =>
    obtain ⟨hf', hr'⟩ := reads_properties (fun q hq => hp q (List.mem_cons_of_mem _ hq))
      (fun q hq => hi q (List.mem_cons_of_mem _ hq)) hy b
    have htokens : propertyTokens (p :: x :: rest) ++ "\x7d" :: ts =
        p.tokens ++ "," :: (propertyTokens (x :: rest) ++ "\x7d" :: ts) := by
      rw [propertyTokens, List.append_assoc, List.cons_append]
      nofun
    have hcomma := faces_mark (c := ',') (k := .comma) (by decide) (propertyTokens (x :: rest) ++ "\x7d" :: ts) false
    obtain ⟨hf, hr⟩ := reads_property (hp p List.mem_cons_self) (hi p List.mem_cons_self) (hcomma.mono fun _ ht => .inl ht) b
    rw [htokens]
    refine ⟨hf.mono fun _ _ => trivial, fun n => ?_⟩
    obtain ⟨p', n₁, hd, hb⟩ := hr n
    obtain ⟨n₂, ht⟩ := takes_mark (c := ',') (k := .comma) (by decide) gap_blank false hf' rfl n₁
    obtain ⟨items', n', hrest, hbs⟩ := hr' n₂
    exact ⟨p' :: items', n', .moreProperties (hf n).2 hd ht hrest, by simp only [List.map_cons, hb, hbs]⟩

/-! ## Primary expressions -/

theorem reads_array {s : Span} {items : List (Option Expr)} (hi : ∀ e, some e ∈ items → Layer.assignment.Reads e) :
    Layer.primary.Reads (.array s items) := by
  intro b bit g ts hg hy
  obtain ⟨hf, hr⟩ := reads_elements hi hy b
  rw [Expr.tokens, List.cons_append, List.append_assoc]
  refine ⟨(faces_of_lexeme (lexeme_mark (c := '[') (k := .lBracket) (by decide) bit) hg _).mono fun t ht => ?_, fun n => ?_⟩
  · rw [ht.1]
    rfl
  obtain ⟨n₁, ho⟩ := takes_mark (c := '[') (k := .lBracket) (by decide) hg bit hf rfl n
  obtain ⟨items', n', hd, hb⟩ := hr n₁
  refine ⟨_, n', .array ho hd, ?_⟩
  simp only [Expr.bare, Expr.move, moveElements_eq_map, Span.move_erase _ s]
  exact congrArg _ hb

theorem reads_object {s : Span} {items : List Property} (hp : ∀ p ∈ items, p.Plain)
    (hi : ∀ p ∈ items, ∀ x ∈ p.parts, Layer.assignment.Reads x) : Layer.primary.Reads (.object s items) := by
  intro b bit g ts hg hy
  obtain ⟨hf, hr⟩ := reads_properties hp hi hy b
  rw [Expr.tokens, List.cons_append, List.append_assoc]
  refine ⟨(faces_of_lexeme (lexeme_mark (c := '\x7b') (k := .lBrace) (by decide) bit) hg _).mono fun t ht => ?_, fun n => ?_⟩
  · rw [ht.1]
    rfl
  obtain ⟨n₁, ho⟩ := takes_mark (c := '\x7b') (k := .lBrace) (by decide) hg bit hf rfl n
  obtain ⟨items', n', hd, hb⟩ := hr n₁
  refine ⟨_, n', .object ho hd, ?_⟩
  simp only [Expr.bare, Expr.move, moveProperties_eq_map, Span.move_erase _ s]
  exact congrArg _ hb

theorem faces_rParen_expression (ts : List String) : Faces [' '] false (")" :: ts) endsExpression :=
  (faces_mark (c := ')') (k := .rParen) (by decide) ts false).mono fun _ ht => endsExpression_of_kind ht rfl nofun

theorem faces_rBracket_expression (ts : List String) : Faces [' '] false ("]" :: ts) endsExpression :=
  (faces_mark (c := ']') (k := .rBracket) (by decide) ts false).mono fun _ ht => endsExpression_of_kind ht rfl nofun

theorem reads_group {s : Span} {e : Expr} (he : Layer.expression.Reads e) : Layer.primary.Reads (.group s e) := by
  intro b bit g ts hg hy
  obtain ⟨hf, hr⟩ := he b true [' '] (")" :: ts) gap_blank (faces_rParen_expression ts)
  rw [Expr.tokens, List.cons_append, List.append_assoc]
  refine ⟨(faces_of_lexeme (lexeme_mark (c := '(') (k := .lParen) (by decide) bit) hg _).mono fun t ht => ?_, fun n => ?_⟩
  · rw [ht.1]
    rfl
  obtain ⟨n₁, ho⟩ := takes_mark (c := '(') (k := .lParen) (by decide) hg bit hf rfl n
  obtain ⟨e', n₂, hd, hb⟩ := hr n₁
  obtain ⟨n', hc⟩ := takes_mark (c := ')') (k := .rParen) (by decide) gap_blank false hy rfl n₂
  refine ⟨_, n', .group ho hd hc, ?_⟩
  simp only [Expr.bare, Expr.move, Span.move_erase _ s]
  exact congrArg _ hb

/-! ## Members, calls and `new` -/

section

variable {s : Span} {e x : Expr} {args : List Expr} {calls : Bool}

theorem reads_field {name : String} (he : (Layer.chain calls).Reads e) (hn : Token.IsToken .identifier name) :
    (Layer.chain calls).Reads (.field s e name) := by
  intro b bit g ts hg hy
  have hname := faces_of_lexeme (hn.identifier true) gap_blank ts
  have hdot : Lexeme false ".".toList .dot ['.'] := Token.lexeme_punctuator (by decide) nofun
  obtain ⟨hf, hr⟩ := he b bit g ("." :: name :: ts) hg ((faces_of_lexeme hdot gap_blank _).mono fun _ _ => trivial)
  rw [Expr.tokens, List.append_assoc]
  refine ⟨hf, fun n => ?_⟩
  obtain ⟨e', n₁, hd, hb⟩ := hr n
  obtain ⟨n₂, ht⟩ := takes_of_lexeme hdot gap_blank hname rfl n₁
  obtain ⟨n', hw⟩ := takes_of_lexeme (hn.identifier true) gap_blank hy rfl n₂
  refine ⟨_, n', .field hd ht (by rw [hw.kind]; rfl) hw.toSteps, ?_⟩
  rw [(hname n₂).2.2.1, String.ofList_toList]
  simp only [Expr.bare, Expr.move, Span.move_erase _ s]
  exact congrArg (Expr.field _ · name) hb

theorem reads_index (he : (Layer.chain calls).Reads e) (hx : Layer.expression.Reads x) :
    (Layer.chain calls).Reads (.index s e x) := by
  intro b bit g ts hg hy
  obtain ⟨hfx, hrx⟩ := hx b true [' '] ("]" :: ts) gap_blank (faces_rBracket_expression ts)
  obtain ⟨hf, hr⟩ := he b bit g ("[" :: (x.tokens ++ "]" :: ts)) hg
    ((faces_mark (c := '[') (k := .lBracket) (by decide) _ false).mono fun _ _ => trivial)
  rw [Expr.tokens, List.append_assoc, List.cons_append, List.append_assoc]
  refine ⟨hf, fun n => ?_⟩
  obtain ⟨e', n₁, hd, hb⟩ := hr n
  obtain ⟨n₂, ho⟩ := takes_mark (c := '[') (k := .lBracket) (by decide) gap_blank false hfx rfl n₁
  obtain ⟨x', n₃, hdx, hbx⟩ := hrx n₂
  obtain ⟨n', hc⟩ := takes_mark (c := ']') (k := .rBracket) (by decide) gap_blank false hy rfl n₃
  refine ⟨_, n', .index hd ho hdx hc, ?_⟩
  simp only [Expr.bare, Expr.move, Span.move_erase _ s]
  exact congrArg₂ (Expr.index _) hb hbx

theorem reads_call (he : (Layer.chain true).Reads e) (ha : ∀ x ∈ args, Layer.assignment.Reads x) :
    (Layer.chain true).Reads (.call s e args) := by
  intro b bit g ts hg hy
  obtain ⟨hfa, hra⟩ := reads_arguments ha hy b
  obtain ⟨hf, hr⟩ := he b bit g ("(" :: (itemTokens args ++ ")" :: ts)) hg
    ((faces_mark (c := '(') (k := .lParen) (by decide) _ false).mono fun _ _ => trivial)
  rw [Expr.tokens, List.append_assoc, List.cons_append, List.append_assoc]
  refine ⟨hf, fun n => ?_⟩
  obtain ⟨e', n₁, hd, hb⟩ := hr n
  obtain ⟨n₂, ho⟩ := takes_mark (c := '(') (k := .lParen) (by decide) gap_blank false hfa rfl n₁
  obtain ⟨args', n', hargs, hbs⟩ := hra n₂
  refine ⟨_, n', .call hd ho hargs, ?_⟩
  simp only [Expr.bare, Expr.move, moveItems_eq_map, Span.move_erase _ s]
  exact congrArg₂ (Expr.call _) hb hbs

theorem reads_new (he : (Layer.chain false).Reads e) (ha : ∀ x ∈ args, Layer.assignment.Reads x) :
    (Layer.chain calls).Reads (.new s e args) := by
  intro b bit g ts hg hy
  obtain ⟨hfa, hra⟩ := reads_arguments ha hy b
  have hparen := faces_mark (c := '(') (k := .lParen) (by decide) (itemTokens args ++ ")" :: ts) false
  have hnew : Lexeme bit "new".toList (.keyword .new) "new".toList := Token.lexeme_keyword (by decide) bit
  obtain ⟨hf, hr⟩ := he b true [' '] ("(" :: (itemTokens args ++ ")" :: ts)) gap_blank (hparen.mono fun _ _ => trivial)
  rw [Expr.tokens, List.cons_append, List.append_assoc, List.cons_append, List.append_assoc]
  refine ⟨(faces_of_lexeme hnew hg _).mono fun t ht => by rw [ht.1]; rfl, fun n => ?_⟩
  obtain ⟨n₁, hw⟩ := takes_of_lexeme hnew hg hf rfl n
  obtain ⟨e', n₂, hd, hb⟩ := hr n₁
  obtain ⟨n₃, ho⟩ := takes_mark (c := '(') (k := .lParen) (by decide) gap_blank false hfa rfl n₂
  obtain ⟨args', n', hargs, hbs⟩ := hra n₃
  -- the list in parentheses belongs to the nearest `new`, since what is behind that is a chain without calls
  have hmember := Derives.member hd (congrArg (extendsChain false) ho.kind)
  refine ⟨_, n', .constructChain hw.kind (.construct hw hmember (.newArguments ho hargs)), ?_⟩
  simp only [Expr.bare, Expr.move, moveItems_eq_map, Span.move_erase _ s]
  exact congrArg₂ (Expr.new _) hb hbs

end

/-! ## Operators -/

section

variable {s : Span} {e x y z : Expr}

theorem endsUnary_of_kind {t : Token} (h₁ : extendsChain true t.kind = false) (h₂ : updateOp? t.kind = none) :
    endsUnary t := by
  refine ⟨h₁, ?_⟩
  unfold updateHere?
  rw [h₂, ite_self]

theorem reads_updateBehind {op : UpdateOp} (he : (Layer.chain true).Reads e) : Layer.update.Reads (.update s op false e) := by
  intro b bit g ts hg hy
  obtain ⟨k, hl, hu, -, hend, -⟩ := lexeme_update op false
  have hop := faces_of_lexeme hl gap_blank ts
  obtain ⟨hf, hr⟩ := he b bit g (op.text :: ts) hg (hop.mono fun _ _ => trivial)
  rw [Expr.tokens, if_neg (by decide), List.append_assoc]
  refine ⟨hf, fun n => ?_⟩
  obtain ⟨e', n₁, hd, hb⟩ := hr n
  obtain ⟨n', ht⟩ := takes_of_lexeme hl gap_blank hy hend n₁
  obtain ⟨hk, -, hnl⟩ := (hop n₁).2
  have hchain : extendsChain true k = false := by
    revert hu
    cases k <;> intro h <;> first | rfl | cases h
  have hhere : updateHere? (spot [' '] n₁ false (op.text :: ts)).hand = some op := by
    rw [updateHere?, hnl, if_neg Bool.false_ne_true, hk, hu]
  refine ⟨_, n', .update (.member hd (by rw [hk, hchain])) ht.toSteps hhere, ?_⟩
  simp only [Expr.bare, Expr.move, Span.move_erase _ s]
  exact congrArg _ hb

theorem reads_prefix {op : UnaryOp} (he : Layer.unary.Reads e) : Layer.unary.Reads (.unary s op e) := by
  intro b bit g ts hg hy
  obtain ⟨k, hl, hu, hend, hc⟩ := lexeme_unary op bit
  obtain ⟨hf, hr⟩ := he b true [' '] ts gap_blank hy
  rw [Expr.tokens, List.cons_append]
  refine ⟨(faces_of_lexeme hl hg _).mono fun t ht => by rw [ht.1]; simp [Layer.opens, hc], fun n => ?_⟩
  obtain ⟨n₁, ht⟩ := takes_of_lexeme hl hg hf hend n
  obtain ⟨e', n', hd, hb⟩ := hr n₁
  refine ⟨_, n', .unary ht.toSteps (ht.kind ▸ hu) hd, ?_⟩
  simp only [Expr.bare, Expr.move, Span.move_erase _ s]
  exact congrArg _ hb

theorem reads_updateFirst {op : UpdateOp} (he : Layer.unary.Reads e) : Layer.unary.Reads (.update s op true e) := by
  intro b bit g ts hg hy
  obtain ⟨k, hl, hu, hn, hend, hc⟩ := lexeme_update op bit
  obtain ⟨hf, hr⟩ := he b false [' '] ts gap_blank hy
  rw [Expr.tokens, if_pos rfl, List.cons_append]
  refine ⟨(faces_of_lexeme hl hg _).mono fun t ht => by rw [ht.1]; simp [Layer.opens, hc], fun n => ?_⟩
  obtain ⟨n₁, ht⟩ := takes_of_lexeme hl hg hf hend n
  obtain ⟨e', n', hd, hb⟩ := hr n₁
  refine ⟨_, n', .updateFirst ht.toSteps (ht.kind ▸ hn) (ht.kind ▸ hu) hd, ?_⟩
  simp only [Expr.bare, Expr.move, Span.move_erase _ s]
  exact congrArg _ hb

/-- Behind the right side of an operator, what may follow the whole does not bind more tightly. -/
theorem rightPrecedence_gt {op next : BinaryOp} (h : next.leftPrecedence ≤ op.precedence) :
    next.precedence < op.rightPrecedence := by
  unfold BinaryOp.leftPrecedence at h
  unfold BinaryOp.rightPrecedence
  split at h
  · have hmost : op.precedence ≤ BinaryOp.pow.precedence := by cases op <;> decide
    subst next
    omega
  · rename_i hn
    split
    · -- only the power itself has its precedence
      have hpow : ∀ o : BinaryOp, o ≠ .pow → o.precedence < BinaryOp.pow.precedence := by intro o; cases o <;> decide
      subst op
      exact hpow next hn
    · omega

theorem precedence_le_rightPrecedence (op : BinaryOp) : op.precedence ≤ op.rightPrecedence := by
  unfold BinaryOp.rightPrecedence
  split <;> omega

theorem precedence_le_leftPrecedence (op : BinaryOp) : op.precedence ≤ op.leftPrecedence := by
  unfold BinaryOp.leftPrecedence
  split <;> omega

theorem reads_operator {op : BinaryOp} {least : Nat} (hl : least ≤ op.precedence)
    (hx : (Layer.binary op.leftPrecedence).Reads x) (hy : (Layer.binary op.rightPrecedence).Reads y) :
    (Layer.binary least).Reads (.binary s op x y) := by
  intro b bit g ts hg hend
  obtain ⟨k, hop, hb, hbit, hchain, hupdate⟩ := lexeme_binary op
  obtain ⟨hfy, hry⟩ := hy b true [' '] ts gap_blank (hend.mono fun t ht =>
    ⟨ht.1, fun next hn => Nat.le_trans (ht.2 next hn) (Nat.le_trans hl (precedence_le_rightPrecedence op))⟩)
  have hface := faces_of_lexeme hop gap_blank (y.tokens ++ ts)
  obtain ⟨hfx, hrx⟩ := hx b bit g (op.text :: (y.tokens ++ ts)) hg (hface.mono fun t ht => by
    refine ⟨endsUnary_of_kind (ht.1 ▸ hchain) (ht.1 ▸ hupdate), fun o ho => ?_⟩
    rw [ht.1, hb] at ho
    cases ho
    exact Nat.le_refl _)
  rw [Expr.tokens, List.append_assoc, List.cons_append]
  refine ⟨hfx, fun n => ?_⟩
  obtain ⟨x', n₁, hdx, hbx⟩ := hrx n
  obtain ⟨n₂, ht⟩ := takes_of_lexeme hop gap_blank hfy hbit n₁
  obtain ⟨y', n', hdy, hby⟩ := hry n₂
  refine ⟨.binary (x'.span.through y'.span) op x' y', n', fun m hm => ?_, ?_⟩
  · have hright : operatorHere? op.rightPrecedence (spot [' '] n' false ts).hand.kind = none := by
      unfold operatorHere?
      rw [Option.filter_eq_none_iff]
      intro next hnext
      have := rightPrecedence_gt (Nat.le_trans ((hend n').2.2 next hnext) hl)
      simpa using this
    have hhere : operatorHere? m (spot [' '] n₁ false (op.text :: (y.tokens ++ ts))).hand.kind = some op := by
      rw [operatorHere?, ht.kind, hb, Option.filter_some, if_pos (by simpa using Nat.le_trans hm hl)]
    exact .operator (hdx m (Nat.le_trans (Nat.le_trans hm hl) (precedence_le_leftPrecedence op))) ht.toSteps hhere
      (.binary (hdy _ (Nat.le_refl _)) hright)
  · simp only [Expr.bare, Expr.move, Span.move_erase _ s]
    exact congrArg₂ (Expr.binary _ op) hbx hby

theorem reads_choice (hx : (Layer.binary 0).Reads x) (hy : Layer.assignment.Reads y) (hz : Layer.assignment.Reads z) :
    Layer.conditional.Reads (.conditional s x y z) := by
  intro b bit g ts hg hend
  have hmark : Lexeme false "?".toList .question ['?'] := Token.lexeme_punctuator (by decide) nofun
  obtain ⟨hfz, hrz⟩ := hz b true [' '] ts gap_blank hend
  obtain ⟨hfy, hry⟩ := hy b true [' '] (":" :: (z.tokens ++ ts)) gap_blank
    (faces_closer (c := ':') (k := .colon) (by decide) rfl _)
  have hface := faces_of_lexeme hmark gap_blank (y.tokens ++ ":" :: (z.tokens ++ ts))
  obtain ⟨hfx, hrx⟩ := hx b bit g ("?" :: (y.tokens ++ ":" :: (z.tokens ++ ts))) hg (hface.mono fun t ht =>
    ⟨endsUnary_of_kind (by rw [ht.1]; rfl) (by rw [ht.1]; rfl), fun o ho => by rw [ht.1] at ho; cases ho⟩)
  rw [Expr.tokens, List.append_assoc, List.cons_append, List.append_assoc, List.cons_append]
  refine ⟨hfx, fun n => ?_⟩
  obtain ⟨x', n₁, hdx, hbx⟩ := hrx n
  obtain ⟨n₂, hq⟩ := takes_of_lexeme hmark gap_blank hfy rfl n₁
  obtain ⟨y', n₃, hdy, hby⟩ := hry n₂
  obtain ⟨n₄, hc⟩ := takes_mark (c := ':') (k := .colon) (by decide) gap_blank false hfz rfl n₃
  obtain ⟨z', n', hdz, hbz⟩ := hrz n₄
  refine ⟨_, n', .choice (.binary (hdx 0 (Nat.le_refl 0)) (by rw [hq.kind]; rfl)) hq hdy hc hdz, ?_⟩
  simp only [Expr.bare, Expr.move, Span.move_erase _ s] at hbx hby hbz ⊢
  rw [hbx, hby, hbz]

/-- A chain that nothing goes on with is an operand. -/
theorem unary_of_chain {l l' : Lexer} (h : Derives b (.chain true) l e l') (ho : (Layer.chain true).opens l.hand.kind = true)
    (he : endsUnary l'.hand) : Derives b .unary l e l' := by
  simp only [Layer.opens, Bool.and_eq_true, Option.isNone_iff_eq_none] at ho
  exact .noPrefix ho.1.1 ho.1.2 (.noUpdate (.member h he.1) he.2)

theorem isTarget_bare (e : Expr) : e.bare.isTarget = e.isTarget := by cases e <;> rfl

theorem reads_assign {op : Option BinaryOp} (hx : (Layer.chain true).Reads x) (ht : x.isTarget = true)
    (ho : ∀ o, op = some o → compoundOp? (assignText op) = some o) (hy : Layer.assignment.Reads y) :
    Layer.assignment.Reads (.assign s op x y) := by
  intro b bit g ts hg hend
  obtain ⟨k, hl, hop, hbit, hchain, hupdate, hbinary, hquestion⟩ := lexeme_assign ho
  obtain ⟨hfy, hry⟩ := hy b true [' '] ts gap_blank hend
  have hface := faces_of_lexeme hl gap_blank (y.tokens ++ ts)
  obtain ⟨hfx, hrx⟩ := hx b bit g (assignText op :: (y.tokens ++ ts)) hg (hface.mono fun _ _ => trivial)
  rw [Expr.tokens, List.append_assoc, List.cons_append]
  refine ⟨hfx.mono fun t h => ?_, fun n => ?_⟩
  · simp only [Layer.opens, Bool.and_eq_true] at h ⊢
    exact h.2
  obtain ⟨x', n₁, hdx, hbx⟩ := hrx n
  obtain ⟨n₂, htake⟩ := takes_of_lexeme hl gap_blank hfy hbit n₁
  obtain ⟨y', n', hdy, hby⟩ := hry n₂
  obtain ⟨hk, htext, -⟩ := (hface n₁).2
  have hunary := unary_of_chain hdx (hfx n).2 (endsUnary_of_kind (hk ▸ hchain) (hk ▸ hupdate))
  have hhere : operatorHere? 0 (spot [' '] n₁ false (assignText op :: (y.tokens ++ ts))).hand.kind = none := by
    rw [operatorHere?, hk, hbinary]
    rfl
  refine ⟨_, n', .assign (.noChoice (.binary (.operators hunary) hhere) (hk ▸ hquestion)) htake.toSteps
    (hop _ hk (by rw [htext, String.ofList_toList])) ?_ hdy, ?_⟩
  · rw [← isTarget_bare, hbx, isTarget_bare, ht]
  · simp only [Expr.bare, Expr.move, Span.move_erase _ s]
    exact congrArg₂ (Expr.assign _ op) hbx hby

theorem reads_sequence {rest : List Expr} (hi : ∀ e ∈ x :: y :: rest, Layer.assignment.Reads e) :
    Layer.expression.Reads (.sequence s (x :: y :: rest)) := by
  intro b bit g ts hg hend
  obtain ⟨hx, hrest⟩ := List.forall_mem_cons.1 hi
  obtain ⟨hfi, hri⟩ := reads_items hrest hend b
  obtain ⟨hfx, hrx⟩ := hx b bit g _ hg (hfi.mono fun _ ht => ht.1)
  rw [Expr.tokens, itemTokens_cons, List.append_assoc]
  refine ⟨hfx, fun n => ?_⟩
  obtain ⟨x', n₁, hdx, hbx⟩ := hrx n
  obtain ⟨items', n', hd, hbs⟩ := hri n₁
  refine ⟨_, n', .sequence hdx ((hfi n₁).2.2.2 nofun) hd, ?_⟩
  simp only [Expr.bare, Expr.move, moveItems_eq_map, Span.move_erase _ s, List.map_cons]
  exact congrArg _ (congrArg₂ _ hbx hbs)

end

end Grammar

/-! ## Trees -/

open Grammar in
/-- **Every tree of a layer is read from its tokens.** -/
theorem Layered.reads {layer : Layer} {e : Expr}
    (h : Layered (fun pattern flags => IsRegexp pattern flags ∧ '/' ∉ flags.toList) layer e) : layer.Reads e := by
  induction h with
  | number size => exact reads_number size
  | text value => exact reads_text value
  | bool value =>
    cases value with
    | true => exact reads_word .true (by decide) rfl rfl
    | false => exact reads_word .false (by decide) rfl rfl
  | null => exact reads_word .null (by decide) rfl rfl
  | identifier hn => exact reads_identifier hn
  | this => exact reads_this
  | regex hr => exact reads_regex hr.1 hr.2
  | array _ ih => exact reads_array ih
  | object hp _ ih => exact reads_object hp ih
  | group _ ih => exact reads_group ih
  | operand _ ih => exact reads_chain ih
  | new _ _ ihe iha => exact reads_new ihe iha
  | field _ hn ih => exact reads_field ih hn
  | index _ _ ihe ihx => exact reads_index ihe ihx
  | call _ _ ihe iha => exact reads_call ihe iha
  | noUpdate _ ih => exact reads_update ih
  | update _ ih => exact reads_updateBehind ih
  | noPrefix _ ih => exact reads_unary ih
  | unary _ ih => exact reads_prefix ih
  | updateFirst _ ih => exact reads_updateFirst ih
  | noOperator _ ih => exact reads_binary ih
  | binary hl _ _ ihx ihy => exact reads_operator hl ihx ihy
  | noChoice _ ih => exact reads_conditional ih
  | choice _ _ _ ihx ihy ihz => exact reads_choice ihx ihy ihz
  | noAssign _ ih => exact reads_assignment ih
  | assign _ ht ho _ ihx ihy => exact reads_assign ihx ht ho ihy
  | single _ ih => exact reads_expression ih
  | sequence _ ih => exact reads_sequence ih

theorem toList_written (e : Expr) : e.written.toList = Grammar.spaced [] e.tokens := by
  have hgo : ∀ (t : String) (ts : List String),
      [' '].intercalate ((t :: ts).map String.toList) = t.toList ++ Grammar.blanked ts := by
    intro t ts
    induction ts generalizing t with
    | nil => simp [Grammar.blanked, List.intercalate]
    | cons u us ih =>
      have := ih u
      simp only [List.map_cons, List.intercalate_cons_cons] at this ⊢
      rw [this]
      simp [Grammar.blanked]
  rw [Expr.written, String.toList_intercalate]
  cases e.tokens with
  | nil => rfl
  | cons t ts => exact hgo t ts

open Grammar in
/-- What is read as an expression wherever it stands is one as a whole when it stands alone. -/
theorem parse_of_reads {e : Expr} (h : Layer.expression.Reads e) :
    ∃ e', parseExpressionAt e.written 0 = .ok e' ∧ e'.bare = e.bare ∧
      e'.span = ⟨0, Text.byteLength e.written.toList⟩ := by
  have hend : ∀ n, (spot [' '] n false []).Ready ∧ (spot [' '] n false []).hand.kind = .eof :=
    fun n => ready_of_rest_eq_nil rfl
  have hface : Faces [' '] false [] Layer.expression.Ends := fun n => by
    have hn := @Lexer.next_of_nil (spot [' '] n false []) rfl
    refine ⟨⟨(hend n).1, ?_⟩, endsExpression_of_kind (hend n).2 rfl nofun⟩
    rw [Lexer.hand_of_outcome (congrArg Lexer.Step.outcome hn)]
    exact Nat.le_add_right _ _
  obtain ⟨hf, hr⟩ := h false true [] [] .none hface
  obtain ⟨e', n', hd, hb⟩ := hr 0
  have hplace : spot [] 0 true (e.tokens ++ []) = .ofSource e.written.toList := by
    rw [List.append_nil, toList_written]
    rfl
  have hnear := (hf 0).1
  rw [hplace] at hd hnear
  refine ⟨e', parseExpressionAt_zero.2 ⟨hnear.1, _, (hend n').1, hd⟩, hb, ?_⟩
  obtain ⟨s, hs, hpos⟩ := hd.goes.before
  have hstart : (Lexer.ofSource e.written.toList).hand.span.start = 0 := Nat.le_zero.1 hnear.2
  have hlen : n' = Text.byteLength e.written.toList := by
    have hs : e.written.toList = s ++ [] := hs
    rw [hs, List.append_nil]
    exact hpos.trans (Nat.zero_add _)
  rw [hd.spanned, Lexer.upTo, hstart, hlen]
  rfl

/-- **A tree that is written is read back.**  For every tree without functions whose parts bind as tightly as the grammar
asks, whose names are identifiers, whose numbers are finite and have no sign, and whose regular expressions are read as one
and have no slash in their flags: its tokens, with a blank between each two, are an expression as a whole, and the tree of
that is the same but for the spans. -/
theorem parse_written {e : Expr}
    (h : Layered (fun pattern flags => IsRegexp pattern flags ∧ '/' ∉ flags.toList) .expression e) :
    ∃ e', parseExpressionAt e.written 0 = .ok e' ∧ e'.bare = e.bare ∧
      e'.span = ⟨0, Text.byteLength e.written.toList⟩ :=
  parse_of_reads h.reads

/-- `x = new a ( /b/g ) . c ** ++ y`, as a tree. -/
def powerTree : Expr :=
  .assign default none (.identifier default "x")
    (.binary default .pow
      (.field default (.new default (.identifier default "a") [.regex default "b" "g"]) "c")
      (.update default .increment true (.identifier default "y")))

/-- A tree in which members, `new`, a power, an update and an assignment stand in each other is read back. -/
theorem parse_written_power :
    Layered (fun pattern flags => IsRegexp pattern flags ∧ '/' ∉ flags.toList) .expression powerTree ∧
      powerTree.written = "x = new a ( /b/g ) . c ** ++ y" ∧
      ∃ e', parseExpressionAt powerTree.written 0 = .ok e' ∧ e'.bare = powerTree.bare ∧
        e'.span = ⟨0, Text.byteLength powerTree.written.toList⟩ := by
  have regexp : IsRegexp "b" "g" ∧ '/' ∉ "g".toList := by
    refine ⟨isRegexp_of_regex (t := ['b', '/', 'g']) rfl ?_ rfl nofun, by decide⟩
    rfl
  have layered : Layered (fun pattern flags => IsRegexp pattern flags ∧ '/' ∉ flags.toList) .expression powerTree := by
    have operand : ∀ {e : Expr}, Layered (fun pattern flags => IsRegexp pattern flags ∧ '/' ∉ flags.toList) .primary e →
        Layered (fun pattern flags => IsRegexp pattern flags ∧ '/' ∉ flags.toList) .unary e :=
      fun h => .noPrefix (.noUpdate (.operand h))
    have argument : Layered (fun pattern flags => IsRegexp pattern flags ∧ '/' ∉ flags.toList) .assignment
        (.regex default "b" "g") := .noAssign (.noChoice (.noOperator (operand (.regex regexp))))
    refine .single (.assign (.operand (.identifier (Token.isToken_of_letter 'x' (by decide +kernel)))) rfl nofun
      (.noAssign (.noChoice (.binary (Nat.zero_le _) (.noOperator (.noPrefix (.noUpdate (.field ?_ ?_)))) ?_))))
    · exact .new (.operand (.identifier (Token.isToken_of_letter 'a' (by decide +kernel)))) (by simpa using argument)
    · exact Token.isToken_of_letter 'c' (by decide +kernel)
    · exact .noOperator (.updateFirst (operand (.identifier (Token.isToken_of_letter 'y' (by decide +kernel)))))
  exact ⟨layered, by decide, parse_written layered⟩

/-- A slash between brackets does not close a regular expression, so the text of one with flags in which the bracket closes is
read as another one: the text of a tree says where its flags begin only if they have no slash. -/
theorem layered_not_read_back : ∃ e : Expr, Layered IsRegexp .expression e ∧
    ¬ ∃ e', parseExpressionAt e.written 0 = .ok e' ∧ e'.bare = e.bare ∧
      e'.span = ⟨0, Text.byteLength e.written.toList⟩ := by
  have joined : ∀ pattern flags, ("/" ++ pattern ++ "/" ++ flags).toList = "/[/]/g".toList → IsRegexp pattern flags :=
    fun pattern flags h => isRegexp_of_regex (t := ['[', '/', ']', '/', 'g']) h rfl rfl nofun
  refine ⟨.regex default "[" "]/g", .single (.noAssign (.noChoice (.noOperator (.noPrefix (.noUpdate (.operand
    (.regex (joined "[" "]/g" (by decide))))))))), ?_⟩
  rintro ⟨e', he, hb, -⟩
  obtain ⟨e'', he', hb', -⟩ := parse_of_reads (e := .regex default "[/]" "g") (Grammar.reads_expression
    (Grammar.reads_assignment (Grammar.reads_conditional (Grammar.reads_binary (Grammar.reads_unary (Grammar.reads_update
      (Grammar.reads_chain (Grammar.reads_regex (joined "[/]" "g" (by decide)) (by decide)))))))))
  have hw : (Expr.regex default "[/]" "g").written = (Expr.regex default "[" "]/g").written := by decide
  rw [hw, he] at he'
  rw [← Except.ok.inj he', hb] at hb'
  obtain ⟨-, hpattern, -⟩ := (Expr.regex.injEq _ _ _ _ _ _).mp hb'
  exact absurd hpattern (by decide)

end Readback
