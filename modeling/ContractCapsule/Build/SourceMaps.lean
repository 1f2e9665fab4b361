import Mathlib.Data.List.Infix
import ContractCapsule.Build.Atomize
import ContractCapsule.Library.Loops

/-!
# Source Maps

An extracted span refers to a line by its number, in the numbering of `line_span`. This module asks
whether that is the line on which the definition or the key really stands.

`pythonSpans_exact_iff` says when the spans of Python definitions are exact: `ast` counts fewer line
ends than `str.splitlines`, and no character on which they differ may stand in front of a
definition. `configSpans_exact_iff` says the same of the keys of a configuration, which are looked
for in the text: the key has to be announced on its own line (bare or as `json.dumps` writes it, with
a colon behind it), and no line in front of that one may announce it.
-/

namespace ContractCapsule.Build

open Library Models

variable {ν : Type} {parsers : Parsers ν}

/-! ## Section 1: Lines -/

/-- A span refers to the line that holds a place of the text, and quotes that line. -/
def RefersTo (text : Text) (span : ExtractedSpan) (place : ℕ) : Prop :=
  span.endLine = span.startLine ∧ HoldsPlace (splitlines.lines text) span.startLine place ∧
    (lineTexts text)[span.startLine - 1]?.map strip = some span.statement

/-- Lines end at the ends of the tokenizer under `str.splitlines`, too. -/
theorem tokenizer_coarser : Coarser tokenizerLines splitlines := by
  intro c hc
  simp only [tokenizerLines, tokenizerEnd, Bool.or_eq_true, beq_iff_eq] at hc
  simp only [splitlines, splitlinesEnd, Bool.or_eq_true, Bool.and_eq_true, decide_eq_true_eq,
    beq_iff_eq]
  omega

/-! ## Section 2: Python -/

/-- No line ends where a definition begins. -/
theorem definition_place {text : Text} {definitions : List Definition}
    (h : parsers.python.parse text = .ok definitions) {definition : Definition}
    (hd : definition ∈ definitions) :
    ∃ c, text[definition.place]? = some c ∧ splitlinesEnd c = false := by
  obtain ⟨word, hword, rest, hrest⟩ := parsers.python.begins h hd
  have hfirst : ∃ c tail, word = c :: tail ∧ splitlinesEnd c = false := by
    simp only [definitionWords, List.mem_cons, List.not_mem_nil, or_false] at hword
    rcases hword with rfl | rfl | rfl <;> exact ⟨_, _, rfl, by decide⟩
  obtain ⟨c, tail, rfl, hc⟩ := hfirst
  refine ⟨c, ?_, hc⟩
  rw [← List.head?_drop, ← hrest]
  rfl

/-- The line number of a definition is that of a line. -/
theorem lineno_le_length {text : Text} {definition : Definition} {c : CodePoint}
    (hplace : text[definition.place]? = some c) (hc : splitlinesEnd c = false) :
    definition.lineno text ≤ (splitlines.lines text).length := by
  have hholds := @holdsPlace_lineNumber splitlines text definition.place c hplace hc
  have hle := hholds.le_length
  rw [LineEnds.lineNumber, endsIn_eq_add tokenizer_coarser] at hle
  rw [Definition.lineno, LineEnds.lineNumber]
  omega

/-- The span of a definition is always extracted, under the number that `ast` gives. -/
theorem definitionSpan_eq_ok {text : Text} {definition : Definition} {c : CodePoint}
    (hplace : text[definition.place]? = some c) (hc : splitlinesEnd c = false) :
    ∃ line, (lineTexts text)[definition.lineno text - 1]? = some line ∧
      definitionSpan text definition = .ok ⟨strip line, .interface, definition.lineno text,
        definition.lineno text, definition.name⟩ := by
  have hle := lineno_le_length hplace hc
  have hpos : 1 ≤ definition.lineno text := by
    rw [Definition.lineno, LineEnds.lineNumber]
    omega
  have hlt : definition.lineno text - 1 < (lineTexts text).length := by
    rw [length_lineTexts]
    omega
  refine ⟨_, List.getElem?_eq_getElem hlt, ?_⟩
  simp only [definitionSpan, List.getElem?_eq_getElem hlt]
  rfl

/-- The span of a definition refers to its line exactly when `ast` and `str.splitlines` count the
same line ends in front of it. -/
theorem definitionSpan_refersTo_iff {text : Text} {definition : Definition} {c : CodePoint}
    (hplace : text[definition.place]? = some c) (hc : splitlinesEnd c = false)
    {span : ExtractedSpan} (hspan : definitionSpan text definition = .ok span) :
    RefersTo text span definition.place ↔
      ∀ d ∈ text.take definition.place, splitlinesEnd d = true → tokenizerEnd d = true := by
  obtain ⟨line, hline, hok⟩ := definitionSpan_eq_ok hplace hc
  rw [hok] at hspan
  obtain rfl := Except.ok.inj hspan
  -- the place is on the line that `str.splitlines` counts, and on no other
  have hholds := @holdsPlace_lineNumber splitlines text definition.place c hplace hc
  have hsame : HoldsPlace (splitlines.lines text) (definition.lineno text) definition.place ↔
      definition.lineno text = splitlines.lineNumber text definition.place := by
    constructor
    · intro h
      exact h.unique hholds
    · intro h
      rw [h]
      exact hholds
  -- the two counts differ by the line ends of `str.splitlines` that the tokenizer does not know
  have hextra : ∀ d, extraEnd tokenizerLines splitlines d = false ↔
      (splitlinesEnd d = true → tokenizerEnd d = true) := by
    intro d
    simp only [extraEnd, tokenizerLines, splitlines]
    cases splitlinesEnd d <;> cases tokenizerEnd d <;> simp
  simp only [RefersTo, hline, Option.map_some, and_true, true_and, hsame]
  rw [Definition.lineno, lineNumber_eq_iff tokenizer_coarser]
  simp only [hextra]

/-- The source map of a Python text is exact: the span of each definition refers to its line. -/
def PythonMapExact (parsers : Parsers ν) (text : Text) (definitions : List Definition) : Prop :=
  ∃ spans, definitions.mapM (definitionSpan text) = .ok spans ∧
    parsers.pythonSpans text = .ok (spans.insertionSort spanLe) ∧
    List.Forall₂ (fun definition span => RefersTo text span definition.place) definitions spans

/-- **When source maps of Python are exact.** Of every text that `ast.parse` accepts, each span
refers to the line of its definition exactly when in front of every definition `str.splitlines`
ends lines only where the tokenizer does. -/
theorem pythonSpans_exact_iff {text : Text} {definitions : List Definition}
    (h : parsers.python.parse text = .ok definitions) :
    PythonMapExact parsers text definitions ↔
      ∀ definition ∈ definitions, ∀ c ∈ text.take definition.place,
        splitlinesEnd c = true → tokenizerEnd c = true := by
  have hspans : ∃ spans, definitions.mapM (definitionSpan text) = .ok spans := by
    apply exists_mapM
    intro definition hd
    obtain ⟨c, hplace, hc⟩ := definition_place h hd
    obtain ⟨_, _, hok⟩ := definitionSpan_eq_ok hplace hc
    exact ⟨_, hok⟩
  obtain ⟨spans, hmap⟩ := hspans
  have hextracted : parsers.pythonSpans text = .ok (spans.insertionSort spanLe) := by
    simp only [Parsers.pythonSpans, h, caught, Except.ok_bind, hmap]
    rfl
  -- spans and definitions are in step, so each span is judged by its own definition
  have hvalues := forall₂_mapM hmap
  constructor
  · intro hexists definition hd
    obtain ⟨spans', hmap', _, hexact⟩ := hexists
    obtain rfl : spans = spans' := Except.ok.inj (hmap.symm.trans hmap')
    obtain ⟨i, hi, rfl⟩ := List.getElem_of_mem hd
    obtain ⟨c, hplace, hc⟩ := definition_place h hd
    have hi' : i < spans.length := hvalues.length_eq ▸ hi
    exact (definitionSpan_refersTo_iff hplace hc (hvalues.get hi hi')).mp (hexact.get hi hi')
  · intro hsame
    refine ⟨spans, hmap, hextracted, ?_⟩
    apply List.forall₂_iff_get.mpr
    refine ⟨hvalues.length_eq, ?_⟩
    intro i hi hi'
    have hd : definitions.get ⟨i, hi⟩ ∈ definitions := List.get_mem _ _
    obtain ⟨c, hplace, hc⟩ := definition_place h hd
    exact (definitionSpan_refersTo_iff hplace hc (hvalues.get hi hi')).mpr (hsame _ hd)

/-- A line end is a number of the line that holds a place. -/
instance (lines : List Text) (number place : ℕ) : Decidable (HoldsPlace lines number place) :=
  inferInstanceAs (Decidable (1 ≤ number ∧ (lines.take (number - 1)).flatten.length ≤ place ∧
    place < (lines.take number).flatten.length))

/-- A parser that finds one function where the text has one, behind nine characters. -/
def samplePython : PythonParser where
  parse text :=
    if (textOf "def").isPrefixOf (text.drop 9) then .ok [⟨textOf "f", 9⟩] else .ok []
  begins := by
    intro text definitions definition h hd
    split_ifs at h with hdef
    · obtain rfl := Except.ok.inj h
      rw [List.mem_singleton.mp hd]
      exact ⟨textOf "def", by decide, List.isPrefixOf_iff_prefix.mp hdef⟩
    · obtain rfl := Except.ok.inj h
      cases hd

/-- Parsers of the samples. -/
def sampleParsers : Parsers ℕ where
  wordChar := fun c => (ofChar 'A' ≤ c && c ≤ ofChar 'Z') || (ofChar 'a' ≤ c && c ≤ ofChar 'z')
  python := samplePython
  yaml := { load := fun _ => .error .invalid, placed := by intro _ _ _ _ h; cases h }
  jsonLimit := 8
  jsonNumber := fun lexeme => .ok lexeme.length

/-- A function behind a comment line that holds a form feed. -/
def formFeedText : Text :=
  textOf "x = 1 #" ++ [codePoint 0x0C] ++ textOf "\ndef f(): pass\n"

/-- `ast` counts one line end in front of the function and `str.splitlines` two, so the span refers
to the empty rest of the comment line. -/
theorem pythonSpans_formFeed :
    sampleParsers.python.parse formFeedText = .ok [⟨textOf "f", 9⟩] ∧
      sampleParsers.pythonSpans formFeedText = .ok [⟨[], .interface, 2, 2, textOf "f"⟩] ∧
      ¬ PythonMapExact sampleParsers formFeedText [⟨textOf "f", 9⟩] := by
  have hspan : [Definition.mk (textOf "f") 9].mapM (definitionSpan formFeedText) =
      .ok [⟨[], .interface, 2, 2, textOf "f"⟩] := by decide +kernel
  refine ⟨by decide +kernel, by decide +kernel, ?_⟩
  intro hexact
  obtain ⟨spans, hmap, _, hrefers⟩ := hexact
  obtain rfl := Except.ok.inj (hspan.symm.trans hmap)
  obtain ⟨hrefers, _⟩ := List.forall₂_cons.mp hrefers
  have hholds := hrefers.2.1
  revert hholds
  decide +kernel

theorem pythonSpans_exact_iff_plain :
    PythonMapExact sampleParsers (textOf "x = 1  #\ndef f(): pass\n") [⟨textOf "f", 9⟩] := by
  apply (@pythonSpans_exact_iff ℕ sampleParsers (textOf "x = 1  #\ndef f(): pass\n")
    [⟨textOf "f", 9⟩] (by decide +kernel)).mpr
  intro definition hd c hc hends
  rw [List.mem_singleton.mp hd] at hc
  have hall : ((textOf "x = 1  #\ndef f(): pass\n").take 9).all
      (fun c => !splitlinesEnd c || tokenizerEnd c) = true := by decide +kernel
  have hone := List.all_eq_true.mp hall c hc
  rw [hends] at hone
  exact hone

/-! ## Section 3: JSON and YAML -/

variable {kind : ConfigKind}

/-- The places of a key lie in the text, and no line ends there. -/
def Placed (text : Text) (key : ConfigKey) : Prop :=
  ∀ place ∈ key.places, ∃ c, text[place]? = some c ∧ splitlinesEnd c = false

/-- The parsers place every key they return. -/
theorem placed_of_load {text : Text} {keys : List ConfigKey}
    (h : parsers.load kind text = .ok (.mapping keys)) {key : ConfigKey} (hkey : key ∈ keys) :
    Placed text key := by
  intro place hplace
  cases kind with
  | yaml => exact parsers.yaml.placed h hkey hplace
  | json =>
    simp only [Parsers.load, Parsers.loadJson] at h
    split at h
    · cases h
    · cases h
    · next members _ =>
      obtain rfl := ConfigRoot.mapping.inj (Except.ok.inj h)
      obtain ⟨member, _, rfl⟩ := List.mem_map.mp hkey
      simp only [Parsers.jsonPlaces] at hplace
      obtain ⟨⟨place', key'⟩, hmember, rfl⟩ := List.mem_map.mp hplace
      have hquote := PyDecoder.getElem?_of_mem_memberPlaces (List.mem_filter.mp hmember).1
      exact ⟨_, hquote, by decide⟩
    · cases h

/-- Every key of a JSON document has a place, and is read at each of its places. -/
theorem places_of_loadJson {text : Text} {keys : List ConfigKey}
    (h : parsers.loadJson text = .ok (.mapping keys)) {key : ConfigKey} (hkey : key ∈ keys) :
    key.places ≠ [] ∧
      ∀ place ∈ key.places, ∃ rest, readText (text.drop place) = .ok (key.text, rest) := by
  rw [Parsers.loadJson] at h
  split at h
  · cases h
  · cases h
  · next members hloads =>
    obtain rfl := ConfigRoot.mapping.inj (Except.ok.inj h)
    obtain ⟨member, hmember, rfl⟩ := List.mem_map.mp hkey
    obtain ⟨pairs, hpairs, hplaces⟩ := PyDecoder.exists_mem_memberPlaces hloads
    obtain rfl : PyJson.dictOf pairs = members := Except.ok.inj hpairs
    constructor
    · -- the key stands among the pairs, and so among the places
      have hin : member.1 ∈ (parsers.json.memberPlaces text).map Prod.snd := by
        rw [hplaces]
        exact PyJson.fst_mem_of_mem_dictOf hmember
      obtain ⟨placed, hplaced, hsame⟩ := List.mem_map.mp hin
      apply List.ne_nil_of_mem
      apply List.mem_map_of_mem
      exact List.mem_filter.mpr ⟨hplaced, by simpa using hsame⟩
    · intro place hplace
      obtain ⟨⟨place', key'⟩, hin, rfl⟩ := List.mem_map.mp hplace
      obtain ⟨hmem, hsame⟩ := List.mem_filter.mp hin
      obtain rfl : key' = member.1 := by simpa using hsame
      exact PyDecoder.readText_of_mem_memberPlaces hmem
  · cases h

theorem mem_take_of_getElem? {α : Type} {xs : List α} {i n : ℕ} {x : α} (hi : i < n)
    (h : xs[i]? = some x) : x ∈ xs.take n := by
  apply List.mem_of_getElem?
  rw [List.getElem?_take_of_lt hi, h]

/-- A line announces a key: the key, bare or as `json.dumps` writes it, stands on the line, and
behind it stand blanks and a colon. In YAML nothing but blanks may stand in front of it. -/
def Announces (kind : ConfigKind) (key line : Text) : Prop :=
  ∃ front word blanks back, line = front ++ (word ++ (blanks ++ ofChar ':' :: back)) ∧
    (word = key ∨ word = dumpsText key) ∧ (∀ c ∈ blanks, isBlank c = true) ∧
    (kind = .yaml → ∀ c ∈ front, isBlank c = true)

/-- What stands behind blanks at the head of a line. -/
theorem mem_behindBlanks {line rest : Text} :
    rest ∈ behindBlanks line ↔ ∃ front, line = front ++ rest ∧ ∀ c ∈ front, isBlank c = true := by
  induction line with
  | nil =>
    rw [behindBlanks, List.mem_singleton]
    constructor
    · rintro rfl
      exact ⟨[], rfl, by simp⟩
    · rintro ⟨front, hline, _⟩
      exact (List.append_eq_nil_iff.mp hline.symm).2
  | cons c line ih =>
    rw [behindBlanks, List.mem_cons]
    constructor
    · rintro (rfl | hrest)
      · exact ⟨[], rfl, by simp⟩
      -- a blank may be skipped, anything else may not
      · split at hrest
        · next hc =>
          obtain ⟨front, rfl, hfront⟩ := ih.mp hrest
          exact ⟨c :: front, rfl, List.forall_mem_cons.mpr ⟨hc, hfront⟩⟩
        · cases hrest
    · rintro ⟨front, hline, hfront⟩
      cases front with
      | nil => exact .inl hline.symm
      | cons d front =>
        rw [List.cons_append, List.cons.injEq] at hline
        obtain ⟨rfl, hline⟩ := hline
        rw [List.forall_mem_cons] at hfront
        rw [if_pos hfront.1]
        exact .inr (ih.mpr ⟨front, hline, hfront.2⟩)

/-- The pattern of a key at the start of a text. -/
theorem matchesKey_iff {key rest : Text} :
    matchesKey key rest = true ↔ ∃ word blanks back, rest = word ++ (blanks ++ ofChar ':' :: back) ∧
      (word = key ∨ word = dumpsText key) ∧ ∀ c ∈ blanks, isBlank c = true := by
  have hcolon : isBlank (ofChar ':') = false := by decide
  rw [matchesKey, List.any_eq_true]
  constructor
  · rintro ⟨word, hword, hmatch⟩
    rw [Bool.and_eq_true, beq_iff_eq] at hmatch
    obtain ⟨tail, rfl⟩ := List.isPrefixOf_iff_prefix.mp hmatch.1
    rw [List.drop_left] at hmatch
    obtain ⟨back, hback⟩ := List.head?_eq_some_iff.mp hmatch.2
    refine ⟨word, tail.takeWhile isBlank, back, ?_, ?_, ?_⟩
    · rw [← hback, List.takeWhile_append_dropWhile]
    · simpa [or_comm] using hword
    · exact fun c hc => List.mem_takeWhile_imp hc
  · rintro ⟨word, blanks, back, rfl, hword, hblanks⟩
    refine ⟨word, by simpa [or_comm] using hword, ?_⟩
    rw [Bool.and_eq_true, beq_iff_eq, List.drop_left,
      List.dropWhile_append_of_pos hblanks, List.dropWhile_cons_of_neg (by simp [hcolon])]
    exact ⟨List.isPrefixOf_iff_prefix.mpr (List.prefix_append _ _), rfl⟩

/-- The locator of a key finds the lines that announce it. -/
theorem locates_iff {key line : Text} : locates kind key line = true ↔ Announces kind key line := by
  cases kind with
  | json =>
    simp only [locates, List.any_eq_true, List.mem_tails, matchesKey_iff]
    constructor
    · rintro ⟨rest, ⟨front, rfl⟩, word, blanks, back, rfl, hword, hblanks⟩
      exact ⟨front, word, blanks, back, rfl, hword, hblanks, by simp⟩
    · rintro ⟨front, word, blanks, back, rfl, hword, hblanks, _⟩
      exact ⟨_, ⟨front, rfl⟩, word, blanks, back, rfl, hword, hblanks⟩
  | yaml =>
    simp only [locates, List.any_eq_true, mem_behindBlanks, matchesKey_iff]
    constructor
    · rintro ⟨rest, ⟨front, rfl, hfront⟩, word, blanks, back, rfl, hword, hblanks⟩
      exact ⟨front, word, blanks, back, rfl, hword, hblanks, fun _ => hfront⟩
    · rintro ⟨front, word, blanks, back, rfl, hword, hblanks, hfront⟩
      exact ⟨_, ⟨front, rfl, hfront rfl⟩, word, blanks, back, rfl, hword, hblanks⟩

/-- A line on which a key is defined announces the key, and no line in front of it does. -/
def FirstLocated (kind : ConfigKind) (text : Text) (key : ConfigKey) : Prop :=
  ∃ place ∈ key.places,
    (∃ line, (lineTexts text)[splitlines.lineNumber text place - 1]? = some line ∧
      Announces kind key.text line) ∧
    ∀ line ∈ (lineTexts text).take (splitlines.lineNumber text place - 1),
      ¬ Announces kind key.text line

/-- The span of a key refers to a line that defines it exactly when that line is the first one
that announces it. -/
theorem keySpan_refersTo_iff {text : Text} {key : ConfigKey} (hplaced : Placed text key)
    {span : ExtractedSpan} (h : keySpan kind (lineTexts text) key = .ok span) :
    (∃ place ∈ key.places, RefersTo text span place) ↔ FirstLocated kind text key := by
  simp only [FirstLocated, ← locates_iff, Bool.not_eq_true]
  obtain ⟨located, line, hline, hmatch, hbefore, rfl⟩ := keySpan_eq_ok h
  constructor
  · intro hrefers
    obtain ⟨place, hplace, _, hholds, _⟩ := hrefers
    obtain ⟨c, hget, hc⟩ := hplaced place hplace
    have hnumber : splitlines.lineNumber text place = located + 1 :=
      (@holdsPlace_lineNumber splitlines text place c hget hc).unique hholds
    refine ⟨place, hplace, ⟨line, ?_, hmatch⟩, ?_⟩
    · rw [hnumber]
      exact hline
    · rw [hnumber]
      exact hbefore
  · intro hfirst
    obtain ⟨place, hplace, ⟨line', hline', hmatch'⟩, hbefore'⟩ := hfirst
    obtain ⟨c, hget, hc⟩ := hplaced place hplace
    have hholds := @holdsPlace_lineNumber splitlines text place c hget hc
    -- neither of the two lines stands in front of the other
    have hsame : splitlines.lineNumber text place - 1 = located := by
      rcases Nat.lt_trichotomy (splitlines.lineNumber text place - 1) located with hlt | heq | hgt
      · have hfalse := hbefore line' (mem_take_of_getElem? hlt hline')
        rw [hmatch'] at hfalse
        cases hfalse
      · exact heq
      · have hfalse := hbefore' line (mem_take_of_getElem? hgt hline)
        rw [hmatch] at hfalse
        cases hfalse
    have hnumber : splitlines.lineNumber text place = located + 1 := by
      have := hholds.1
      omega
    refine ⟨place, hplace, rfl, hnumber ▸ hholds, ?_⟩
    simp only [Nat.add_sub_cancel, hline, Option.map_some]

/-- The source map of a configuration is exact: the span of each key refers to a line that defines
it, and keys that are defined on different lines have different spans. -/
def ConfigMapExact (text : Text) (keys : List ConfigKey) (spans : List ExtractedSpan) : Prop :=
  List.Forall₂ (fun key span => ∃ place ∈ key.places, RefersTo text span place) keys spans ∧
    (keys.zip spans).Pairwise fun a b =>
      (∀ p ∈ a.1.places, ∀ q ∈ b.1.places,
        splitlines.lineNumber text p ≠ splitlines.lineNumber text q) →
      a.2.startLine ≠ b.2.startLine

/-- **When source maps of configurations are exact.** Of every JSON or YAML document whose root is
a mapping and whose spans are extracted, the source map is exact exactly when for every key the
first line that announces the key is a line on which the key is defined. -/
theorem configSpans_exact_iff {text : Text} {keys : List ConfigKey} {spans : List ExtractedSpan}
    (hload : parsers.load kind text = .ok (.mapping keys))
    (h : parsers.configSpans kind text = .ok spans) :
    ConfigMapExact text keys spans ↔ ∀ key ∈ keys, FirstLocated kind text key := by
  have hmap : keys.mapM (keySpan kind (lineTexts text)) = .ok spans := by
    simpa only [Parsers.configSpans, hload, caught, Except.ok_bind] using h
  have hvalues := forall₂_mapM hmap
  constructor
  · intro hexact key hkey
    obtain ⟨i, hi, rfl⟩ := List.getElem_of_mem hkey
    have hi' : i < spans.length := hvalues.length_eq ▸ hi
    exact (keySpan_refersTo_iff (placed_of_load hload hkey) (hvalues.get hi hi')).mp
      (hexact.1.get hi hi')
  · intro hfirst
    have hrefers : List.Forall₂ (fun key span => ∃ place ∈ key.places, RefersTo text span place)
        keys spans := by
      apply List.forall₂_iff_get.mpr
      refine ⟨hvalues.length_eq, ?_⟩
      intro i hi hi'
      have hkey : keys.get ⟨i, hi⟩ ∈ keys := List.get_mem _ _
      exact (keySpan_refersTo_iff (placed_of_load hload hkey) (hvalues.get hi hi')).mpr
        (hfirst _ hkey)
    refine ⟨hrefers, List.pairwise_of_forall_mem_list ?_⟩
    -- spans of one number would refer to one line
    intro a ha b hb hapart hequal
    obtain ⟨_, hall⟩ := List.forall₂_iff_zip.mp hrefers
    obtain ⟨p, hp, _, hpholds, _⟩ := @hall a.1 a.2 ha
    obtain ⟨q, hq, _, hqholds, _⟩ := @hall b.1 b.2 hb
    obtain ⟨c, hpget, hc⟩ := placed_of_load hload (List.of_mem_zip ha).1 p hp
    obtain ⟨d, hqget, hd⟩ := placed_of_load hload (List.of_mem_zip hb).1 q hq
    have hpnumber := (@holdsPlace_lineNumber splitlines text p c hpget hc).unique hpholds
    have hqnumber := (@holdsPlace_lineNumber splitlines text q d hqget hd).unique hqholds
    apply hapart p hp q hq
    rw [hpnumber, hqnumber, hequal]

/-- A document whose second key also occurs inside the value of the first. -/
def nestedText : Text := textOf "\x7b\"a\": \x7b\"b\": 1\x7d,\n\"b\": 2\x7d"

/-- The keys of `nestedText`. -/
def nestedKeys : List ConfigKey := [⟨textOf "a", [1]⟩, ⟨textOf "b", [16]⟩]

/-- Both keys receive the first line, where the second one is a nested key. -/
theorem configSpans_nestedKey :
    sampleParsers.load .json nestedText = .ok (.mapping nestedKeys) ∧
      ∃ spans, sampleParsers.configSpans .json nestedText = .ok spans ∧
        spans.map ExtractedSpan.startLine = [1, 1] ∧ ¬ ConfigMapExact nestedText nestedKeys spans := by
  have hspans : sampleParsers.configSpans .json nestedText =
      .ok [⟨textOf "\x7b\"a\": \x7b\"b\": 1\x7d,", .fact, 1, 1, textOf "a"⟩,
        ⟨textOf "\x7b\"a\": \x7b\"b\": 1\x7d,", .fact, 1, 1, textOf "b"⟩] := by decide +kernel
  refine ⟨by decide +kernel, _, hspans, rfl, ?_⟩
  intro hexact
  obtain ⟨_, hrest⟩ := List.forall₂_cons.mp hexact.1
  obtain ⟨⟨place, hplace, _, hholds, _⟩, _⟩ := List.forall₂_cons.mp hrest
  rw [List.mem_singleton.mp hplace] at hholds
  revert hholds
  decide +kernel

theorem configSpans_exact_iff_flat :
    ConfigMapExact (textOf "\x7b\"a\": 1,\n\"b\": 2\x7d")
      [⟨textOf "a", [1]⟩, ⟨textOf "b", [9]⟩]
      [⟨textOf "\x7b\"a\": 1,", .fact, 1, 1, textOf "a"⟩,
        ⟨textOf "\"b\": 2\x7d", .fact, 2, 2, textOf "b"⟩] := by
  apply (@configSpans_exact_iff ℕ sampleParsers .json (textOf "\x7b\"a\": 1,\n\"b\": 2\x7d") _ _
    (by decide +kernel) (by decide +kernel)).mpr
  intro key hkey
  simp only [List.mem_cons, List.not_mem_nil, or_false] at hkey
  simp only [FirstLocated, ← locates_iff, Bool.not_eq_true]
  rcases hkey with rfl | rfl
  · refine ⟨1, by simp, ⟨_, rfl, by decide +kernel⟩, ?_⟩
    intro line hline
    cases hline
  · refine ⟨9, by simp, ⟨_, rfl, by decide +kernel⟩, ?_⟩
    have hfront : (lineTexts (textOf "\x7b\"a\": 1,\n\"b\": 2\x7d")).take
        (splitlines.lineNumber (textOf "\x7b\"a\": 1,\n\"b\": 2\x7d") 9 - 1) =
        [textOf "\x7b\"a\": 1,"] := by decide +kernel
    intro line hline
    rw [hfront] at hline
    rw [List.mem_singleton.mp hline]
    decide +kernel

end ContractCapsule.Build
