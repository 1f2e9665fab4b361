import ContractCapsule.Build.Records
import ContractCapsule.Library.Backtrack
import ContractCapsule.Library.JsonPlaces
import ContractCapsule.Library.Loops

/-!
# Atom Extraction

`build/atomize.py`: the statements that are extracted from a source text, each with the lines it
stands on. Markdown and plain text are read line by line; the definitions of Python and the keys of
JSON and YAML come from a parser, and the atomizer then looks for the line they stand on.
-/

namespace ContractCapsule.Build

open Library Models

/-! ## Section 1: Parsers -/

/-- What a parser raises: the error that the atomizer catches, or another one. -/
inductive ParseFailure where
  | invalid
  | escaped
deriving DecidableEq, Repr

/-- The words that begin a definition. -/
def definitionWords : List Text := [textOf "class", textOf "def", textOf "async"]

/-- A definition of a Python module: its name, and the place of the word that begins it. -/
structure Definition where
  name : Text
  place : ℕ
deriving DecidableEq, Repr

/-- `ast.parse`, and the definitions in the order of `ast.walk`. -/
structure PythonParser where
  parse : Text → Except ParseFailure (List Definition)
  begins : ∀ {text definitions definition}, parse text = .ok definitions →
    definition ∈ definitions → ∃ word ∈ definitionWords, word <+: text.drop definition.place

/-- The tokenizer of Python ends lines here. -/
def tokenizerEnd (c : CodePoint) : Bool := c.val == 0x0A || c.val == 0x0D

/-- The lines that `lineno` counts. -/
def tokenizerLines : LineEnds := ⟨tokenizerEnd, by decide, by decide⟩

/-- `node.lineno` -/
def Definition.lineno (definition : Definition) (text : Text) : ℕ :=
  tokenizerLines.lineNumber text definition.place

/-- A key of a mapping: `str(key)`, and the places where the mapping defines it. -/
structure ConfigKey where
  text : Text
  places : List ℕ
deriving DecidableEq, Repr

/-- The value of a configuration document, as far as the atomizer looks at it. -/
inductive ConfigRoot where
  | mapping (keys : List ConfigKey)
  | other
deriving DecidableEq, Repr

/-- `yaml.safe_load`. A key has a place, and no line ends there. -/
structure YamlParser where
  load : Text → Except ParseFailure ConfigRoot
  placed : ∀ {text keys key place}, load text = .ok (.mapping keys) → key ∈ keys →
    place ∈ key.places → ∃ c, text[place]? = some c ∧ splitlinesEnd c = false

/-- The parsers, and the characters of words in patterns, `\w`. -/
structure Parsers (ν : Type) where
  wordChar : CodePoint → Bool
  python : PythonParser
  yaml : YamlParser
  jsonLimit : ℕ
  jsonNumber : Text → Except LoadsError ν

variable {ν : Type} (parsers : Parsers ν)

/-- The decoder of `json.loads` without hooks. -/
def Parsers.json : PyDecoder ν where
  limit := parsers.jsonLimit
  number := parsers.jsonNumber
  pairs := fun pairs => .ok (PyJson.dictOf pairs)

/-- The places where the object at the root defines a key. -/
def Parsers.jsonPlaces (text key : Text) : List ℕ :=
  ((parsers.json.memberPlaces text).filter fun member => member.2 = key).map Prod.fst

/-- `json.loads` -/
def Parsers.loadJson (text : Text) : Except ParseFailure ConfigRoot :=
  match parsers.json.loads text with
  | .error .valueError => .error .invalid
  | .error .recursionError => .error .escaped
  | .ok (.dict members) =>
    .ok (.mapping (members.map fun member => ⟨member.1, parsers.jsonPlaces text member.1⟩))
  | .ok _ => .ok .other

/-! ## Section 2: Modality and headings -/

/-- `re.search(rf"\b{word}\b", text)`, behind a character, for a word of word characters. -/
def Parsers.searchWord (word : Text) : Option CodePoint → Text → Bool
  | _, [] => false
  | before, c :: rest =>
    (!before.any parsers.wordChar && word.isPrefixOf (c :: rest) &&
      !((c :: rest).drop word.length).head?.any parsers.wordChar) ||
      searchWord word (some c) rest

/-- `_modality` -/
def Parsers.modality (statement : Text) : Modality :=
  if parsers.searchWord (textOf "MUST") none statement then .must
  else if parsers.searchWord (textOf "SHOULD") none statement then .should
  else if parsers.searchWord (textOf "MAY") none statement then .may
  else .informative

/-- The kind of a line that is no heading. -/
def Parsers.lineKind (statement : Text) : AtomKind :=
  if parsers.modality statement ≠ .informative then .policy else .fact

/-- The mark of a heading. -/
def mark : CodePoint := ofChar '#'

/-- `\s*#*`, to the end -/
def closesHeading (rest : Text) : Bool := (rest.dropWhile isSpace).all (· == mark)

/-- `\s+(.+?)\s*#*`, to the end -/
def behindMarks (rest : Text) : Option Text :=
  greedyPlus isSpace (lazyPlus (· != lineFeed) closesHeading) rest.length rest

/-- The group of `#{1,6}\s+(.+?)\s*#*`, if all of a line matches. -/
def headingGroup (stripped : Text) : Option Text :=
  greedyPlus (· == mark) behindMarks 5 stripped

/-! ## Section 3: Spans -/

/-- `_ExtractedSpan` -/
structure ExtractedSpan where
  statement : Text
  kind : AtomKind
  startLine : ℕ
  endLine : ℕ
  symbolOrHeading : Text
deriving DecidableEq, Repr

/-- `text.splitlines()` -/
def lineTexts (text : Text) : List Text := (splitlines.lines text).map splitlines.body

/-- The loop of `_markdown_spans`, at a line number and under a heading. -/
def Parsers.markdownFrom (number : ℕ) (heading : Text) : List Text → List ExtractedSpan
  | [] => []
  | raw :: rest =>
    let stripped := strip raw
    if stripped = [] then markdownFrom (number + 1) heading rest
    else
      match headingGroup stripped with
      | some group =>
        let title := strip group
        ⟨title, .fact, number, number, title⟩ :: markdownFrom (number + 1) title rest
      | none =>
        if (textOf "<!--").isPrefixOf stripped then markdownFrom (number + 1) heading rest
        else
          ⟨stripped, parsers.lineKind stripped, number, number, heading⟩ ::
            markdownFrom (number + 1) heading rest

/-- `_markdown_spans` -/
def Parsers.markdownSpans (text : Text) : List ExtractedSpan :=
  parsers.markdownFrom 1 (textOf "document") (lineTexts text)

/-- The loop of `_text_spans`, at a line number. -/
def Parsers.textFrom (number : ℕ) : List Text → List ExtractedSpan
  | [] => []
  | raw :: rest =>
    let statement := strip raw
    if statement = [] then textFrom (number + 1) rest
    else
      ⟨statement, parsers.lineKind statement, number, number,
        textOf ("line:" ++ toString number)⟩ :: textFrom (number + 1) rest

/-- `_text_spans` -/
def Parsers.textSpans (text : Text) : List ExtractedSpan :=
  parsers.textFrom 1 (lineTexts text)

/-- What an extraction raises: a `QuarantineError` with its message, or what a parser raised and
nothing catches. -/
inductive ExtractError where
  | quarantine (message : String)
  | escaped
deriving DecidableEq, Repr

/-- The `except` clause around a parser. -/
def caught {α : Type} (message : String) : Except ParseFailure α → Except ExtractError α
  | .ok value => .ok value
  | .error .invalid => .error (.quarantine message)
  | .error .escaped => .error .escaped

/-- The span of a definition; `IndexError` escapes. -/
def definitionSpan (text : Text) (definition : Definition) : Except ExtractError ExtractedSpan := do
  let number := definition.lineno text
  let line ← orRaise (lineTexts text)[number - 1]? .escaped
  pure ⟨strip line, .interface, number, number, definition.name⟩

/-- The order of the sorting key of `_python_spans`. -/
def spanLe (a b : ExtractedSpan) : Prop :=
  a.startLine < b.startLine ∨ a.startLine = b.startLine ∧
    (a.endLine < b.endLine ∨ a.endLine = b.endLine ∧
      textLe a.symbolOrHeading b.symbolOrHeading = true)

instance : DecidableRel spanLe := fun a b =>
  inferInstanceAs (Decidable (a.startLine < b.startLine ∨ a.startLine = b.startLine ∧
    (a.endLine < b.endLine ∨ a.endLine = b.endLine ∧
      textLe a.symbolOrHeading b.symbolOrHeading = true)))

/-- `_python_spans` -/
def Parsers.pythonSpans (text : Text) : Except ExtractError (List ExtractedSpan) := do
  let definitions ← caught "deterministic Python parsing failed" (parsers.python.parse text)
  let spans ← definitions.mapM (definitionSpan text)
  pure (spans.insertionSort spanLe)

/-! ## Section 4: Keys of configurations -/

/-- The formats of a configuration. -/
inductive ConfigKind where
  | json
  | yaml
deriving DecidableEq, Repr

/-- A character of `[\t ]`. -/
def isBlank (c : CodePoint) : Bool := c == ofChar '\t' || c == ofChar ' '

/-- A character of a string, escaped as `json.dumps` does. -/
def escapeAscii (c : CodePoint) : Text :=
  if c.val < 0x7F then escapeChar c
  else
    let unit := fun n => textOf "\\u" ++ [hexDigit (n / 4096), hexDigit (n / 256 % 16),
      hexDigit (n / 16 % 16), hexDigit (n % 16)]
    if c.val < 0x10000 then unit c.val
    else unit (0xD800 + (c.val - 0x10000) / 1024) ++ unit (0xDC00 + (c.val - 0x10000) % 1024)

/-- `json.dumps` of a string -/
def dumpsText (text : Text) : Text := ofChar '"' :: (text.flatMap escapeAscii ++ [ofChar '"'])

/-- `(?:word|word)[\t ]*:`, of the words of a key, at the start of a text -/
def matchesKey (key rest : Text) : Bool :=
  [dumpsText key, key].any fun word =>
    word.isPrefixOf rest && ((rest.drop word.length).dropWhile isBlank).head? == some (ofChar ':')

/-- What may stand behind `^[\t ]*` -/
def behindBlanks : Text → List Text
  | [] => [[]]
  | c :: rest => (c :: rest) :: if isBlank c then behindBlanks rest else []

/-- `locator.search(line)` -/
def locates (kind : ConfigKind) (key line : Text) : Bool :=
  match kind with
  | .json => line.tails.any (matchesKey key)
  | .yaml => (behindBlanks line).any (matchesKey key)

/-- The parser of a configuration. -/
def Parsers.load (kind : ConfigKind) (text : Text) : Except ParseFailure ConfigRoot :=
  match kind with
  | .json => parsers.loadJson text
  | .yaml => parsers.yaml.load text

/-- The span of a key: the first line on which it is located. -/
def keySpan (kind : ConfigKind) (lines : List Text) (key : ConfigKey) :
    Except ExtractError ExtractedSpan := do
  let located ← orRaise (lines.findIdx? (locates kind key.text))
    (.quarantine "configuration key cannot be mapped to a source span")
  let line ← orRaise lines[located]? .escaped
  pure ⟨strip line, .fact, located + 1, located + 1, key.text⟩

/-- `_config_spans` -/
def Parsers.configSpans (kind : ConfigKind) (text : Text) :
    Except ExtractError (List ExtractedSpan) := do
  let root ← caught "deterministic configuration parsing failed" (parsers.load kind text)
  match root with
  | .other => .error (.quarantine "configuration source must have an object root")
  | .mapping keys => keys.mapM (keySpan kind (lineTexts text))

/-! ## Section 5: Extraction -/

variable {host : Host}

/-- `_extract` -/
def Parsers.extract (snapshot : SourceSnapshot host) : Except ExtractError (List ExtractedSpan) := do
  let text ← orRaise (decodeStrict snapshot.content)
    (.quarantine "source snapshot is not valid UTF-8")
  match snapshot.parserKind with
  | .markdown => pure (parsers.markdownSpans text)
  | .code =>
    if (textOf ".py").isSuffixOf (textOf snapshot.relativePath) then parsers.pythonSpans text
    else pure (parsers.textSpans text)
  | .json => parsers.configSpans .json text
  | .yaml => parsers.configSpans .yaml text
  | .text => pure (parsers.textSpans text)

/-! ## Section 6: Spans and their lines -/

theorem length_lineTexts (text : Text) : (lineTexts text).length = (splitlines.lines text).length :=
  List.length_map _

variable {kind : ConfigKind}

/-- The span of a key is the first line that its locator matches. -/
theorem keySpan_eq_ok {lines : List Text} {key : ConfigKey} {span : ExtractedSpan}
    (h : keySpan kind lines key = .ok span) :
    ∃ located line, lines[located]? = some line ∧ locates kind key.text line = true ∧
      (∀ line' ∈ lines.take located, locates kind key.text line' = false) ∧
      span = ⟨strip line, .fact, located + 1, located + 1, key.text⟩ := by
  simp only [keySpan, Except.bind_eq_ok, orRaise_eq_ok, Except.pure_eq_ok] at h
  obtain ⟨located, hfirst, line, hline, rfl⟩ := h
  obtain ⟨hlt, hmatch, hbefore⟩ := List.findIdx?_eq_some_iff_getElem.mp hfirst
  obtain rfl : lines[located] = line := by
    rw [List.getElem?_eq_getElem hlt] at hline
    exact Option.some.inj hline
  refine ⟨located, _, hline, hmatch, ?_, rfl⟩
  intro line' hline'
  obtain ⟨j, hj, rfl⟩ := List.mem_take_iff_getElem.mp hline'
  have hnot := hbefore j (by omega)
  simpa using hnot

/-- What a line became in a span: the line itself, stripped, or the title of a heading. -/
def QuotesLine (kind : ParserKind) (span : ExtractedSpan) (line : Text) : Prop :=
  (span.statement = strip line ∧ (kind = .markdown → headingGroup (strip line) = none)) ∨
    kind = .markdown ∧
      ∃ group, headingGroup (strip line) = some group ∧ span.statement = strip group

/-- A span of a parser kind quotes the line that it refers to. -/
def Quotes (kind : ParserKind) (lines : List Text) (span : ExtractedSpan) : Prop :=
  ∃ located line, lines[located]? = some line ∧ span.startLine = located + 1 ∧
    span.endLine = located + 1 ∧ QuotesLine kind span line

variable {parsers}

/-- Each span of a loop over lines quotes one of them. -/
theorem quotes_markdownFrom {number : ℕ} {heading : Text} {lines : List Text}
    {span : ExtractedSpan} (h : span ∈ parsers.markdownFrom number heading lines) :
    ∃ i line, lines[i]? = some line ∧ span.startLine = number + i ∧ span.endLine = number + i ∧
      QuotesLine .markdown span line := by
  induction lines generalizing number heading with
  | nil => cases h
  | cons raw rest ih =>
    -- a span of a later line quotes it under the number that the loop counted
    have hlater : ∀ {heading'}, span ∈ parsers.markdownFrom (number + 1) heading' rest →
        ∃ i line, (raw :: rest)[i]? = some line ∧ span.startLine = number + i ∧
          span.endLine = number + i ∧ QuotesLine .markdown span line := by
      intro heading' hin
      obtain ⟨i, line, hline, hstart, hend, hquotes⟩ := ih hin
      exact ⟨i + 1, line, by simpa using hline, by omega, by omega, hquotes⟩
    rw [Parsers.markdownFrom] at h
    dsimp only at h
    by_cases hblank : strip raw = []
    · rw [if_pos hblank] at h
      exact hlater h
    · rw [if_neg hblank] at h
      cases hgroup : headingGroup (strip raw) with
      | some group =>
        simp only [hgroup] at h
        rcases List.mem_cons.mp h with rfl | hin
        · exact ⟨0, raw, rfl, rfl, rfl, .inr ⟨rfl, group, hgroup, rfl⟩⟩
        · exact hlater hin
      | none =>
        simp only [hgroup] at h
        split_ifs at h with hcomment
        · exact hlater h
        · rcases List.mem_cons.mp h with rfl | hin
          · exact ⟨0, raw, rfl, rfl, rfl, .inl ⟨rfl, fun _ => hgroup⟩⟩
          · exact hlater hin

theorem quotes_textFrom {kind : ParserKind} (hkind : kind ≠ .markdown) {number : ℕ}
    {lines : List Text} {span : ExtractedSpan} (h : span ∈ parsers.textFrom number lines) :
    ∃ i line, lines[i]? = some line ∧ span.startLine = number + i ∧ span.endLine = number + i ∧
      QuotesLine kind span line := by
  induction lines generalizing number with
  | nil => cases h
  | cons raw rest ih =>
    have hlater : span ∈ parsers.textFrom (number + 1) rest →
        ∃ i line, (raw :: rest)[i]? = some line ∧ span.startLine = number + i ∧
          span.endLine = number + i ∧ QuotesLine kind span line := by
      intro hin
      obtain ⟨i, line, hline, hstart, hend, hquotes⟩ := ih hin
      exact ⟨i + 1, line, by simpa using hline, by omega, by omega, hquotes⟩
    rw [Parsers.textFrom] at h
    split_ifs at h with hblank
    · exact hlater h
    · rcases List.mem_cons.mp h with rfl | hin
      · exact ⟨0, raw, rfl, rfl, rfl, .inl ⟨rfl, fun hmarkdown => absurd hmarkdown hkind⟩⟩
      · exact hlater hin

theorem quotes_pythonSpans {kind : ParserKind} (hkind : kind ≠ .markdown) {text : Text}
    {spans : List ExtractedSpan} (h : parsers.pythonSpans text = .ok spans) {span : ExtractedSpan}
    (hspan : span ∈ spans) : Quotes kind (lineTexts text) span := by
  simp only [Parsers.pythonSpans, Except.bind_eq_ok, Except.pure_eq_ok] at h
  obtain ⟨definitions, _, unsorted, hmap, rfl⟩ := h
  obtain ⟨definition, _, hdefinition⟩ :=
    exists_of_mem_mapM hmap ((List.mem_insertionSort spanLe).mp hspan)
  simp only [definitionSpan, Except.bind_eq_ok, orRaise_eq_ok, Except.pure_eq_ok] at hdefinition
  obtain ⟨line, hline, rfl⟩ := hdefinition
  have hpos : definition.lineno text = definition.lineno text - 1 + 1 := by
    rw [Definition.lineno, LineEnds.lineNumber]
    omega
  exact ⟨_, line, hline, hpos, hpos, .inl ⟨rfl, fun hmarkdown => absurd hmarkdown hkind⟩⟩

theorem quotes_configSpans {kind : ConfigKind} {parserKind : ParserKind}
    (hkind : parserKind ≠ .markdown) {text : Text} {spans : List ExtractedSpan}
    (h : parsers.configSpans kind text = .ok spans) {span : ExtractedSpan} (hspan : span ∈ spans) :
    Quotes parserKind (lineTexts text) span := by
  simp only [Parsers.configSpans, Except.bind_eq_ok] at h
  obtain ⟨root, _, hroot⟩ := h
  cases root with
  | other => cases hroot
  | mapping keys =>
    obtain ⟨key, _, hkey⟩ := exists_of_mem_mapM hroot hspan
    obtain ⟨located, line, hline, _, _, rfl⟩ := keySpan_eq_ok hkey
    exact ⟨located, line, hline, rfl, rfl,
      .inl ⟨rfl, fun hmarkdown => absurd hmarkdown hkind⟩⟩

/-- Every extracted span quotes the line that it refers to. -/
theorem quotes_extract {snapshot : SourceSnapshot host} {text : Text}
    (htext : snapshot.text = .ok text) {spans : List ExtractedSpan}
    (h : parsers.extract snapshot = .ok spans) {span : ExtractedSpan} (hspan : span ∈ spans) :
    Quotes snapshot.parserKind (lineTexts text) span := by
  have hdecoded : decodeStrict snapshot.content = some text := (orRaise_eq_ok _ _ _).mp htext
  simp only [Parsers.extract, hdecoded, orRaise, Except.ok_bind] at h
  -- plain text, and code that is no Python, are read line by line
  have hlines : snapshot.parserKind ≠ .markdown → span ∈ parsers.textSpans text →
      Quotes snapshot.parserKind (lineTexts text) span := by
    intro hkind hin
    obtain ⟨i, line, hline, hstart, hend, hquotes⟩ := quotes_textFrom hkind hin
    exact ⟨i, line, hline, by omega, by omega, hquotes⟩
  cases hkind : snapshot.parserKind with
  | markdown =>
    rw [hkind] at h
    obtain rfl := Except.ok.inj h
    obtain ⟨i, line, hline, hstart, hend, hquotes⟩ := quotes_markdownFrom hspan
    exact ⟨i, line, hline, by omega, by omega, hquotes⟩
  | code =>
    rw [hkind] at h hlines
    dsimp only at h
    split_ifs at h
    · exact quotes_pythonSpans (by simp) h hspan
    · obtain rfl := Except.ok.inj h
      exact hlines (by simp) hspan
  | json =>
    rw [hkind] at h
    exact quotes_configSpans (by simp) h hspan
  | yaml =>
    rw [hkind] at h
    exact quotes_configSpans (by simp) h hspan
  | text =>
    rw [hkind] at h hlines
    obtain rfl := Except.ok.inj h
    exact hlines (by simp) hspan

end ContractCapsule.Build
