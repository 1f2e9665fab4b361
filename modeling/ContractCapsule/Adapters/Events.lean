import ContractCapsule.Build.Records
import ContractCapsule.Library.JsonFrames
import ContractCapsule.Library.Loops
import Mathlib.Data.List.ReduceOption

/-!
# The Event Streams of Adapters

`adapters/base.py`: an agent writes one JSON object on each line, and `_json_lines` reads them. It
splits the stream by `str.splitlines`, which ends lines at characters that JSON allows in a string.

`jsonLines_exact_iff` says exactly which streams of objects are read back: those in whose objects
none of these characters stands, and whose lines `json.loads` reads.
-/

namespace ContractCapsule.Adapters

open Library Build

variable {ν : Type}

/-! ## Section 1: Reading -/

/-- What `_json_lines` raises: an `AdapterError`, or the `RecursionError` of `json.loads`. -/
inductive EventError where
  | adapter (code : String)
  | recursion
deriving DecidableEq, Repr

/-- An object as the decoder holds it. -/
abbrev Members (ν : Type) := List (Text × PyJson ν)

/-- What the interpreter makes of numbers, which of them it refuses, and how deep containers may be
nested. -/
structure Interpreter (ν : Type) where
  number : Text → ν
  refuses : Text → Bool
  limit : ℕ

/-- `_json_pairs` -/
def jsonPairs (pairs : Members ν) : Except LoadsError (Members ν) :=
  if (pairs.map Prod.fst).Nodup then .ok pairs else .error .valueError

/-- `json.loads` with `_json_pairs` for its hook. -/
def Interpreter.decoder (python : Interpreter ν) : PyDecoder ν where
  limit := python.limit
  number lexeme := if python.refuses lexeme then .error .valueError else .ok (python.number lexeme)
  pairs := jsonPairs

/-- The error of a stream that is no stream of events. -/
def outputInvalid : EventError := .adapter "ADAPTER_OUTPUT_INVALID"

/-- The body of the loop of `_json_lines`; a line of white space gives no record. -/
def lineRecord (python : Interpreter ν) (line : Text) : Except EventError (Option (Members ν)) :=
  if strip line = [] then .ok none
  else
    match python.decoder.loads line with
    | .error .valueError => .error outputInvalid
    | .error .recursionError => .error .recursion
    | .ok (.dict members) => .ok (some members)
    | .ok _ => .error outputInvalid

/-- `MAX_EVENT_BYTES` -/
def maxEventBytes : ℕ := 8 * 1024 * 1024

/-- `text.splitlines()` -/
def bodies (text : Text) : List Text := (splitlines.lines text).map splitlines.body

/-- `_json_lines` -/
def jsonLines (python : Interpreter ν) (raw : List UInt8) :
    Except EventError (List (Members ν)) := do
  raiseIf (raw = [] ∨ maxEventBytes < raw.length) outputInvalid
  let text ← orRaise ((utf8 false).decode raw) outputInvalid
  let records ← (bodies text).mapM (lineRecord python)
  raiseIf (records.reduceOption = []) outputInvalid
  .ok records.reduceOption

/-! ## Section 2: Streams -/

/-- A decoder that refuses no number, with so many nested containers. -/
def Interpreter.unlimited (python : Interpreter ν) (depth : ℕ) : PyDecoder ν where
  limit := depth
  number lexeme := .ok (python.number lexeme)
  pairs := jsonPairs

/-- The text is a JSON text of the object, whose keys are distinct at every depth. -/
def IsEvent (python : Interpreter ν) (text : Text) (members : Members ν) : Prop :=
  ∃ depth, (python.unlimited depth).parse text = .ok (.dict members)

/-- The texts on lines of their own. -/
def stream (texts : List Text) : Text := texts.flatMap fun text => text ++ [lineFeed]

/-- No line ends inside the object, as `str.splitlines` sees it. -/
def Unbroken (text : Text) : Prop := ∀ c ∈ stripBy jsonBlank text, splitlinesEnd c = false

variable {python : Interpreter ν}

theorem extends_unlimited {depth : ℕ} (h : python.limit ≤ depth) :
    PyDecoder.Extends python.decoder (python.unlimited depth) := by
  refine ⟨h, ?_, rfl⟩
  intro lexeme n hn
  rw [Interpreter.decoder] at hn
  simp only at hn
  split_ifs at hn
  exact hn

theorem unlimited_mono {depth depth' : ℕ} (h : depth ≤ depth') :
    PyDecoder.Extends (python.unlimited depth) (python.unlimited depth') :=
  ⟨h, fun _ _ hn => hn, rfl⟩

theorem blank_isSpace {c : CodePoint} (h : jsonBlank c = true) : isSpace c = true := by
  simp only [jsonBlank, Bool.or_eq_true, decide_eq_true_eq] at h
  rcases h with ((rfl | rfl) | rfl) | rfl <;> decide

/-- A line of white space gives no record. -/
theorem lineRecord_blank {line : Text} (h : ∀ c ∈ line, jsonBlank c = true) :
    lineRecord python line = .ok none := by
  have hright : line.rdropWhile isSpace = [] :=
    List.rdropWhile_eq_nil_iff.mpr fun c hc => blank_isSpace (h c hc)
  have hstrip : strip line = [] := by
    rw [strip, stripBy, hright]
    rfl
  rw [lineRecord, if_pos hstrip]

theorem lineRecord_blanks {lines : List Text} (h : ∀ line ∈ lines, ∀ c ∈ line, jsonBlank c = true) :
    lines.mapM (lineRecord python) = .ok (lines.map fun _ => none) := by
  induction lines with
  | nil => rfl
  | cons line lines ih =>
    rw [List.mapM_cons, lineRecord_blank (h line List.mem_cons_self), Except.ok_bind,
      ih fun other hother => h other (List.mem_cons_of_mem _ hother)]
    rfl

/-- What a line that is not blank gives. -/
theorem lineRecord_eq_ok_iff {line : Text} (h : ∃ c ∈ line, isSpace c = false)
    {record : Option (Members ν)} :
    lineRecord python line = .ok record ↔
      ∃ members, python.decoder.loads line = .ok (.dict members) ∧ record = some members := by
  obtain ⟨c, hc, hspace⟩ := h
  have hstrip : strip line ≠ [] := stripBy_ne_nil hc hspace
  rw [lineRecord, if_neg hstrip]
  constructor
  · intro hrecord
    split at hrecord
    · cases hrecord
    · cases hrecord
    · next members hmembers =>
      exact ⟨members, hmembers, (Except.ok.inj hrecord).symm⟩
    · cases hrecord
  · intro hrecord
    obtain ⟨members, hmembers, rfl⟩ := hrecord
    rw [hmembers]

/-! ## Section 3: One line of a stream -/

/-- A text of an object is the object with white space around it. -/
theorem IsEvent.spelled {text : Text} {members : Members ν} (h : IsEvent python text members) :
    ∃ depth front inner back, python.limit ≤ depth ∧
      text = front ++ ofChar '{' :: (inner ++ ofChar '}' :: back) ∧
      PyDecoder.Blank front ∧ PyDecoder.Blank back ∧
      (python.unlimited depth).Spells inner members := by
  obtain ⟨depth, hparse⟩ := h
  obtain ⟨front, inner, back, htext, hfront, hback, hspells⟩ := PyDecoder.parse_dict_iff.mp hparse
  exact ⟨max depth python.limit, front, inner, back, le_max_right _ _, htext, hfront, hback,
    hspells.mono (unlimited_mono (le_max_left _ _))⟩

/-- The object without the white space around it. -/
theorem strip_spelled {front inner back : Text} (hfront : PyDecoder.Blank front)
    (hback : PyDecoder.Blank back) :
    stripBy jsonBlank (front ++ ofChar '{' :: (inner ++ ofChar '}' :: back)) =
      ofChar '{' :: (inner ++ [ofChar '}']) := by
  have hopen : jsonBlank (ofChar '{') = false := by decide
  have hclose : jsonBlank (ofChar '}') = false := by decide
  have hshape : front ++ ofChar '{' :: (inner ++ ofChar '}' :: back) =
      front ++ ofChar '{' :: (inner ++ [ofChar '}']) ++ back := by simp
  rw [hshape, stripBy_append hback]
  -- nothing is stripped behind the closing brace, and the white space in front of the opening one
  have hright : (front ++ ofChar '{' :: (inner ++ [ofChar '}'])).rdropWhile jsonBlank =
      front ++ ofChar '{' :: (inner ++ [ofChar '}']) := by
    apply List.rdropWhile_eq_self_iff.mpr
    intro hne
    have hlast : (front ++ ofChar '{' :: (inner ++ [ofChar '}'])).getLast hne = ofChar '}' := by
      simp
    rw [hlast, hclose]
    exact Bool.false_ne_true
  rw [stripBy, hright]
  exact skipBlank_blanks hfront hopen

/-- `json.loads` reads an object with any white space around it, or with none. -/
theorem loads_spelled_iff {front inner back : Text} {members : Members ν}
    (hfront : PyDecoder.Blank front) (hback : PyDecoder.Blank back) {depth : ℕ}
    (hlimit : python.limit ≤ depth) (hspells : (python.unlimited depth).Spells inner members)
    {value : PyJson ν} :
    python.decoder.loads (front ++ ofChar '{' :: (inner ++ ofChar '}' :: back)) = .ok value ↔
      value = .dict members ∧ python.decoder.Spells inner members := by
  have hmark : ¬ (front ++ ofChar '{' :: (inner ++ ofChar '}' :: back)).head? =
      some byteOrderMark := by
    cases front with
    | nil => exact fun h => absurd (Option.some.inj h) (by decide)
    | cons c front =>
      intro h
      have hblank := hfront c List.mem_cons_self
      rw [show c = byteOrderMark from Option.some.inj h] at hblank
      exact absurd hblank (by decide)
  rw [PyDecoder.loads, raiseIf_of_not _ hmark, Except.ok_bind]
  constructor
  · intro h
    have hwide : (python.unlimited depth).parse
        (front ++ ofChar '{' :: (inner ++ ofChar '}' :: back)) = .ok (.dict members) :=
      PyDecoder.parse_dict_iff.mpr ⟨front, inner, back, rfl, hfront, hback, hspells⟩
    have hvalue := PyDecoder.parse_mono (extends_unlimited hlimit) h
    rw [hwide, Except.ok.injEq] at hvalue
    subst hvalue
    refine ⟨rfl, ?_⟩
    -- the decoder finds the object that is there
    obtain ⟨front', inner', back', htext, hfront', _, hnarrow⟩ := PyDecoder.parse_dict_iff.mp h
    have hbrace : jsonBlank (ofChar '{') = false := by decide
    have hskip := congrArg skipBlank htext
    rw [skipBlank_blanks hfront hbrace, skipBlank_blanks hfront' hbrace] at hskip
    have hsame := hspells.unique (hnarrow.mono (extends_unlimited hlimit)) hskip
    exact hsame.1 ▸ hnarrow
  · intro h
    obtain ⟨rfl, hnarrow⟩ := h
    exact PyDecoder.parse_dict_iff.mpr ⟨front, inner, back, rfl, hfront, hback, hnarrow⟩

/-- The lines of a text with an object in it: white space, the line in which the object begins, and
what follows the part of it without line ends. -/
theorem bodies_object {front more : Text} (rest : Text) (hfront : PyDecoder.Blank front)
    (hplain : ∀ c ∈ ofChar '{' :: more, splitlinesEnd c = false) :
    ∃ before begun, bodies (front ++ (ofChar '{' :: more ++ rest)) =
        before ++ (begun ++ (ofChar '{' :: more ++
          splitlines.body ((splitlines.lines rest).headD []))) ::
            (splitlines.lines rest).tail.map splitlines.body ∧
      (∀ line ∈ before, PyDecoder.Blank line) ∧ PyDecoder.Blank begun := by
  have hbrace : splitlines.ends (ofChar '{') = false := hplain _ List.mem_cons_self
  obtain ⟨before, begun, hlines, hbefore, hbegun, hbegunPlain⟩ :=
    @lines_append_of_head splitlines front (more ++ rest) _ hbrace
  have hobject := @lines_append_of_plain splitlines _ rest hplain (List.cons_ne_nil _ _)
  rw [List.cons_append] at hobject
  rw [hobject, List.headD_cons, List.tail_cons] at hlines
  refine ⟨before.map splitlines.body, begun, ?_, ?_, fun c hc => hfront c (hbegun c hc)⟩
  · rw [bodies, List.cons_append, hlines, List.map_append, List.map_cons,
      body_append_of_plain hbegunPlain, body_append_of_plain hplain]
  · intro line hline c hc
    obtain ⟨whole, hwhole, rfl⟩ := List.mem_map.mp hline
    exact hfront c (hbefore whole hwhole c (List.takeWhile_subset _ hc))

/-- White space behind an object makes lines of white space. -/
theorem blank_behind {back : Text} (hback : PyDecoder.Blank back) :
    PyDecoder.Blank (splitlines.body ((splitlines.lines (back ++ [lineFeed])).headD [])) ∧
      ∀ line ∈ (splitlines.lines (back ++ [lineFeed])).tail.map splitlines.body,
        ∀ c ∈ line, jsonBlank c = true := by
  have hlines : ∀ line ∈ splitlines.lines (back ++ [lineFeed]), PyDecoder.Blank line := by
    intro line hline c hc
    rcases List.mem_append.mp (mem_of_mem_lines hline hc) with hback' | hfeed
    · exact hback c hback'
    · rw [List.mem_singleton.mp hfeed]
      decide
  constructor
  · intro c hc
    cases hcases : splitlines.lines (back ++ [lineFeed]) with
    | nil =>
      rw [hcases] at hc
      cases hc
    | cons line later =>
      rw [hcases] at hc
      exact hlines line (hcases ▸ List.mem_cons_self) c (List.takeWhile_subset _ hc)
  · intro line hline c hc
    obtain ⟨whole, hwhole, rfl⟩ := List.mem_map.mp hline
    exact hlines whole (List.mem_of_mem_tail hwhole) c (List.takeWhile_subset _ hc)

/-- A line with an object in it is read like the object. -/
theorem lineRecord_object_iff {begun more stop : Text} {record : Option (Members ν)} :
    lineRecord python (begun ++ (ofChar '{' :: more ++ stop)) = .ok record ↔
      ∃ members, python.decoder.loads (begun ++ (ofChar '{' :: more ++ stop)) =
        .ok (.dict members) ∧ record = some members := by
  apply lineRecord_eq_ok_iff
  exact ⟨ofChar '{', by simp, by decide⟩

/-- The lines that `str.splitlines` makes of the text of an object give the object, when no line
ends inside it and `json.loads` reads the text. -/
theorem mapM_lineRecord {text : Text} {members : Members ν} (h : IsEvent python text members)
    (hunbroken : Unbroken text) {value : PyJson ν}
    (hloads : python.decoder.loads text = .ok value) :
    ∃ records, (bodies (text ++ [lineFeed])).mapM (lineRecord python) = .ok records ∧
      records.reduceOption = [members] := by
  obtain ⟨depth, front, inner, back, hlimit, rfl, hfront, hback, hspells⟩ := h.spelled
  have hnarrow := ((loads_spelled_iff hfront hback hlimit hspells).mp hloads).2
  rw [Unbroken, strip_spelled hfront hback] at hunbroken
  obtain ⟨before, begun, hbodies, hbefore, hbegun⟩ :=
    bodies_object (back ++ [lineFeed]) hfront hunbroken
  -- what stands behind the object is white space, in its line and in the others
  obtain ⟨hstop, hlater⟩ := blank_behind hback
  have hrecord : lineRecord python (begun ++ (ofChar '{' :: (inner ++ [ofChar '}']) ++
      splitlines.body ((splitlines.lines (back ++ [lineFeed])).headD []))) =
        .ok (some members) := by
    apply lineRecord_object_iff.mpr
    refine ⟨members, ?_, rfl⟩
    have hread := (loads_spelled_iff hbegun hstop hlimit hspells).mpr ⟨rfl, hnarrow⟩
    simpa using hread
  have hshape : front ++ ofChar '{' :: (inner ++ ofChar '}' :: back) ++ [lineFeed] =
      front ++ (ofChar '{' :: (inner ++ [ofChar '}']) ++ (back ++ [lineFeed])) := by simp
  rw [hshape, hbodies]
  refine ⟨before.map (fun _ => none) ++ some members ::
    ((splitlines.lines (back ++ [lineFeed])).tail.map splitlines.body).map (fun _ => none), ?_, ?_⟩
  · rw [List.mapM_append, lineRecord_blanks hbefore, Except.ok_bind, List.mapM_cons, hrecord,
      Except.ok_bind, lineRecord_blanks hlater]
    rfl
  · have hnone : ∀ lines : List Text,
        (lines.map fun _ => (none : Option (Members ν))).reduceOption = [] := by
      intro lines
      induction lines with
      | nil => rfl
      | cons line lines ih => rw [List.map_cons, List.reduceOption_cons_of_none, ih]
    rw [List.reduceOption_append, hnone, List.reduceOption_cons_of_some, hnone]
    rfl

/-- When all the lines of the text of an object are read, no line ends inside it and `json.loads`
reads the text. -/
theorem unbroken_of_mapM_lineRecord {text : Text} {members : Members ν}
    (h : IsEvent python text members) {records : List (Option (Members ν))}
    (hrecords : (bodies (text ++ [lineFeed])).mapM (lineRecord python) = .ok records) :
    Unbroken text ∧ ∃ value, python.decoder.loads text = .ok value := by
  obtain ⟨depth, front, inner, back, hlimit, rfl, hfront, hback, hspells⟩ := h.spelled
  have hread : ∀ line ∈ bodies (front ++ ofChar '{' :: (inner ++ ofChar '}' :: back) ++ [lineFeed]),
      ∃ record, lineRecord python line = .ok record := by
    intro line hline
    obtain ⟨record, _, hrecord⟩ := value_of_mem_mapM hrecords hline
    exact ⟨record, hrecord⟩
  rw [Unbroken, strip_spelled hfront hback]
  by_cases hunbroken : ∀ c ∈ ofChar '{' :: (inner ++ [ofChar '}']), splitlinesEnd c = false
  · refine ⟨hunbroken, .dict members, ?_⟩
    obtain ⟨before, begun, hbodies, _, hbegun⟩ :=
      bodies_object (back ++ [lineFeed]) hfront hunbroken
    have hshape : front ++ ofChar '{' :: (inner ++ ofChar '}' :: back) ++ [lineFeed] =
        front ++ (ofChar '{' :: (inner ++ [ofChar '}']) ++ (back ++ [lineFeed])) := by simp
    rw [hshape, hbodies] at hread
    obtain ⟨record, hrecord⟩ := hread _ (List.mem_append_right _ List.mem_cons_self)
    obtain ⟨members', hmembers, _⟩ := lineRecord_object_iff.mp hrecord
    -- the line of the object is read, so the object is
    have hline : begun ++ (ofChar '{' :: (inner ++ [ofChar '}']) ++
        splitlines.body ((splitlines.lines (back ++ [lineFeed])).headD [])) =
          begun ++ ofChar '{' :: (inner ++ ofChar '}' ::
            splitlines.body ((splitlines.lines (back ++ [lineFeed])).headD [])) := by simp
    rw [hline] at hmembers
    have hnarrow := ((loads_spelled_iff hbegun (blank_behind hback).1 hlimit hspells).mp hmembers).2
    exact (loads_spelled_iff hfront hback hlimit hspells).mpr ⟨rfl, hnarrow⟩
  · exfalso
    -- the object is read up to the first line end in it
    have hbrace : splitlinesEnd (ofChar '{') = false := by decide
    obtain ⟨begunText, c, rest, hsplit, hplain, hends⟩ : ∃ begunText c rest,
        inner ++ [ofChar '}'] = begunText ++ c :: rest ∧
          (∀ d ∈ ofChar '{' :: begunText, splitlinesEnd d = false) ∧ splitlinesEnd c = true := by
      have hfound : (inner ++ [ofChar '}']).find? splitlinesEnd ≠ none := by
        intro hnone
        rw [List.find?_eq_none] at hnone
        apply hunbroken
        intro d hd
        rcases List.mem_cons.mp hd with rfl | hd
        · exact hbrace
        · simpa using hnone d hd
      obtain ⟨c, hc⟩ := Option.ne_none_iff_exists'.mp hfound
      obtain ⟨hends, begunText, rest, hsplit, hplain⟩ := List.find?_eq_some_iff_append.mp hc
      refine ⟨begunText, c, rest, hsplit, ?_, hends⟩
      intro d hd
      rcases List.mem_cons.mp hd with rfl | hd
      · exact hbrace
      · simpa using hplain d hd
    obtain ⟨before, begun, hbodies, _, hbegun⟩ :=
      bodies_object (c :: (rest ++ (back ++ [lineFeed]))) hfront hplain
    have hshape : front ++ ofChar '{' :: (inner ++ ofChar '}' :: back) ++ [lineFeed] =
        front ++ (ofChar '{' :: begunText ++ c :: (rest ++ (back ++ [lineFeed]))) := by
      have hcore : inner ++ ofChar '}' :: back = begunText ++ c :: rest ++ back := by
        rw [← hsplit]
        simp
      rw [hcore]
      simp
    rw [hshape, hbodies] at hread
    obtain ⟨record, hrecord⟩ := hread _ (List.mem_append_right _ List.mem_cons_self)
    obtain ⟨first, later, hlines, hfirst⟩ :=
      @exists_lines_cons splitlines c (rest ++ (back ++ [lineFeed]))
    have hempty : splitlines.body first = [] := by
      obtain ⟨tail, rfl⟩ := List.head?_eq_some_iff.mp hfirst
      apply List.takeWhile_cons_of_neg
      have hline : splitlines.ends c = true := hends
      simp [hline]
    rw [hlines, List.headD_cons, hempty] at hrecord
    obtain ⟨members', hmembers, _⟩ := lineRecord_object_iff.mp hrecord
    rw [List.append_nil] at hmembers
    obtain ⟨_, _, hparse⟩ := (Except.bind_eq_ok _ _ _).mp hmembers
    exact PyDecoder.parse_beginning (extends_unlimited hlimit) hspells hbegun
      (congrArg (ofChar '{' :: ·) hsplit) hparse

/-! ## Section 4: The whole stream -/

/-- Each text of a stream has lines of its own. -/
theorem bodies_stream (text : Text) (texts : List Text) :
    bodies (stream (text :: texts)) = bodies (text ++ [lineFeed]) ++ bodies (stream texts) := by
  rw [bodies, stream, List.flatMap_cons, List.append_assoc, List.singleton_append,
    lines_append_lineFeed, List.map_append]
  rfl

/-- A stream whose objects are unbroken and whose texts are read gives the objects in order. -/
theorem mapM_stream {lines : List (Text × Members ν)}
    (hlines : ∀ line ∈ lines, IsEvent python line.1 line.2)
    (hread : ∀ line ∈ lines, Unbroken line.1 ∧ ∃ value, python.decoder.loads line.1 = .ok value) :
    ∃ records, (bodies (stream (lines.map Prod.fst))).mapM (lineRecord python) = .ok records ∧
      records.reduceOption = lines.map Prod.snd := by
  induction lines with
  | nil => exact ⟨[], rfl, rfl⟩
  | cons line lines ih =>
    obtain ⟨hunbroken, value, hvalue⟩ := hread line List.mem_cons_self
    obtain ⟨records, hrecords, hfirst⟩ :=
      mapM_lineRecord (hlines line List.mem_cons_self) hunbroken hvalue
    obtain ⟨later, hlater, hrest⟩ := ih
      (fun other hother => hlines other (List.mem_cons_of_mem _ hother))
      (fun other hother => hread other (List.mem_cons_of_mem _ hother))
    refine ⟨records ++ later, ?_, ?_⟩
    · rw [List.map_cons, bodies_stream, List.mapM_append, hrecords, Except.ok_bind, hlater]
      rfl
    · rw [List.reduceOption_append, hfirst, hrest]
      rfl

/-- A stream that is read at all has unbroken objects in texts that are read. -/
theorem unbroken_of_mapM_stream {lines : List (Text × Members ν)}
    (hlines : ∀ line ∈ lines, IsEvent python line.1 line.2) {records : List (Option (Members ν))}
    (h : (bodies (stream (lines.map Prod.fst))).mapM (lineRecord python) = .ok records) :
    ∀ line ∈ lines, Unbroken line.1 ∧ ∃ value, python.decoder.loads line.1 = .ok value := by
  induction lines generalizing records with
  | nil => simp
  | cons line lines ih =>
    rw [List.map_cons, bodies_stream, List.mapM_append] at h
    obtain ⟨first, hfirst, h⟩ := (Except.bind_eq_ok _ _ _).mp h
    obtain ⟨later, hlater, _⟩ := (Except.bind_eq_ok _ _ _).mp h
    intro other hother
    rcases List.mem_cons.mp hother with rfl | hother
    · exact unbroken_of_mapM_lineRecord (hlines other List.mem_cons_self) hfirst
    · exact ih (fun l hl => hlines l (List.mem_cons_of_mem _ hl)) hlater other hother

/-- **Streams of events.** For every non-empty sequence of objects in JSON texts on lines that a
line feed ends, within the limit on bytes, `_json_lines` returns that sequence exactly when
`str.splitlines` ends no line inside an object, and `json.loads` reads every text. -/
theorem jsonLines_exact_iff {lines : List (Text × Members ν)} {raw : List UInt8}
    (hne : lines ≠ []) (hlines : ∀ line ∈ lines, IsEvent python line.1 line.2)
    (hraw : encodeUtf8 (stream (lines.map Prod.fst)) = some raw)
    (hsize : raw.length ≤ maxEventBytes) :
    jsonLines python raw = .ok (lines.map Prod.snd) ↔
      ∀ line ∈ lines, Unbroken line.1 ∧ ∃ value, python.decoder.loads line.1 = .ok value := by
  have hdecode := decode_encodeUtf8 hraw
  have hbytes : ¬ (raw = [] ∨ maxEventBytes < raw.length) := by
    rintro (rfl | hlong)
    · -- an empty stream has no lines
      have hempty : stream (lines.map Prod.fst) = [] := Option.some.inj hdecode.symm
      cases lines with
      | nil => exact hne rfl
      | cons line lines => simp [stream] at hempty
    · omega
  rw [jsonLines, raiseIf_of_not _ hbytes, Except.ok_bind, hdecode, (orRaise_eq_ok _ _ _).mpr rfl,
    Except.ok_bind]
  constructor
  · intro h
    obtain ⟨records, hrecords, _⟩ := (Except.bind_eq_ok _ _ _).mp h
    exact unbroken_of_mapM_stream hlines hrecords
  · intro h
    obtain ⟨records, hrecords, hreduced⟩ := mapM_stream hlines h
    have hsome : ¬ records.reduceOption = [] := by
      rw [hreduced, List.map_eq_nil_iff]
      exact hne
    rw [hrecords, Except.ok_bind, raiseIf_of_not _ hsome, hreduced]
    rfl

/-! ## Section 5: A line separator in a string -/

/-- An interpreter that keeps the digits of numbers. -/
def samplePython : Interpreter Text := ⟨id, fun _ => false, 4⟩

/-- The JSON text of an object whose only value is a string of one character. -/
def sampleText (c : CodePoint) : Text :=
  textOf "\x7b\"text\":\"" ++ [c] ++ textOf "\"\x7d"

/-- The object of `sampleText`. -/
def sampleMembers (c : CodePoint) : Members Text := [(textOf "text", .str [c])]

/-- The line separator. -/
def lineSeparator : CodePoint := codePoint 0x2028

/-- The bytes of a stream of one object. -/
def sampleRaw (c : CodePoint) : List UInt8 := (stream [sampleText c]).flatMap encodeChar

/-- The key and the string of an object that has no more. -/
def singleString : Except LoadsError (PyJson Text) → Option (Text × Text)
  | .ok (.dict [(key, .str value)]) => some (key, value)
  | _ => none

theorem eq_of_singleString {r : Except LoadsError (PyJson Text)} {key value : Text}
    (h : singleString r = some (key, value)) : r = .ok (.dict [(key, .str value)]) := by
  rw [singleString.eq_def] at h
  split at h
  · cases h
    rfl
  · cases h

/-- An object with a line separator in a string is refused. -/
theorem line_separator_refused :
    IsEvent samplePython (sampleText lineSeparator) (sampleMembers lineSeparator) ∧
      lineFeed ∉ sampleText lineSeparator ∧
      encodeUtf8 (stream [sampleText lineSeparator]) = some (sampleRaw lineSeparator) ∧
      (sampleRaw lineSeparator).length ≤ maxEventBytes ∧
      jsonLines samplePython (sampleRaw lineSeparator) ≠ .ok [sampleMembers lineSeparator] := by
  refine ⟨⟨1, eq_of_singleString (by decide +kernel)⟩, by decide +kernel, by decide +kernel,
    by decide +kernel, ?_⟩
  intro h
  have hreturned := congrArg (fun result => result.toOption.isSome) h
  exact absurd hreturned (by decide +kernel)

/-- Two objects: one between blanks, behind a carriage return, with a raw letter; and one that
escapes it, with a character outside the basic plane. -/
def spelledLines : List (Text × Members Text) :=
  [(textOf "\r\x7b \"text\" : \"é\" \x7d\t", [(textOf "text", .str (textOf "é"))]),
   (textOf "\x7b\"text\":\"\\u00e9😀\"\x7d", [(textOf "text", .str (textOf "é😀"))])]

/-- The bytes of their stream. -/
def spelledRaw : List UInt8 := (stream (spelledLines.map Prod.fst)).flatMap encodeChar

theorem jsonLines_exact_iff_spelled :
    jsonLines samplePython spelledRaw = .ok (spelledLines.map Prod.snd) := by
  have hevents : ∀ line ∈ spelledLines, IsEvent samplePython line.1 line.2 :=
    List.forall_mem_cons.mpr ⟨⟨1, eq_of_singleString (by decide +kernel)⟩,
      List.forall_mem_singleton.mpr ⟨1, eq_of_singleString (by decide +kernel)⟩⟩
  have hplain : ∀ line ∈ spelledLines,
      ((stripBy jsonBlank line.1).all fun c => !splitlinesEnd c) = true := by
    refine List.forall_mem_cons.mpr ⟨?_, List.forall_mem_singleton.mpr ?_⟩
    · decide +kernel
    · decide +kernel
  have hunbroken : ∀ line ∈ spelledLines, Unbroken line.1 := by
    intro line hline c hc
    simpa using List.all_eq_true.mp (hplain line hline) c hc
  have hloads : ∀ line ∈ spelledLines, samplePython.decoder.loads line.1 = .ok (.dict line.2) :=
    List.forall_mem_cons.mpr ⟨eq_of_singleString (by decide +kernel),
      List.forall_mem_singleton.mpr (eq_of_singleString (by decide +kernel))⟩
  have hiff := @jsonLines_exact_iff Text samplePython spelledLines spelledRaw
    (List.cons_ne_nil _ _) hevents (by decide +kernel) (by decide +kernel)
  exact hiff.mpr fun line hline => ⟨hunbroken line hline, _, hloads line hline⟩

end ContractCapsule.Adapters
