import ContractCapsule.Library.PyJson
import ContractCapsule.Twin.RunModels

/-!
# The Two Observation Parsers

A check prints its observation as a JSON document. `observed` of `swap/twin_stages.py` hands the
bytes to `json.loads`, which guesses their encoding; `_observation` of `validate/behavior.py`
decodes them as UTF-8 first.

`observed_agrees_iff` says when the two read the same: unless a document nests too deep, or holds
the observation of the check in an encoding that `json.loads` does not take for plain UTF-8.
-/

namespace ContractCapsule.Twin

open Library

variable {ν : Type}

/-! ## Section 1: The parsers -/

/-- `_unique` and `_unique_json`: a key that occurs twice is refused. Both raise a kind of
`ValueError`. -/
def uniquePairs (pairs : List (Text × PyJson ν)) :
    Except LoadsError (List (Text × PyJson ν)) := do
  raiseIf (¬ (pairs.map Prod.fst).Nodup) .valueError
  pure pairs

/-- `json.loads` with the hook that refuses repeated keys. -/
def observationDecoder (limit : ℕ) (number : Text → Except LoadsError ν) : PyDecoder ν where
  limit := limit
  number := number
  pairs := uniquePairs

/-- The keys are exactly `check_id` and `observation`. The keys of a dictionary are distinct. -/
def observationKeys (members : List (Text × PyJson ν)) : Bool :=
  let keys := members.map Prod.fst
  keys = [textOf "check_id", textOf "observation"] ||
    keys = [textOf "observation", textOf "check_id"]

/-- The observation that a document holds for a check, when it is one. -/
def observationIn (checkId : String) : PyJson ν → Option Bool
  | .dict members =>
    if observationKeys members then
      match PyJson.get? members (textOf "check_id"), PyJson.get? members (textOf "observation") with
      | some (.str id), some (.bool b) => if id = textOf checkId then some b else none
      | _, _ => none
    else none
  | _ => none

/-- `observed`. It catches every `ValueError`, and a `RecursionError` is none. -/
def observed (D : PyDecoder ν) (capture : CheckCapture) : Except LoadsError (Option Bool) :=
  let p := capture.process
  if p.exitCode ≠ some 0 ∨ p.terminated = false ∨ p.timedOut ∨ p.outputLimited then .ok none
  else
    match D.loadsBytes p.stdout with
    | .ok value => .ok (observationIn capture.checkId value)
    | .error .valueError => .ok none
    | .error .recursionError => .error .recursionError

/-- What `_observation` raises. -/
inductive ObservationError where
  | unicodeDecodeError
  | loads (e : LoadsError)
  | recordRejected
deriving DecidableEq, Repr

/-- `_observation` -/
def observation (D : PyDecoder ν) (raw : Bytes) (checkId : String) :
    Except ObservationError Bool := do
  let text ← orRaise ((utf8 false).decode raw) .unicodeDecodeError
  let value ← (D.loads text).mapError .loads
  orRaise (observationIn checkId value) .recordRejected

/-! ## Section 2: Agreement -/

/-- The process ended by itself, with exit code 0 and within its limits. -/
structure ProcessCapture.Finished (p : ProcessCapture) : Prop where
  exited : p.exitCode = some 0
  terminated : p.terminated = true
  inTime : p.timedOut = false
  inLimits : p.outputLimited = false

/-- The runner reads what the validator reads, and nothing where the validator rejects. -/
def ParsersAgree (D : PyDecoder ν) (capture : CheckCapture) : Prop :=
  (∃ b, observed D capture = .ok (some b) ∧
    observation D capture.process.stdout capture.checkId = .ok b) ∨
  (observed D capture = .ok none ∧
    ∃ e, observation D capture.process.stdout capture.checkId = .error e)

/-- The JSON document of some bytes, decoded as detected, nests too deep. -/
def NestsTooDeep (D : PyDecoder ν) (raw : Bytes) : Prop :=
  D.loadsBytes raw = .error .recursionError

/-- The bytes, decoded as detected, are a document with the observation of a check. -/
def HoldsObservation (D : PyDecoder ν) (raw : Bytes) (checkId : String) (b : Bool) : Prop :=
  ∃ text value, decodeAs (detectEncoding raw) raw = some text ∧ D.parse text = .ok value ∧
    observationIn checkId value = some b

theorem observed_of_finished (D : PyDecoder ν) {capture : CheckCapture}
    (h : capture.process.Finished) :
    observed D capture = match D.loadsBytes capture.process.stdout with
      | .ok value => .ok (observationIn capture.checkId value)
      | .error .valueError => .ok none
      | .error .recursionError => .error .recursionError := by
  rw [observed, if_neg]
  simp [h.exited, h.terminated, h.inTime, h.inLimits]

theorem holdsObservation_iff {D : PyDecoder ν} {raw : Bytes} {checkId : String} {b : Bool} :
    HoldsObservation D raw checkId b ↔
      ∃ value, D.loadsBytes raw = .ok value ∧ observationIn checkId value = some b := by
  constructor
  · intro h
    obtain ⟨text, value, htext, hvalue, hobservation⟩ := h
    refine ⟨value, ?_, hobservation⟩
    rw [PyDecoder.loadsBytes, htext]
    exact hvalue
  · intro h
    obtain ⟨value, hvalue, hobservation⟩ := h
    obtain ⟨text, htext, hparse⟩ := (Except.bind_eq_ok _ _ _).mp hvalue
    exact ⟨text, value, (orRaise_eq_ok _ _ _).mp htext, hparse, hobservation⟩

/-- A document with an observation has no surrogate. -/
theorem encodes_of_observationIn {checkId : String} {value : PyJson ν} {b : Bool}
    (h : observationIn checkId value = some b) : value.encodes = true := by
  have hdistinct : textOf "observation" ≠ textOf "check_id" :=
    textOf_injective.ne (by decide)
  cases value with
  | dict members =>
    rw [observationIn] at h
    split_ifs at h with hkeys
    split at h
    · next id b' hid hb =>
      split_ifs at h with hsame
      -- an observation has exactly these two members, both of ASCII
      simp only [observationKeys, Bool.or_eq_true, decide_eq_true_eq] at hkeys
      rcases members with _ | ⟨⟨k₁, v₁⟩, _ | ⟨⟨k₂, v₂⟩, _ | ⟨m, members⟩⟩⟩
      · simp at hkeys
      · simp at hkeys
      · -- one order of the keys or the other
        simp only [List.map_cons, List.map_nil, List.cons.injEq, and_true] at hkeys
        rcases hkeys with ⟨rfl, rfl⟩ | ⟨rfl, rfl⟩
        · simp only [PyJson.get?, List.find?, decide_true, Option.map_some,
            Option.some.injEq] at hid
          simp only [PyJson.get?, List.find?, hdistinct.symm, decide_false, decide_true,
            Option.map_some, Option.some.injEq] at hb
          simp only [PyJson.encodes, PyJson.membersEncode, hid, hb, hsame, encodable_textOf,
            Bool.and_self]
        · simp only [PyJson.get?, List.find?, decide_true, Option.map_some,
            Option.some.injEq] at hb
          simp only [PyJson.get?, List.find?, hdistinct, decide_false, decide_true,
            Option.map_some, Option.some.injEq] at hid
          simp only [PyJson.encodes, PyJson.membersEncode, hid, hb, hsame, encodable_textOf,
            Bool.and_self]
      · simp at hkeys
    · cases h
  | null => cases h
  | bool b => cases h
  | number n => cases h
  | str s => cases h
  | list items => cases h

theorem keepsSurrogates (limit : ℕ) (number : Text → Except LoadsError ν) :
    (observationDecoder limit number).KeepsSurrogates := by
  intro pairs members h hencode
  obtain ⟨_, _, heq⟩ := (Except.bind_eq_ok _ _ _).mp h
  cases heq
  exact hencode

section Agreement

variable {limit : ℕ} {number : Text → Except LoadsError ν}

/-- What the validator reads is strict UTF-8 of a text with the observation. -/
theorem observation_eq_ok {D : PyDecoder ν} {raw : Bytes} {checkId : String} {b : Bool} :
    observation D raw checkId = .ok b ↔ ∃ text value, (utf8 false).decode raw = some text ∧
      D.loads text = .ok value ∧ observationIn checkId value = some b := by
  have hmap : ∀ {text : Text} {value : PyJson ν},
      (D.loads text).mapError ObservationError.loads = .ok value ↔ D.loads text = .ok value := by
    intro text value
    cases D.loads text <;> simp [Except.mapError]
  simp only [observation, Except.bind_eq_ok, orRaise_eq_ok, hmap]
  constructor
  · intro h
    obtain ⟨text, htext, value, hvalue, hobservation⟩ := h
    exact ⟨text, value, htext, hvalue, hobservation⟩
  · intro h
    obtain ⟨text, value, htext, hvalue, hobservation⟩ := h
    exact ⟨text, htext, value, hvalue, hobservation⟩

/-- Bytes from which the validator reads an observation are taken for UTF-8, and the runner reads
the same. -/
theorem holds_of_observation {raw : Bytes} {checkId : String} {b : Bool}
    (h : observation (observationDecoder limit number) raw checkId = .ok b) :
    detectEncoding raw = .utf8 ∧ HoldsObservation (observationDecoder limit number) raw checkId b := by
  obtain ⟨text, value, htext, hloads, hobservation⟩ := observation_eq_ok.mp h
  -- a document that was parsed has no null character, and the decoder found no mark before it
  obtain ⟨_, hmark, hparse⟩ := (Except.bind_eq_ok _ _ _).mp hloads
  have hclean := PyDecoder.parse_reads (keepsSurrogates limit number) hparse
  have hnul : codePoint 0 ∉ text := by
    intro hmem
    exact absurd (hclean _ hmem).1 (by decide)
  have hdetect := detect_utf8 htext hnul ((raiseIf_eq_ok _ _ _).mp hmark)
  refine ⟨hdetect, text, value, ?_, hparse, hobservation⟩
  rw [hdetect]
  exact utf8_surrogatepass htext

/-- From a document in plain UTF-8 the validator reads the observation that it holds. -/
theorem observation_of_holds {raw : Bytes} {checkId : String} {b : Bool}
    (hdetect : detectEncoding raw = .utf8)
    (h : HoldsObservation (observationDecoder limit number) raw checkId b) :
    observation (observationDecoder limit number) raw checkId = .ok b := by
  obtain ⟨text, value, htext, hparse, hobservation⟩ := h
  have hencodes := encodes_of_observationIn hobservation
  have hclean := PyDecoder.parse_reads (keepsSurrogates limit number) hparse
  -- a surrogate of the text would be one of the document
  have hencodable : encodable text = true := by
    by_contra hbad
    obtain ⟨c, hc, hsurrogate⟩ := encodable_eq_false.mp (Bool.eq_false_of_not_eq_true hbad)
    have hlost := (hclean c hc).2 hsurrogate
    rw [hencodes] at hlost
    cases hlost
  have hmark : text.head? ≠ some byteOrderMark := by
    intro hhead
    obtain ⟨tail, rfl⟩ := List.head?_eq_some_iff.mp hhead
    rw [PyDecoder.parse_mark] at hparse
    cases hparse
  rw [hdetect] at htext
  apply observation_eq_ok.mpr
  refine ⟨text, value, utf8_strict hencodable htext, ?_, hobservation⟩
  apply (Except.bind_eq_ok _ _ _).mpr
  exact ⟨(), (raiseIf_eq_ok _ _ _).mpr hmark, hparse⟩

/-- **When the parsers agree**: on the output of a check that finished, the runner and the
validator read the same unless the document nests too deep, or holds the observation in an
encoding that is not taken for plain UTF-8. -/
theorem observed_agrees_iff (limit : ℕ) (number : Text → Except LoadsError ν)
    {capture : CheckCapture} (hfinished : capture.process.Finished) :
    ParsersAgree (observationDecoder limit number) capture ↔
      ¬ NestsTooDeep (observationDecoder limit number) capture.process.stdout ∧
      ∀ b, HoldsObservation (observationDecoder limit number) capture.process.stdout
        capture.checkId b → detectEncoding capture.process.stdout = .utf8 := by
  have hobserved := observed_of_finished (observationDecoder limit number) hfinished
  constructor
  · intro hagree
    constructor
    · -- an agreement is no exception
      intro hdeep
      rw [hdeep] at hobserved
      rcases hagree with ⟨b, hread, _⟩ | ⟨hread, _⟩
      · rw [hobserved] at hread
        cases hread
      · rw [hobserved] at hread
        cases hread
    -- an observation that the runner reads was validated as well, which only plain UTF-8 can be
    · intro b hholds
      obtain ⟨value, hvalue, hobservation⟩ := holdsObservation_iff.mp hholds
      rw [hvalue] at hobserved
      simp only [hobservation] at hobserved
      rcases hagree with ⟨b', _, hvalidated⟩ | ⟨hread, _⟩
      · exact (holds_of_observation hvalidated).1
      · rw [hobserved] at hread
        cases hread
  · intro hcondition
    obtain ⟨hshallow, hplain⟩ := hcondition
    -- conversely, the runner parses the output or it does not, and the validator follows it
    cases hloads : (observationDecoder limit number).loadsBytes capture.process.stdout with
    | error e =>
      cases e with
      | recursionError => exact absurd hloads hshallow
      | valueError =>
        rw [hloads] at hobserved
        refine .inr ⟨hobserved, ?_⟩
        cases hvalidated : observation (observationDecoder limit number) capture.process.stdout
            capture.checkId with
        | error e => exact ⟨e, rfl⟩
        | ok b =>
          obtain ⟨value, hvalue, _⟩ := holdsObservation_iff.mp (holds_of_observation hvalidated).2
          rw [hloads] at hvalue
          cases hvalue
    | ok value =>
      rw [hloads] at hobserved
      cases hin : observationIn capture.checkId value with
      -- an observation in plain UTF-8 is validated; where the runner reads none, the validator
      -- cannot
      | some b =>
        have hholds := holdsObservation_iff.mpr ⟨value, hloads, hin⟩
        refine .inl ⟨b, ?_, observation_of_holds (hplain b hholds) hholds⟩
        rw [hobserved]
        simp only [hin]
      | none =>
        simp only [hin] at hobserved
        refine .inr ⟨hobserved, ?_⟩
        cases hvalidated : observation (observationDecoder limit number) capture.process.stdout
            capture.checkId with
        | error e => exact ⟨e, rfl⟩
        | ok b =>
          obtain ⟨value', hvalue', hin'⟩ :=
            holdsObservation_iff.mp (holds_of_observation hvalidated).2
          rw [hloads] at hvalue'
          cases hvalue'
          rw [hin] at hin'
          cases hin'

end Agreement

/-! ## Section 3: A check that prints its observation -/

/-- A decoder for documents without numbers. -/
def sampleDecoder : PyDecoder Unit := observationDecoder 1000 fun _ => .error .valueError

/-- A check that finished with some output. -/
def finishedCapture (stdout : Bytes) : CheckCapture where
  checkId := "c1"
  process := {
    subject       := "sha256:0"
    containerId   := "k1"
    startedNs     := 1
    finishedNs    := 2
    exitCode      := some 0
    terminated    := true
    timedOut      := false
    outputLimited := false
    stdout        := stdout
    stderr        := [] }
  probes := []

/-- `{"check_id":"c1","observation":true}` -/
def sampleDocument : Bytes :=
  "\x7b\"check_id\":\"c1\",\"observation\":true\x7d".toList.map fun c => UInt8.ofNat c.toNat

theorem observed_agrees_iff_sample : ParsersAgree sampleDecoder (finishedCapture sampleDocument) := by
  have hread : (sampleDecoder.loadsBytes sampleDocument).toOption.isSome = true := by
    decide +kernel
  apply (observed_agrees_iff 1000 (fun _ => .error .valueError) ⟨rfl, rfl, rfl, rfl⟩).mpr
  constructor
  · intro hdeep
    have hraised : sampleDecoder.loadsBytes sampleDocument = .error .recursionError := hdeep
    rw [hraised] at hread
    cases hread
  · intro b _
    decide +kernel

/-- A byte order mark in front of the document: the runner reads the observation, and the
validator rejects the output. -/
theorem marked_document_disagrees :
    let capture := finishedCapture (0xEF :: 0xBB :: 0xBF :: sampleDocument)
    capture.process.Finished ∧ observed sampleDecoder capture = .ok (some true) ∧
      observation sampleDecoder capture.process.stdout capture.checkId =
        .error (.loads .valueError) ∧ ¬ ParsersAgree sampleDecoder capture := by
  have hobserved : observed sampleDecoder
      (finishedCapture (0xEF :: 0xBB :: 0xBF :: sampleDocument)) = .ok (some true) := by
    decide +kernel
  have hrejected : observation sampleDecoder (0xEF :: 0xBB :: 0xBF :: sampleDocument) "c1" =
      .error (.loads .valueError) := by
    decide +kernel
  refine ⟨⟨rfl, rfl, rfl, rfl⟩, hobserved, hrejected, ?_⟩
  intro hagree
  rcases hagree with ⟨b, _, hvalidated⟩ | ⟨hread, _⟩
  · exact absurd (hrejected.symm.trans hvalidated) (by simp)
  · exact absurd (hobserved.symm.trans hread) (by simp)

end ContractCapsule.Twin
