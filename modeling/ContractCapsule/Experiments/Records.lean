import ContractCapsule.Library.PyData
import ContractCapsule.Models.Identity

/-!
# Run Records

The models of `experiments/models.py`: `RunRecord` with its field validators and `_retry_link`, what
`model_dump` writes of it and what `model_validate` makes of that when it is read again, and
`RunRecord.new`, which names a run after its identity.

`modelValidate_wire` is the way of an admitted record through its JSON text: all its fields come
back, and its metadata come back with every list made a tuple.
-/

namespace ContractCapsule.Experiments

open Library Models

/-! ## Section 1: Fields -/

/-- The outcomes of a task. -/
inductive TaskOutcome where
  | passed
  | failed
  | unknown
deriving DecidableEq, Repr

instance : Enumeration TaskOutcome where
  values := [.passed, .failed, .unknown]
  wire
    | .passed => "passed"
    | .failed => "failed"
    | .unknown => "unknown"
  complete := by rintro ⟨⟩ <;> decide
  injective := by rintro ⟨⟩ ⟨⟩ <;> simp

/-- `UsageRecord` -/
structure UsageRecord where
  inputTokens : Option ℤ
  outputTokens : Option ℤ
  rawDigest : Option String
deriving DecidableEq, Repr

/-- `UsageRecord()` -/
def UsageRecord.empty : UsageRecord := ⟨none, none, none⟩

/-- `RunRecord`, with metadata of type `μ`. -/
structure RunRecord (μ : Type) where
  runId : String
  attemptId : String
  retryOf : Option String
  attemptNumber : ℤ
  taskId : String
  condition : String
  agent : String
  repetition : ℤ
  repositoryCommit : String
  capsuleDigests : List String
  promptDigest : String
  viewManifestDigest : Option String
  rawEventPath : String
  exitCode : ℤ
  usage : UsageRecord
  infrastructureFailure : Bool
  failureCode : Option String
  taskOutcome : TaskOutcome
  adapterMetadata : μ
  configDigest : Option String
  preflightDigest : Option String
  startedAt : Option String
  finishedAt : Option String
deriving DecidableEq

/-- The value of a key of the metadata. -/
abbrev Data (F : Type) := PyData (Number F)

/-- `adapter_metadata` -/
abbrev Metadata (F : Type) := List (String × Data F)

/-- `hashlib.sha256(text.encode()).hexdigest()` -/
structure Sha256 where
  hexdigest : List Char → String
  length_hexdigest : ∀ text, (hexdigest text).toList.length = 64
  hex_hexdigest : ∀ text, (hexdigest text).toList.all isHex = true

/-! ## Section 2: Validators -/

/-- `[A-Za-z0-9_.:-]` -/
def isIdChar (c : Char) : Bool := c.isAlphanum || c == '_' || c == '.' || c == ':' || c == '-'

/-- `_ids` -/
def isId (s : String) : Bool :=
  match s.toList with
  | [] => false
  | c :: cs => c.isAlphanum && cs.all isIdChar && decide (cs.length ≤ 199)

/-- `_condition` -/
def isCondition (s : String) : Bool := ["B0", "B1", "B2", "B3", "B4", "CC"].contains s

/-- `_raw_path`. The parts of a path are neither empty nor dots, so only `..` is refused. -/
def isRawPath (s : String) : Bool :=
  !s.toList.isEmpty && !s.toList.contains (Char.ofNat 0) && s.toList.head? != some '/' &&
    (splitOn '/' s.toList).all fun part => part != ['.', '.']

/-- `_commit` -/
def isCommit (s : String) : Bool :=
  s.toList.all isHex && (s.toList.length == 40 || s.toList.length == 64)

/-- `_optional_digest` -/
def isOptionalDigest (s : Option String) : Bool := s.all isDigest

/-- `ge=0` -/
def isCount (i : ℤ) : Bool := decide (0 ≤ i)

/-- The validators of `UsageRecord`. -/
def UsageRecord.valid (usage : UsageRecord) : Bool :=
  usage.inputTokens.all isCount && usage.outputTokens.all isCount && isOptionalDigest usage.rawDigest

/-- `infrastructure_prefix` -/
def infrastructurePrefixes : List String := ["INFRA_", "ADAPTER_", "PREFLIGHT_"]

/-- `failure_code.startswith(infrastructure_prefix)` -/
def infrastructurePrefixed (code : String) : Bool :=
  infrastructurePrefixes.any fun start => start.toList.isPrefixOf code.toList

/-- The codes of infrastructure failures. -/
def infrastructureCode (code : String) : Bool :=
  infrastructurePrefixed code || code == "TIMEOUT" || code == "EXECUTION_FAILED"

namespace RunRecord

variable {μ : Type} (record : RunRecord μ)

/-- The field validators but the one of `attempt_id`, which has a default that it would refuse. -/
def fieldsValid : Bool :=
  isId record.runId && isCount record.attemptNumber && isId record.taskId && isId record.condition &&
    isCondition record.condition && isId record.agent && isCount record.repetition &&
    isCommit record.repositoryCommit && record.capsuleDigests.all isDigest &&
    isDigest record.promptDigest && isOptionalDigest record.viewManifestDigest &&
    isRawPath record.rawEventPath && isCount record.exitCode && record.usage.valid &&
    isOptionalDigest record.configDigest && isOptionalDigest record.preflightDigest

/-- The checks of `_retry_link`. -/
def retryLinked : Bool :=
  (if record.attemptNumber = 0 then record.retryOf.isNone else record.retryOf.isSome) &&
    if record.infrastructureFailure then
      record.taskOutcome == .unknown && record.exitCode != 0 &&
        record.failureCode.any infrastructureCode
    else record.failureCode.all fun code => !infrastructurePrefixed code

/-- `_retry_link` names the attempt of a record that has no name for it. -/
def named (sha256 : Sha256) : RunRecord μ :=
  if record.attemptId = "" then
    { record with attemptId := "attempt-" ++ sha256.hexdigest record.runId.toList }
  else record

/-- The validators of `RunRecord`, for a record whose `attempt_id` is empty when it was not given. -/
def checked (sha256 : Sha256) : Option (RunRecord μ) :=
  if record.fieldsValid ∧ (record.attemptId = "" ∨ isId record.attemptId) ∧ record.retryLinked then
    some (record.named sha256)
  else none

/-- What every record that the model made satisfies. -/
def admitted : Bool := record.fieldsValid && isId record.attemptId && record.retryLinked

variable {record}

/-- A digest behind a short identifier is an identifier. -/
theorem isId_append_hexdigest (sha256 : Sha256) {start : String} (hstart : isId start = true)
    (hshort : start.toList.length ≤ 136) (text : List Char) :
    isId (start ++ sha256.hexdigest text) = true := by
  have hlength := sha256.length_hexdigest text
  have hchars : (sha256.hexdigest text).toList.all isIdChar = true := by
    rw [List.all_eq_true]
    intro c hc
    have hhex := List.all_eq_true.mp (sha256.hex_hexdigest text) c hc
    simp only [isHex, Char.isDigit, Bool.or_eq_true, Bool.and_eq_true, decide_eq_true_eq] at hhex
    -- a hexadecimal digit is a digit or a lower-case letter
    have halnum : c.isAlphanum = true := by
      show ((c.isUpper || (decide (c ≥ 'a') && decide (c ≤ 'z'))) ||
        (decide (c ≥ '0') && decide (c ≤ '9'))) = true
      simp only [Bool.or_eq_true, Bool.and_eq_true, decide_eq_true_eq]
      rcases hhex with hdigit | hletter
      · exact .inr hdigit
      · refine .inl (.inr ⟨hletter.1, ?_⟩)
        have hle : c.toNat ≤ 122 := by omega
        exact hle
    simp [isIdChar, halnum]
  rw [isId] at hstart ⊢
  rw [String.toList_append]
  cases hlist : start.toList with
  | nil =>
    rw [hlist] at hstart
    cases hstart
  | cons c cs =>
    rw [hlist] at hstart hshort
    simp only [Bool.and_eq_true, decide_eq_true_eq, List.length_cons] at hstart hshort
    simp only [List.cons_append, List.all_append, List.length_append, Bool.and_eq_true,
      decide_eq_true_eq]
    refine ⟨⟨hstart.1.1, hstart.1.2, hchars⟩, ?_⟩
    omega

theorem isId_attempt (sha256 : Sha256) (text : List Char) :
    isId ("attempt-" ++ sha256.hexdigest text) = true :=
  isId_append_hexdigest sha256 (by decide) (by decide) text

/-- The model makes admitted records. -/
theorem admitted_of_checked {sha256 : Sha256} {made : RunRecord μ}
    (h : record.checked sha256 = some made) : made.admitted = true := by
  rw [checked] at h
  split_ifs at h with hvalid
  obtain ⟨hfields, hattempt, hlink⟩ := hvalid
  obtain rfl := Option.some.inj h
  rw [named]
  split_ifs with hempty
  · simp only [admitted, Bool.and_eq_true]
    exact ⟨⟨hfields, isId_attempt sha256 _⟩, hlink⟩
  · have hid := hattempt.resolve_left hempty
    simp only [admitted, Bool.and_eq_true]
    exact ⟨⟨hfields, hid⟩, hlink⟩

/-- An admitted record passes the validators unchanged. -/
theorem checked_eq_self {sha256 : Sha256} (h : record.admitted = true) :
    record.checked sha256 = some record := by
  simp only [admitted, Bool.and_eq_true] at h
  obtain ⟨⟨hfields, hid⟩, hlink⟩ := h
  have hne : record.attemptId ≠ "" := by
    intro hempty
    rw [hempty] at hid
    exact absurd hid (by decide)
  rw [checked, if_pos ⟨hfields, .inr hid, hlink⟩, named, if_neg hne]

end RunRecord

/-! ## Section 3: On the wire -/

section Wire

variable {F : Type}

/-- An optional integer. -/
def optionalInteger : Option ℤ → Value F
  | none => .null
  | some i => integer i

/-- `UsageRecord.model_dump` -/
def UsageRecord.wire (usage : UsageRecord) : Value F :=
  .object [("input_tokens", optionalInteger usage.inputTokens),
    ("output_tokens", optionalInteger usage.outputTokens),
    ("raw_digest", optionalString usage.rawDigest)]

/-- `RunRecord.model_dump(mode="json")` -/
def RunRecord.wire (record : RunRecord (Metadata F)) : Value F :=
  .object [("run_id", .string record.runId), ("attempt_id", .string record.attemptId),
    ("retry_of", optionalString record.retryOf),
    ("attempt_number", integer record.attemptNumber), ("task_id", .string record.taskId),
    ("condition", .string record.condition), ("agent", .string record.agent),
    ("repetition", integer record.repetition),
    ("repository_commit", .string record.repositoryCommit),
    ("capsule_digests", strings record.capsuleDigests),
    ("prompt_digest", .string record.promptDigest),
    ("view_manifest_digest", optionalString record.viewManifestDigest),
    ("raw_event_path", .string record.rawEventPath), ("exit_code", integer record.exitCode),
    ("usage", record.usage.wire), ("infrastructure_failure", .bool record.infrastructureFailure),
    ("failure_code", optionalString record.failureCode),
    ("task_outcome", literal record.taskOutcome),
    ("adapter_metadata", .object (PyData.jsonableMembers record.adapterMetadata)),
    ("config_digest", optionalString record.configDigest),
    ("preflight_digest", optionalString record.preflightDigest),
    ("started_at", optionalString record.startedAt),
    ("finished_at", optionalString record.finishedAt)]

open Wire

variable [FloatText F]

/-- `UsageRecord.model_validate` -/
def usageRecord (v : Value F) : Option UsageRecord := do
  let ms ← model ["input_tokens", "output_tokens", "raw_digest"] v
  let usage ← UsageRecord.mk
    <$> fieldOr none ms "input_tokens" (optional integer)
    <*> fieldOr none ms "output_tokens" (optional integer)
    <*> fieldOr none ms "raw_digest" (optional string)
  guard usage.valid
  return usage

/-- `attempt_id` where it is given. -/
def givenAttempt (v : Value F) : Option String := (string v).filter isId

/-- `RunRecord.model_validate` of a JSON value whose arrays `_tuplify` made tuples. -/
def modelValidate (sha256 : Sha256) (v : Value F) : Option (RunRecord (Metadata F)) := do
  let ms ← model ["run_id", "attempt_id", "retry_of", "attempt_number", "task_id", "condition",
    "agent", "repetition", "repository_commit", "capsule_digests", "prompt_digest",
    "view_manifest_digest", "raw_event_path", "exit_code", "usage", "infrastructure_failure",
    "failure_code", "task_outcome", "adapter_metadata", "config_digest", "preflight_digest",
    "started_at", "finished_at"] v
  let record ← RunRecord.mk
    <$> field ms "run_id" string
    <*> fieldOr "" ms "attempt_id" givenAttempt
    <*> fieldOr none ms "retry_of" (optional string)
    <*> fieldOr 0 ms "attempt_number" integer
    <*> field ms "task_id" string
    <*> field ms "condition" string
    <*> field ms "agent" string
    <*> field ms "repetition" integer
    <*> field ms "repository_commit" string
    <*> fieldOr [] ms "capsule_digests" strings
    <*> field ms "prompt_digest" string
    <*> fieldOr none ms "view_manifest_digest" (optional string)
    <*> field ms "raw_event_path" string
    <*> field ms "exit_code" integer
    <*> fieldOr UsageRecord.empty ms "usage" usageRecord
    <*> field ms "infrastructure_failure" bool
    <*> fieldOr none ms "failure_code" (optional string)
    <*> fieldOr .unknown ms "task_outcome" literal
    <*> fieldOr [] ms "adapter_metadata" (fun v => (object v).map PyData.tuplifyMembers)
    <*> fieldOr none ms "config_digest" (optional string)
    <*> fieldOr none ms "preflight_digest" (optional string)
    <*> fieldOr none ms "started_at" (optional string)
    <*> fieldOr none ms "finished_at" (optional string)
  record.checked sha256

end Wire

/-! ## Section 4: Reading a record back -/

namespace RunRecord

variable {F : Type} [FloatText F]

/-- A record without its metadata. -/
def bare {μ : Type} (record : RunRecord μ) : RunRecord Unit :=
  { record with adapterMetadata := () }

/-- The metadata as one value. -/
def metadata (record : RunRecord (Metadata F)) : Data F := .dict record.adapterMetadata

/-- `==` -/
def equal (record other : RunRecord (Metadata F)) : Bool :=
  record.bare == other.bare && PyData.equal Number.value record.metadata other.metadata

/-- A record after it was written with its keys in order, read again, and its lists made tuples. -/
def reload (record : RunRecord (Metadata F)) : RunRecord (Metadata F) :=
  { record with
    adapterMetadata :=
      PyData.tuplifyMembers
        (Transport.inKeyOrder.members (PyData.jsonableMembers record.adapterMetadata)) }

/-- A record that is read back equals the record exactly when there is no list in its metadata. -/
theorem equal_reload {record : RunRecord (Metadata F)} (h : record.metadata.distinct = true) :
    record.reload.equal record = record.metadata.listFree := by
  have hbare : record.reload.bare = record.bare := rfl
  have hmetadata : record.reload.metadata = PyData.reload codePoints record.metadata := by
    have hobject : (PyData.jsonable record.metadata).sortKeys codePoints =
        .object (Transport.inKeyOrder.members (PyData.jsonableMembers record.adapterMetadata)) := by
      have hvalue : (Json.object (PyData.jsonableMembers record.adapterMetadata)).sortKeys
          codePoints = Transport.inKeyOrder.value
            (.object (PyData.jsonableMembers record.adapterMetadata)) :=
        (Json.map_id _).symm
      rw [metadata, PyData.jsonable, hvalue, Transport.inKeyOrder.value_object]
    rw [PyData.reload, hobject, PyData.tuplify]
    rfl
  rw [equal, hbare, beq_self_eq_true, Bool.true_and, hmetadata, PyData.equal_reload codePoints h]

omit [FloatText F] in
/-- What is written of a record repeats no key. -/
theorem distinct_wire {record : RunRecord (Metadata F)} (h : record.metadata.distinct = true) :
    record.wire.distinct = true := by
  have hmetadata : (Json.object (PyData.jsonableMembers record.adapterMetadata)).distinct = true := by
    rw [← h, ← PyData.distinct_jsonable]
    rfl
  have hoptional : ∀ s : Option String, (optionalString s : Value F).distinct = true := by
    intro s
    cases s <;> rfl
  have hinteger : ∀ i : Option ℤ, (optionalInteger i : Value F).distinct = true := by
    intro i
    cases i <;> rfl
  have hstrings : ∀ xs, (strings xs : Value F).distinct = true := by
    intro xs
    simp [strings]
  have husage : (record.usage.wire : Value F).distinct = true := by
    simp [UsageRecord.wire, hinteger, hoptional]
  rw [wire, Json.distinct, Json.distinctMembers_eq]
  simp only [List.all_cons, List.all_nil, hmetadata, hoptional, hstrings, husage]
  rfl

theorem optionalInteger_value (i : Option ℤ) :
    Wire.optional Wire.integer (Transport.inKeyOrder.value (optionalInteger i : Value F)) =
      some i := by
  cases i with
  | none => rw [optionalInteger, Transport.inKeyOrder.value_null, Wire.optional]
  | some i =>
    have hread := Transport.integer_value (F := F) Transport.inKeyOrder i
    rw [integer, Transport.inKeyOrder.value_number] at hread
    rw [optionalInteger, integer, Transport.inKeyOrder.value_number, Wire.optional, hread]
    · rfl
    · exact fun h => by cases h

theorem usageRecord_value {usage : UsageRecord} (h : usage.valid = true) :
    usageRecord (Transport.inKeyOrder.value (usage.wire : Value F)) = some usage := by
  obtain ⟨ms, hobject, hmodel, _, hdefault, _⟩ :=
    Transport.inKeyOrder.read (usage.wire : Value F) rfl (by simp)
  simp only [List.forall_mem_cons] at hdefault
  rw [usageRecord, hobject, hmodel _ (by rfl)]
  simp [hdefault, optionalInteger_value, h]

theorem givenAttempt_value {s : String} (h : isId s = true) :
    givenAttempt (Transport.inKeyOrder.value (.string s : Value F)) = some s := by
  rw [givenAttempt, Transport.string_value, Option.filter, if_pos h]

/-- **The way of a record through JSON.** An admitted record is read back from what was written of
it, with the lists of its metadata made tuples. -/
theorem modelValidate_wire (sha256 : Sha256) {record : RunRecord (Metadata F)}
    (h : record.admitted = true) :
    modelValidate sha256 (Transport.inKeyOrder.value record.wire) = some record.reload := by
  obtain ⟨ms, hobject, hmodel, hfield, hdefault, _⟩ :=
    Transport.inKeyOrder.read record.wire rfl (by simp)
  simp only [List.forall_mem_cons] at hfield hdefault
  have hreload : record.reload.admitted = true := h
  simp only [admitted, fieldsValid, Bool.and_eq_true] at h
  rw [modelValidate, hobject, hmodel _ (by rfl)]
  simp [hfield, hdefault, usageRecord_value, givenAttempt_value, h, -PyData.tuplifyMembers_eq,
    -PyData.jsonableMembers_eq]
  exact checked_eq_self hreload

end RunRecord

end ContractCapsule.Experiments
