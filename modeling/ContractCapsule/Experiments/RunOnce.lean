import ContractCapsule.Experiments.Processes

/-!
# Running a Task Once

`run_once` of `experiments/run.py`, from where its arguments are checked: it names the run, looks it
up in the store, calls the adapter, writes the raw output, and then makes the record of the run and
appends it. An exception of the adapter is made an infrastructure failure whose code is the `code`
of the exception.

The record is validated after the raw output is written. `runOnce_records_iff` says for which
exceptions there is a record in the end.
-/

namespace ContractCapsule.Experiments

open Library Models

variable {F : Type} [FloatText F]

/-! ## Section 1: New records -/

/-- The arguments of `RunRecord.new` after which a run is named. -/
structure RunIdentity where
  taskId : String
  condition : String
  agent : String
  repetition : ℤ
  repositoryCommit : String
  capsuleDigests : List String
  promptDigest : String
  viewManifestDigest : Option String
  configDigest : Option String

/-- The `identity` of `RunRecord.new`. -/
def RunIdentity.wire (identity : RunIdentity) : Value F :=
  .object [("task_id", .string identity.taskId), ("condition", .string identity.condition),
    ("agent", .string identity.agent), ("repetition", integer identity.repetition),
    ("repository_commit", .string identity.repositoryCommit),
    ("capsule_digests", strings identity.capsuleDigests),
    ("prompt_digest", .string identity.promptDigest),
    ("view_manifest_digest", optionalString identity.viewManifestDigest),
    ("config_digest", optionalString identity.configDigest)]

/-- `_canonical` -/
def canonical (v : Value F) : List Char :=
  compactStyle.write ((Transport.inKeyOrder.value v).map Number.lexeme)

variable (F) in
/-- The `run_id` of `RunRecord.new`. -/
def RunIdentity.runId (identity : RunIdentity) (sha256 : Sha256) : String :=
  "run-" ++ sha256.hexdigest (canonical (identity.wire : Value F))

/-- What is given for `failure_code`: a string, or an object of another type. -/
inductive FailureCode where
  | text (s : String)
  | other
deriving DecidableEq, Repr

/-- The other arguments of `RunRecord.new`. -/
structure RunResult (F : Type) where
  rawEventPath : String
  exitCode : ℤ
  infrastructureFailure : Bool
  usage : UsageRecord
  failureCode : Option FailureCode
  taskOutcome : TaskOutcome
  adapterMetadata : Metadata F
  preflightDigest : Option String
  startedAt : Option String
  finishedAt : Option String

/-- A strict field takes no object of another type. -/
def strictText : Option FailureCode → Option (Option String)
  | none => some none
  | some (.text s) => some (some s)
  | some .other => none

/-- The fields that `RunRecord.new` gives to the model. -/
def RunRecord.fields (sha256 : Sha256) (identity : RunIdentity) (result : RunResult F)
    (failureCode : Option String) : RunRecord (Metadata F) where
  runId := identity.runId F sha256
  attemptId := "attempt-" ++ sha256.hexdigest (identity.runId F sha256).toList
  retryOf := none
  attemptNumber := 0
  taskId := identity.taskId
  condition := identity.condition
  agent := identity.agent
  repetition := identity.repetition
  repositoryCommit := identity.repositoryCommit
  capsuleDigests := identity.capsuleDigests
  promptDigest := identity.promptDigest
  viewManifestDigest := identity.viewManifestDigest
  rawEventPath := result.rawEventPath
  exitCode := result.exitCode
  usage := result.usage
  infrastructureFailure := result.infrastructureFailure
  failureCode := failureCode
  taskOutcome := result.taskOutcome
  adapterMetadata := result.adapterMetadata
  configDigest := identity.configDigest
  preflightDigest := result.preflightDigest
  startedAt := result.startedAt
  finishedAt := result.finishedAt

/-- `RunRecord.new` -/
def RunRecord.new (sha256 : Sha256) (identity : RunIdentity) (result : RunResult F) :
    Option (RunRecord (Metadata F)) := do
  let failureCode ← strictText result.failureCode
  (RunRecord.fields sha256 identity result failureCode).checked sha256

/-! ## Section 2: One run -/

/-- What `getattr(error, "code", None)` gives: nothing, an exception, a string, or an object of
another type that is true or false. -/
inductive CodeAttribute where
  | missing
  | raises
  | text (s : String)
  | other (truth : Bool)
deriving DecidableEq, Repr

/-- The classes of exceptions that `run_once` tells apart: a `RunRefusal`, another `Exception`, or
an exception that is none, such as `KeyboardInterrupt`. -/
inductive ErrorKind where
  | refusal
  | exception
  | exit
deriving DecidableEq, Repr

/-- An exception. -/
structure Raised where
  kind : ErrorKind
  code : CodeAttribute
deriving DecidableEq, Repr

/-- What an adapter that returns has observed. -/
structure AdapterObservation (F : Type) where
  exitCode : ℤ
  stdout : List UInt8
  usage : UsageRecord
  metadata : Metadata F

/-- What `run_once` is called for: the identity of the run, whether it is dry, the first check after
the plan that refuses it, and the digest and the times of its record. -/
structure RunRequest where
  identity : RunIdentity
  dryRun : Bool
  refusal : Option String
  preflightDigest : Option String
  startedAt : String
  finishedAt : String

/-- The file of the store, and the raw outputs under their paths. -/
structure World where
  file : Text
  raw : String → Option (List UInt8)

/-- What `run_once` raises. -/
inductive RunError where
  | refusal (message : String)
  | validation
  | passed (error : Raised)
  | code
  | store (error : StoreError)

/-- What `run_once` returns: a record or a plan. -/
inductive RunReturn (F : Type) where
  | record (record : RunRecord (Metadata F))
  | plan (runId taskId condition agent : String)

/-- `f"raw/{run_id}.jsonl"` -/
def rawEventPath (runId : String) : String := "raw/" ++ runId ++ ".jsonl"

/-- The identity record, which has no outcome yet. -/
def pendingResult : RunResult F where
  rawEventPath := "raw/pending.jsonl"
  exitCode := 0
  infrastructureFailure := false
  usage := UsageRecord.empty
  failureCode := none
  taskOutcome := .unknown
  adapterMetadata := []
  preflightDigest := none
  startedAt := none
  finishedAt := none

/-- `getattr(error, "code", None) or "ADAPTER_EXECUTION_FAILED"` -/
def failureCode : CodeAttribute → Option FailureCode
  | .missing => some (.text "ADAPTER_EXECUTION_FAILED")
  | .raises => none
  | .text s => some (.text (if s = "" then "ADAPTER_EXECUTION_FAILED" else s))
  | .other truth => some (if truth then .other else .text "ADAPTER_EXECUTION_FAILED")

/-- What `run_once` makes of an exception with a code. -/
def failureResult (request : RunRequest) (path : String) (code : FailureCode) : RunResult F where
  rawEventPath := path
  exitCode := 1
  infrastructureFailure := true
  usage := UsageRecord.empty
  failureCode := some code
  taskOutcome := .unknown
  adapterMetadata := [("agent", .string request.identity.agent), ("version", .null),
    ("model", .null), ("available", .bool false)]
  preflightDigest := request.preflightDigest
  startedAt := some request.startedAt
  finishedAt := some request.finishedAt

/-- The raw output and the record of an attempt, as `run_once` has them after its `try`. -/
def attempted (request : RunRequest) (path : String) :
    Except Raised (AdapterObservation F) → Except RunError (List UInt8 × RunResult F)
  | .ok observed =>
    .ok (observed.stdout,
      { rawEventPath := path
        exitCode := observed.exitCode
        infrastructureFailure := false
        usage := observed.usage
        failureCode := if observed.exitCode = 0 then none else some (.text "AGENT_TASK_FAILED")
        taskOutcome := if observed.exitCode = 0 then .passed else .failed
        adapterMetadata := observed.metadata
        preflightDigest := request.preflightDigest
        startedAt := some request.startedAt
        finishedAt := some request.finishedAt })
  | .error error =>
    match error.kind with
    | .exception =>
      match failureCode error.code with
      | none => .error .code
      | some code => .ok ([], failureResult request path code)
    | _ => .error (.passed error)

/-- `_write_raw`. What stands at the path is a regular file. -/
def writeRaw (raw : String → Option (List UInt8)) (path : String) (data : List UInt8) :
    Except RunError (String → Option (List UInt8)) :=
  match raw path with
  | some old =>
    if old = data then .ok raw else .error (.refusal "raw event path cannot be overwritten")
  | none => .ok (Function.update raw path (some data))

/-- `run_once` behind its `try`: write the raw output, make the record, append it. -/
def finish (python : Interpreter F) (sha256 : Sha256) (identity : RunIdentity)
    (attempt : List UInt8 × RunResult F) (world : World) :
    Except RunError (RunReturn F) × World :=
  match writeRaw world.raw attempt.2.rawEventPath attempt.1 with
  | .error e => (.error e, world)
  | .ok raw =>
    match RunRecord.new sha256 identity attempt.2 with
    | none => (.error .validation, { world with raw := raw })
    | some record =>
      match append python sha256 world.file record with
      | .error e => (.error (.store e), { world with raw := raw })
      | .ok file => (.ok (.record record), { file := file, raw := raw })

/-- `run_once` from its `try` on. -/
def conclude (python : Interpreter F) (sha256 : Sha256) (identity : RunIdentity) (world : World) :
    Except RunError (List UInt8 × RunResult F) → Except RunError (RunReturn F) × World
  | .error e => (.error e, world)
  | .ok attempt => finish python sha256 identity attempt world

/-- `run_once`, with the records that the store had when it was opened, and with what the call of
the adapter and the checks of its result raise or give. -/
def runOnce (python : Interpreter F) (sha256 : Sha256) (known : List (RunRecord (Metadata F)))
    (request : RunRequest) (attempt : Except Raised (AdapterObservation F)) (world : World) :
    Except RunError (RunReturn F) × World :=
  match RunRecord.new sha256 request.identity (pendingResult : RunResult F) with
  | none => (.error .validation, world)
  | some identityRecord =>
    match known.find? fun record => record.runId == identityRecord.runId with
    | some existing => (.ok (.record existing), world)
    | none =>
      if request.dryRun then
        (.ok (.plan identityRecord.runId request.identity.taskId request.identity.condition
          request.identity.agent), world)
      else
        match request.refusal with
        | some message => (.error (.refusal message), world)
        | none =>
          conclude python sha256 request.identity world
            (attempted request (rawEventPath identityRecord.runId) attempt)

/-! ## Section 3: Which records are made -/

/-- The exceptions that give a record: instances of `Exception` without a `code`, with one that is
false, or with one that is a string of an infrastructure failure. -/
def Raised.recordable (error : Raised) : Bool :=
  error.kind == .exception &&
    match error.code with
    | .missing => true
    | .raises => false
    | .text s => s == "" || infrastructureCode s
    | .other truth => !truth

variable {python : Interpreter F} {sha256 : Sha256}

theorem isId_runId (identity : RunIdentity) : isId (identity.runId F sha256) = true :=
  RunRecord.isId_append_hexdigest sha256 (by decide) (by decide) _

/-- The characters of an identifier. -/
theorem isIdChar_of_mem {s : String} (h : isId s = true) : ∀ c ∈ s.toList, isIdChar c = true := by
  rw [isId] at h
  intro c hc
  cases hlist : s.toList with
  | nil =>
    rw [hlist] at hc
    cases hc
  | cons d ds =>
    rw [hlist] at h hc
    simp only [Bool.and_eq_true, List.all_eq_true] at h
    rcases List.mem_cons.mp hc with rfl | hmem
    · simp [isIdChar, h.1.1]
    · exact h.1.2 c hmem

/-- The raw output of a run has a path. -/
theorem isRawPath_rawEventPath {runId : String} (h : isId runId = true) :
    isRawPath (rawEventPath runId) = true := by
  have htext : (rawEventPath runId).toList =
      ['r', 'a', 'w'] ++ '/' :: (runId.toList ++ ['.', 'j', 's', 'o', 'n', 'l']) := by
    simp [rawEventPath, String.toList_append]
  -- neither a slash nor a NUL is an identifier character
  have hplain : ∀ c, isIdChar c = false → c ∉ ['.', 'j', 's', 'o', 'n', 'l'] →
      c ∉ runId.toList ++ ['.', 'j', 's', 'o', 'n', 'l'] := by
    intro c hc hstop hmem
    rcases List.mem_append.mp hmem with hid | hrest
    · rw [isIdChar_of_mem h c hid] at hc
      cases hc
    · exact hstop hrest
  have hslash := hplain '/' (by decide) (by decide)
  have hnul := hplain (Char.ofNat 0) (by decide) (by decide)
  have hparts : splitOn '/' (rawEventPath runId).toList =
      [['r', 'a', 'w'], runId.toList ++ ['.', 'j', 's', 'o', 'n', 'l']] := by
    rw [htext, splitOn_append (by decide), splitOn_of_notMem hslash]
  -- the name is longer than two characters
  have hname : runId.toList ++ ['.', 'j', 's', 'o', 'n', 'l'] ≠ ['.', '.'] := by
    intro heq
    have hlength := congrArg List.length heq
    simp at hlength
  have hzero : ((rawEventPath runId).toList.contains (Char.ofNat 0)) = false := by
    rw [htext, List.contains_eq_mem]
    simp only [List.mem_append, List.mem_cons] at hnul ⊢
    simpa using hnul
  rw [isRawPath, hzero, hparts, htext]
  simpa using hname

variable (F) in
/-- Where the raw output of a run is written. -/
def RunRequest.rawPath (request : RunRequest) (sha256 : Sha256) : String :=
  rawEventPath (request.identity.runId F sha256)

/-- The record of a failure, as `RunRecord.new` gives it to the model. -/
def failureRecord (sha256 : Sha256) (request : RunRequest) (code : FailureCode) (s : Option String) :
    RunRecord (Metadata F) :=
  RunRecord.fields sha256 request.identity
    (failureResult request (request.rawPath F sha256) code) s

theorem new_eq_checked {identity : RunIdentity} {result : RunResult F} {code : Option String}
    (h : strictText result.failureCode = some code) :
    RunRecord.new sha256 identity result =
      (RunRecord.fields sha256 identity result code).checked sha256 := by
  rw [RunRecord.new, h]
  rfl

/-- The identity record is what the model makes of its fields. -/
theorem checked_pending {identity : RunIdentity} {pending : RunRecord (Metadata F)}
    (h : RunRecord.new sha256 identity pendingResult = some pending) :
    pending.runId = identity.runId F sha256 ∧
      (RunRecord.fields (F := F) sha256 identity pendingResult none).fieldsValid = true := by
  have hcode : strictText (pendingResult : RunResult F).failureCode = some none := rfl
  rw [new_eq_checked hcode, RunRecord.checked] at h
  split_ifs at h with hvalid
  refine ⟨?_, hvalid.1⟩
  rw [← Option.some.inj h, RunRecord.named]
  split_ifs <;> rfl

/-- The fields of a failure are valid when those of the identity record were. -/
theorem fieldsValid_failure {request : RunRequest} {pending : RunRecord (Metadata F)}
    (hpending : RunRecord.new sha256 request.identity pendingResult = some pending)
    (hdigest : isOptionalDigest request.preflightDigest = true) (code : FailureCode)
    (s : Option String) :
    (failureRecord sha256 request code s : RunRecord (Metadata F)).fieldsValid = true := by
  have hfields := (checked_pending hpending).2
  have hpath : isRawPath (request.rawPath F sha256) = true :=
    isRawPath_rawEventPath (isId_runId request.identity)
  simp only [RunRecord.fieldsValid, RunRecord.fields, pendingResult, Bool.and_eq_true] at hfields
  simp only [failureRecord, RunRecord.fieldsValid, RunRecord.fields, failureResult,
    Bool.and_eq_true, hdigest, hpath, hfields, true_and, and_true]
  decide

/-- The record of a failure is made when the code is one of an infrastructure failure. -/
theorem new_failure {request : RunRequest} {pending : RunRecord (Metadata F)}
    (hpending : RunRecord.new sha256 request.identity pendingResult = some pending)
    (hdigest : isOptionalDigest request.preflightDigest = true) (s : String) :
    RunRecord.new sha256 request.identity
        (failureResult request (request.rawPath F sha256) (.text s) : RunResult F) =
      if infrastructureCode s then some (failureRecord sha256 request (.text s) (some s))
      else none := by
  have hfields := fieldsValid_failure hpending hdigest (.text s) (some s)
  have hlink : (failureRecord sha256 request (.text s) (some s) :
      RunRecord (Metadata F)).retryLinked = infrastructureCode s := by
    simp [failureRecord, RunRecord.retryLinked, RunRecord.fields, failureResult]
  have hcode : strictText (failureResult (F := F) request (request.rawPath F sha256)
      (.text s)).failureCode = some (some s) := rfl
  rw [new_eq_checked hcode]
  change (failureRecord sha256 request (.text s) (some s)).checked sha256 = _
  split_ifs with hinfra
  · apply RunRecord.checked_eq_self
    rw [RunRecord.admitted, hfields, hlink, hinfra]
    simp [failureRecord, RunRecord.fields, RunRecord.isId_attempt]
  · -- `_retry_link` refuses the code
    apply if_neg
    rw [hlink]
    exact fun hvalid => hinfra hvalid.2.2

/-! ## Section 4: Runs that raise -/

/-- What `run_once` requires of a live run, and what holds of the store before it: the checks pass,
the run is not in the store, the store can be loaded, and `json.dumps` writes the record of a
failure. -/
structure Ready (python : Interpreter F) (sha256 : Sha256) (known : List (RunRecord (Metadata F)))
    (request : RunRequest) (world : World) (records : List (Admitted F)) : Prop where
  pending : ∃ pending : RunRecord (Metadata F),
    RunRecord.new sha256 request.identity pendingResult = some pending
  unknown : ∀ record ∈ known, record.runId ≠ request.identity.runId F sha256
  live : request.dryRun = false
  allowed : request.refusal = none
  digest : isOptionalDigest request.preflightDigest = true
  stored : world.file = stream records
  nodup : (runIds records).Nodup
  readable : ∀ a ∈ records, Readable python a
  fresh : request.identity.runId F sha256 ∉ runIds records
  written : ∀ code s, python.writes (failureRecord sha256 request code s).wire = true

/-- The raw output of a failure is there. -/
def World.withRaw (world : World) (path : String) : World :=
  { world with raw := Function.update world.raw path (some []) }

/-- Nothing stands at a path, or the raw output of a failure, which is empty: an earlier attempt
whose record was refused has left it there. -/
def World.RawFree (world : World) (path : String) : Prop :=
  ∀ data, world.raw path = some data → data = []

/-- The raw output of a failure is written where its path is free. -/
theorem writeRaw_of_free {world : World} {path : String} (h : world.RawFree path) :
    writeRaw world.raw path [] = .ok (world.withRaw path).raw := by
  rw [writeRaw, World.withRaw]
  cases hraw : world.raw path with
  | none => rfl
  | some data =>
    -- the empty output that is there already is the one that would be written
    obtain rfl := h data hraw
    have hsame : Function.update world.raw path (some []) = world.raw := by
      rw [← hraw, Function.update_eq_self]
    simp only [hsame, if_true]

/-- What stands at the path is not overwritten. -/
theorem writeRaw_of_not_free {world : World} {path : String} (h : ¬ world.RawFree path) :
    writeRaw world.raw path [] = .error (.refusal "raw event path cannot be overwritten") := by
  simp only [World.RawFree, not_forall] at h
  obtain ⟨data, hraw, hdata⟩ := h
  rw [writeRaw, hraw]
  exact if_neg hdata

variable {known : List (RunRecord (Metadata F))} {request : RunRequest} {world : World}
  {records : List (Admitted F)}

/-- A run that is ready calls the adapter. -/
theorem runOnce_of_ready (h : Ready python sha256 known request world records)
    (attempt : Except Raised (AdapterObservation F)) :
    runOnce python sha256 known request attempt world =
      conclude python sha256 request.identity world
        (attempted request (request.rawPath F sha256) attempt) := by
  obtain ⟨pending, hpending⟩ := h.pending
  have hid := (checked_pending hpending).1
  have hnone : (known.find? fun record => record.runId == pending.runId) = none := by
    rw [List.find?_eq_none]
    intro record hrecord
    simpa [hid] using h.unknown record hrecord
  unfold runOnce
  rw [hpending]
  dsimp only
  rw [hnone]
  dsimp only
  rw [h.live, h.allowed, hid, if_neg Bool.false_ne_true]
  rfl

/-- What becomes of an exception whose code is a string. -/
theorem finish_text (h : Ready python sha256 known request world records)
    (hfree : world.RawFree (request.rawPath F sha256)) (s : String) :
    finish python sha256 request.identity
        ([], failureResult request (request.rawPath F sha256) (.text s)) world =
      if infrastructureCode s then
        (.ok (.record (failureRecord sha256 request (.text s) (some s))),
          { world.withRaw (request.rawPath F sha256) with
            file := stream records ++
              (encoded (failureRecord (F := F) sha256 request (.text s) (some s)) ++ [lineFeed]) })
      else (.error .validation, world.withRaw (request.rawPath F sha256)) := by
  obtain ⟨pending, hpending⟩ := h.pending
  have hraw : writeRaw world.raw (failureResult (F := F) request (request.rawPath F sha256)
      (.text s)).rawEventPath [] = .ok (world.withRaw (request.rawPath F sha256)).raw :=
    writeRaw_of_free hfree
  rw [finish, hraw, new_failure hpending h.digest]
  -- an infrastructure code makes a record, which is fresh and can be written
  by_cases hcode : infrastructureCode s = true
  · have hprepare : prepare python sha256 (stream records)
        (failureRecord sha256 request (.text s) (some s)) =
          .ok (encoded (failureRecord (F := F) sha256 request (.text s) (some s)) ++ [lineFeed]) := by
      rw [prepare_fresh h.nodup h.readable h.fresh, h.written]
      rfl
    rw [if_pos hcode, if_pos hcode]
    simp only [append, h.stored, hprepare, Except.map]
  -- another text makes none: the raw file stays behind
  · rw [if_neg hcode, if_neg hcode]
    rfl

/-- What becomes of an exception whose code is no string. -/
theorem finish_other (hfree : world.RawFree (request.rawPath F sha256)) :
    finish python sha256 request.identity
        ([], failureResult request (request.rawPath F sha256) .other) world =
      (.error .validation, world.withRaw (request.rawPath F sha256)) := by
  have hraw : writeRaw world.raw (failureResult (F := F) request (request.rawPath F sha256)
      .other).rawEventPath [] = .ok (world.withRaw (request.rawPath F sha256)).raw :=
    writeRaw_of_free hfree
  rw [finish, hraw]
  rfl

/-- Where something else stands, nothing becomes of an exception. -/
theorem finish_of_not_free (hfree : ¬ world.RawFree (request.rawPath F sha256))
    (code : FailureCode) :
    finish python sha256 request.identity
        ([], failureResult request (request.rawPath F sha256) code) world =
      (.error (.refusal "raw event path cannot be overwritten"), world) := by
  have hraw : writeRaw world.raw (failureResult (F := F) request (request.rawPath F sha256)
      code).rawEventPath [] = .error (.refusal "raw event path cannot be overwritten") :=
    writeRaw_of_not_free hfree
  rw [finish, hraw]

/-- The record of a failure is admitted. -/
def admittedFailure (h : Ready python sha256 known request world records) {s : String}
    (hcode : infrastructureCode s = true) : Admitted F where
  record := failureRecord sha256 request (.text s) (some s)
  admitted := by
    obtain ⟨pending, hpending⟩ := h.pending
    have hnew := new_failure hpending h.digest s
    have hstrict : strictText (failureResult (F := F) request (request.rawPath F sha256)
        (.text s)).failureCode = some (some s) := rfl
    rw [if_pos hcode, new_eq_checked hstrict] at hnew
    exact RunRecord.admitted_of_checked hnew
  distinct := rfl

/-- What a run leaves when its adapter raised and there is a record in the end: one record more in
the store, of a failure of the infrastructure, and the raw output of the run. -/
def Recorded (python : Interpreter F) (sha256 : Sha256) (known : List (RunRecord (Metadata F)))
    (request : RunRequest) (world : World) (records : List (Admitted F)) (error : Raised) : Prop :=
  ∃ a : Admitted F,
    runOnce python sha256 known request (.error error) world =
        (.ok (.record a.record),
          { world.withRaw (rawEventPath a.record.runId) with file := stream (records ++ [a]) }) ∧
      a.record.runId = request.identity.runId F sha256 ∧
      a.record.infrastructureFailure = true ∧ a.record.taskOutcome = .unknown

theorem recorded_of_text (h : Ready python sha256 known request world records) {error : Raised}
    (hkind : error.kind = .exception) {s : String}
    (hcode : failureCode error.code = some (.text s)) :
    Recorded python sha256 known request world records error ↔
      infrastructureCode s = true ∧ world.RawFree (request.rawPath F sha256) := by
  -- the run ends with the result of the failure
  have hrun : runOnce python sha256 known request (.error error) world =
      finish python sha256 request.identity
        ([], failureResult request (request.rawPath F sha256) (.text s)) world := by
    rw [runOnce_of_ready h, attempted, hkind]
    simp only [hcode]
    rfl
  -- a record was stored, so neither refusal was met
  constructor
  · intro hrecorded
    obtain ⟨a, hresult, _⟩ := hrecorded
    have hfree : world.RawFree (request.rawPath F sha256) := by
      by_contra hnot
      rw [hrun, finish_of_not_free hnot] at hresult
      cases congrArg Prod.fst hresult
    refine ⟨?_, hfree⟩
    by_contra hnot
    rw [hrun, finish_text h hfree, if_neg hnot] at hresult
    cases congrArg Prod.fst hresult
  -- neither is, so the record is written at the end of the stream
  · rintro ⟨hinfra, hfree⟩
    rw [finish_text h hfree] at hrun
    refine ⟨admittedFailure h hinfra, ?_, rfl, rfl, rfl⟩
    rw [hrun, if_pos hinfra, stream_append, stream_singleton]
    rfl

/-- **Exceptions of the adapter.** For every live run that is ready and every exception that its
adapter raises but a `RunRefusal`, `run_once` stores one record of an infrastructure failure exactly
when the exception is an `Exception` whose `code` is missing, false, or a string of an infrastructure
failure, and nothing but an empty raw output stands at the path of the run's raw output. -/
theorem runOnce_records_iff (h : Ready python sha256 known request world records) {error : Raised}
    (hrefusal : error.kind ≠ .refusal) :
    Recorded python sha256 known request world records error ↔
      error.recordable = true ∧ world.RawFree (request.rawPath F sha256) := by
  have hdefault : infrastructureCode "ADAPTER_EXECUTION_FAILED" = true := by decide
  cases hkind : error.kind with
  | refusal => exact absurd hkind hrefusal
  | exit =>
    -- the exception goes through before anything is written
    have hrun : runOnce python sha256 known request (.error error) world =
        (.error (.passed error), world) := by
      rw [runOnce_of_ready h, attempted, hkind]
      rfl
    simp only [Recorded, hrun, Raised.recordable, hkind]
    simp
  | exception =>
    cases hcode : error.code with
    | missing =>
      rw [recorded_of_text h hkind (by rw [hcode]; rfl), Raised.recordable, hkind, hcode]
      simp [hdefault]
    | raises =>
      have hrun : runOnce python sha256 known request (.error error) world =
          (.error .code, world) := by
        rw [runOnce_of_ready h, attempted, hkind]
        simp only [hcode, failureCode]
        rfl
      simp only [Recorded, hrun, Raised.recordable, hkind, hcode]
      simp
    | text s =>
      rw [recorded_of_text h hkind (by rw [hcode]; rfl), Raised.recordable, hkind, hcode]
      by_cases hempty : s = ""
      · simp [hempty, hdefault]
      · simp [hempty]
    | other truth =>
      cases truth with
      | false =>
        rw [recorded_of_text h hkind (by rw [hcode]; rfl), Raised.recordable, hkind, hcode]
        simp [hdefault]
      | true =>
        have hrun : runOnce python sha256 known request (.error error) world =
            finish python sha256 request.identity
              ([], failureResult request (request.rawPath F sha256) .other) world := by
          rw [runOnce_of_ready h, attempted, hkind]
          simp only [hcode, failureCode]
          rfl
        -- whether the raw output is written or not, there is no record
        by_cases hfree : world.RawFree (request.rawPath F sha256)
        · rw [finish_other hfree] at hrun
          simp only [Recorded, hrun, Raised.recordable, hkind, hcode]
          simp
        · rw [finish_of_not_free hfree] at hrun
          simp only [Recorded, hrun, Raised.recordable, hkind, hcode]
          simp

/-! ## Section 5: A code that is a number -/

/-- A run of a task. -/
def sampleRequest : RunRequest where
  identity :=
    { taskId := "task-1"
      condition := "B0"
      agent := "codex"
      repetition := 0
      repositoryCommit := "0123456789abcdef0123456789abcdef01234567"
      capsuleDigests := []
      promptDigest := "sha256:0123456789abcdef0123456789abcdef0123456789abcdef0123456789abcdef"
      viewManifestDigest := none
      configDigest := none }
  dryRun := false
  refusal := none
  preflightDigest := none
  startedAt := "2026-01-01T00:00:00Z"
  finishedAt := "2026-01-01T00:00:01Z"

/-- An empty store. -/
def emptyWorld : World := ⟨[], fun _ => none⟩

/-- A store with the record of another run, and the raw outputs of both: the run itself has left an
empty one, and no record. -/
def busyWorld : World where
  file := stream [tupleRun]
  raw := fun path =>
    if path = tupleRun.record.rawEventPath then some [0x7B, 0x7D, 0x0A]
    else if path = sampleRequest.rawPath IntegralFloat sampleSha256 then some []
    else none

/-- The run is not the other one. -/
theorem runId_sampleRequest :
    tupleRun.record.runId ≠ sampleRequest.identity.runId IntegralFloat sampleSha256 := by
  intro hsame
  have hlength := congrArg (fun s => s.toList.length) hsame
  simp [RunIdentity.runId, String.toList_append, tupleRun, sampleRecord, sampleSha256,
    length_sampleDigits] at hlength

/-- The identity of the run is valid, whatever the store holds. -/
theorem pending_sampleRequest : ∃ pending : RunRecord (Metadata IntegralFloat),
    RunRecord.new sampleSha256 sampleRequest.identity pendingResult = some pending := by
  have hid : isId (sampleRequest.identity.runId IntegralFloat sampleSha256) = true :=
    isId_runId _
  have hfields : (RunRecord.fields (F := IntegralFloat) sampleSha256 sampleRequest.identity
      pendingResult none).fieldsValid = true := by
    simp only [RunRecord.fieldsValid, RunRecord.fields, hid, Bool.true_and]
    decide +kernel
  refine ⟨_, (new_eq_checked rfl).trans (RunRecord.checked_eq_self ?_)⟩
  simp only [RunRecord.admitted, hfields, Bool.true_and, Bool.and_eq_true]
  exact ⟨RunRecord.isId_attempt sampleSha256 _, by decide⟩

theorem ready_sampleRequest :
    Ready samplePython sampleSha256 [] sampleRequest emptyWorld [] where
  pending := pending_sampleRequest
  unknown := by simp
  live := rfl
  allowed := rfl
  digest := rfl
  stored := rfl
  nodup := List.nodup_nil
  readable := by simp
  fresh := List.not_mem_nil
  written _ _ := rfl

theorem ready_busyWorld :
    Ready samplePython sampleSha256 [tupleRun.record] sampleRequest busyWorld [tupleRun] where
  pending := pending_sampleRequest
  unknown := List.forall_mem_singleton.mpr runId_sampleRequest
  live := rfl
  allowed := rfl
  digest := rfl
  stored := rfl
  nodup := List.nodup_singleton _
  readable := fun _ _ => rfl
  fresh := fun h => runId_sampleRequest (List.mem_singleton.mp h).symm
  written _ _ := rfl

/-- An exception whose `code` is a number leaves a raw output, and no record. -/
theorem numeric_code_lost :
    runOnce samplePython sampleSha256 [] sampleRequest (.error ⟨.exception, .other true⟩)
        emptyWorld =
      (.error .validation,
        emptyWorld.withRaw (sampleRequest.rawPath IntegralFloat sampleSha256)) := by
  have hfree : emptyWorld.RawFree (sampleRequest.rawPath IntegralFloat sampleSha256) := by
    intro data hraw
    cases hraw
  rw [runOnce_of_ready ready_sampleRequest]
  change finish samplePython sampleSha256 sampleRequest.identity
    ([], failureResult sampleRequest (sampleRequest.rawPath IntegralFloat sampleSha256) .other)
    emptyWorld = _
  exact finish_other hfree

/-- A timeout is recorded, in a store that has another record and the raw output of a lost attempt
of the run. -/
theorem runOnce_records_iff_timeout :
    Recorded samplePython sampleSha256 [tupleRun.record] sampleRequest busyWorld [tupleRun]
      ⟨.exception, .text "TIMEOUT"⟩ := by
  refine (runOnce_records_iff ready_busyWorld (by decide)).mpr ⟨by decide, ?_⟩
  intro data hraw
  have hother : sampleRequest.rawPath IntegralFloat sampleSha256 ≠ tupleRun.record.rawEventPath := by
    intro hsame
    have hlength := congrArg (fun s => s.toList.length) hsame
    simp [RunRequest.rawPath, rawEventPath, RunIdentity.runId, String.toList_append, tupleRun,
      sampleRecord, sampleSha256, length_sampleDigits] at hlength
  simp only [busyWorld, if_neg hother, if_true, Option.some.injEq] at hraw
  exact hraw.symm

end ContractCapsule.Experiments
