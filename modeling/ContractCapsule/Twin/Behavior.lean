import ContractCapsule.Library.Handlers
import ContractCapsule.Twin.Deltas
import ContractCapsule.Twin.Observation
import ContractCapsule.Twin.Subjects

/-!
# Behavioral Evaluation

`validate/behavior.py`: a host records what it observed of the runs of a twin, and a service judges
the records that it resolves in the journal. Each call of the service reads the database several
times and writes it once; in between, others use the database as well.

What is raised while records are judged is caught and becomes a blocker of the report, so every
error of that part is `RecordError.rejected` here.
-/

namespace ContractCapsule.Twin

open Library Models

/-! ## Section 1: A journal in use -/

/-- What happens around the calls of a service. -/
structure JournalWorld where
  /-- what others do to the journal before an access -/
  meanwhile : ℕ → RecordLedger → RecordLedger
  /-- whether the database refuses an access -/
  unavailable : ℕ → Bool
  /-- `uuid4` -/
  uuid : ℕ → String

/-- A journal, and how often it was accessed. -/
structure JournalState where
  ledger : RecordLedger
  accesses : ℕ

/-- A program over a journal. -/
abbrev JournalTx (α : Type) := Tx JournalState RecordError α

/-- Every exception is caught. -/
def anyError : RecordError → Bool := fun _ => true

variable (W : JournalWorld)

/-- `sqlite3.connect` -/
def connect : JournalTx Unit := do
  write fun s => ⟨W.meanwhile s.accesses s.ledger, s.accesses + 1⟩
  query fun s => raiseIf (W.unavailable s.accesses = true) .rejected

/-- `RecordVerifier.verify` -/
def RecordJournal.verifyRecord (J : RecordJournal) (reference : RecordRef)
    (kind scope subject : String) : JournalTx Bytes := do
  connect W
  query fun s => J.verify s.ledger.rows reference kind scope subject

/-- The insertion of `RecordJournal.append`. -/
def RecordJournal.insertRecord (J : RecordJournal) (kind scope subject : String)
    (payload : Bytes) : JournalTx RecordRef := fun s =>
  let record : Record := ⟨W.uuid s.accesses, kind, scope, subject, payload⟩
  match J.append record s.ledger.rows with
  | .ok reference rows => .ok reference ⟨⟨rows, s.ledger.written ++ [record]⟩, s.accesses⟩
  | .error e _ => .error e s

/-- `RecordJournal.append` -/
def RecordJournal.appendRecord (J : RecordJournal) (kind scope subject : String)
    (payload : Bytes) : JournalTx RecordRef := do
  connect W
  J.insertRecord W kind scope subject payload

/-! ## Section 2: The service -/

variable {F : Type} [FloatText F] {ν : Type}

/-- `BehaviorService`, with what it reads documents with. -/
structure BehaviorService (F ν : Type) [FloatText F] where
  bound : BoundExecution F
  context : EvaluationContext
  journal : RecordJournal
  /-- `json.loads` of an observation -/
  decoder : PyDecoder ν
  /-- `CompletedRunEvidence.model_validate_json` -/
  parseRun : Bytes → Option CompletedRunEvidence
  /-- `PairEvidence.model_validate_json` -/
  parsePair : Bytes → Option PairEvidence

/-- What is left of an error when it is caught. -/
def rejecting {ε α : Type} (x : Except ε α) : Except RecordError α :=
  match x with
  | .ok a => .ok a
  | .error _ => .error .rejected

/-- `Snapshot.digest_value` -/
def Snapshot.digestValue (digestBytes : Bytes → String) (s : Snapshot) : Option String :=
  identity digestBytes s.dump

/-- `_containers` -/
def containers (captures : List CheckCapture) : List String :=
  captures.flatMap fun capture =>
    (capture.process :: capture.probes).map ProcessCapture.containerId

/-- The containers of `_pair_container_identities`. -/
def pairContainers (old new : CompletedRunEvidence) (paired : List CheckCapture) : List String :=
  [old.executor.containerId, new.executor.containerId] ++
    containers (old.checks ++ new.checks ++ paired)

/-- `_membership` -/
def membership (captures : List CheckCapture) (expected : List String) :
    Except RecordError Unit :=
  let ids := captures.map CheckCapture.checkId
  raiseIf (¬ ids.Nodup ∨ ids.toFinset ≠ expected.toFinset) .rejected

/-- The exit codes that `_process` takes. -/
def exitAccepted (probe : Bool) : Option ℤ → Bool
  | none => false
  | some code => if probe then decide (0 ≤ code) else decide (code = 0)

/-- The states of `_check_capture`. -/
def stateOf (role : StageRole) (inputs : List String) : InputState → Option String
  | .initial => inputs.head?
  | .current => inputs.getLast?
  | .oldFinal => if role = .pair then inputs[1]? else none
  | .newFinal => if role = .pair then inputs[2]? else none

/-- `_count` -/
def countTraces (traces : List CheckTrace) (role : CheckRole) : Count :=
  let relevant := traces.filter fun t => t.role = role.text
  ⟨(relevant.filter fun t => t.valid ∧ t.observation = some true).length, relevant.length⟩

/-- The code of a failed check of a role. -/
def failureCode (role : String) : String :=
  if role = "target" then "TARGET_FAILED"
  else if role = "invariant" then "INVARIANT_FAILED"
  else if role = "spillover" then "SPILLOVER_TRIGGERED"
  else "GUARD_FAILED"

/-- `_trace_blockers` -/
def traceBlockers (traces : List CheckTrace) : List String :=
  traces.filterMap fun trace =>
    if trace.valid = false then some "INVALID_CHECK_RECORD"
    else if trace.observation ≠ some trace.expected then some (failureCode trace.role)
    else none

namespace BehaviorService

variable (S : BehaviorService F ν)

/-- `scope` -/
def scope : Option String := evaluationScope S.journal.digestBytes S.bound

/-- `subject` -/
def subject (role : StageRole) (repetition : ℕ) : Option String := do
  let execution ← executionSubject S.journal.digestBytes S.bound
  runSubject S.journal.digestBytes execution S.context role repetition

/-- `stage_subject`, for the execution of the service -/
def stage (role : StageRole) (repetition : ℕ) (stageId : String) (inputs : List String)
    (probes : List ProcessCapture) : Option String := do
  let run ← S.subject role repetition
  stageSubject S.journal.digestBytes run stageId inputs probes

/-! ## Section 3: One capture -/

/-- `_process` -/
def checkProcess (capture : ProcessCapture) (expected : String) (probe : Bool) :
    Except RecordError Unit :=
  let runner := S.bound.profile.runner
  raiseIf (capture.subject ≠ expected ∨ exitAccepted probe capture.exitCode = false ∨
    capture.terminated = false ∨ capture.timedOut = true ∨ capture.outputLimited = true ∨
    capture.finishedNs < capture.startedNs ∨
    runner.timeoutSeconds * 1000000000 < capture.finishedNs - capture.startedNs ∨
    runner.stdoutLimitBytes < capture.stdout.length ∨
    runner.stderrLimitBytes < capture.stderr.length) .rejected

/-- The loop body of `_check_capture`. -/
def checkProbe (role : StageRole) (repetition : ℕ) (inputs : List String) (earliest : ℕ)
    (process : ProcessCapture) (binding : SubjectProbe) (observed : ProcessCapture) :
    Except RecordError Unit := do
  let state ← orRaise (stateOf role inputs binding.inputState) .rejected
  let expected ← orRaise (S.stage role repetition binding.probeId [state] []) .rejected
  S.checkProcess observed expected true
  raiseIf (observed.startedNs < earliest ∨ process.startedNs < observed.finishedNs) .rejected

/-- `_check_capture` -/
def checkCapture (binding : CheckBinding) (capture : CheckCapture) (role : StageRole)
    (repetition : ℕ) (inputs : List String) (earliest : ℕ) : Except RecordError Unit := do
  raiseIf (capture.probes.length ≠ binding.subjectProbes.length) .rejected
  checkAll (fun probe => S.checkProbe role repetition inputs earliest capture.process probe.1
    probe.2) (binding.subjectProbes.zip capture.probes)
  raiseIf (¬ ((capture.process :: capture.probes).map ProcessCapture.containerId).Nodup ∨
    capture.process.startedNs < earliest) .rejected
  let expected ← orRaise (S.stage role repetition binding.checkId inputs capture.probes) .rejected
  S.checkProcess capture.process expected false

/-- `_observation`, of the output of a capture -/
def observe (binding : CheckBinding) (capture : CheckCapture) : Except RecordError Bool :=
  rejecting (observation S.decoder capture.process.stdout binding.checkId)

/-! ## Section 4: One run -/

/-- What `_read_run` checks of the payload that was resolved. -/
def checkRun (run : AgentRun) (payload : Bytes) : Except RecordError CompletedRunEvidence := do
  let evidence ← orRaise (S.parseRun payload) .rejected
  raiseIf (evidence.payloadBytes ≠ some payload ∨
    (evidence.role, evidence.repetition) ≠ (run.role, run.repetition)) .rejected
  raiseIf (¬ (containers evidence.checks ++ [evidence.executor.containerId]).Nodup) .rejected
  rejecting (validateSnapshot S.context.initial S.bound.profile.runner.toRunnerConfig)
  rejecting (validateSnapshot evidence.final S.bound.profile.runner.toRunnerConfig)
  pure evidence

/-- `_read_run` -/
def readRun (run : AgentRun) : JournalTx CompletedRunEvidence := do
  check (raiseIf (¬ run.repetition < S.bound.profile.repetitions) .rejected)
  let scope ← check (orRaise S.scope .rejected)
  let subject ← check (orRaise (S.subject run.role.stage run.repetition) .rejected)
  let payload ← S.journal.verifyRecord W run.record "run" scope subject
  check (S.checkRun run payload)

/-- What a check expects of a side. -/
def expectedOf (role : RunRole) (binding : CheckBinding) : Bool :=
  match role with
  | .old => binding.oldExpected.getD false
  | .new => binding.newExpected.getD false

/-- The `try` block of `_run_traces`. -/
def observeCheck (evidence : CompletedRunEvidence) (inputs : List String)
    (binding : CheckBinding) (capture : CheckCapture) : Except RecordError Bool := do
  let pre := decide (binding.phase = .pre)
  S.checkCapture binding capture evidence.role.stage evidence.repetition
    (if pre then inputs.take 1 else inputs) (if pre then 0 else evidence.snapshotNs)
  raiseIf (binding.phase = .pre ∧ evidence.executor.startedNs < capture.process.finishedNs)
    .rejected
  raiseIf (binding.phase = .post ∧ capture.process.startedNs < evidence.snapshotNs) .rejected
  S.observe binding capture

/-- The trace of a check. A capture that is refused has no observation. -/
def traceOf (evidence : CompletedRunEvidence) (inputs : List String) (binding : CheckBinding)
    (capture : CheckCapture) : CheckTrace where
  checkId := binding.checkId
  role := binding.role.text
  observation := (S.observeCheck evidence inputs binding capture).toOption
  expected := expectedOf evidence.role binding
  valid := (S.observeCheck evidence inputs binding capture).toOption.isSome

/-- `_run_traces` -/
def runTraces (evidence : CompletedRunEvidence) : Except RecordError (List CheckTrace) := do
  let initial ← orRaise (S.context.initial.digestValue S.journal.digestBytes) .rejected
  let final ← orRaise (evidence.final.digestValue S.journal.digestBytes) .rejected
  let expected ← orRaise (S.stage evidence.role.stage evidence.repetition "executor" [initial] [])
    .rejected
  S.checkProcess evidence.executor expected false
  raiseIf (evidence.snapshotNs < evidence.executor.finishedNs) .rejected
  let bindings := S.bound.profile.checks.filter fun binding => binding.phase ≠ .pair
  membership evidence.checks (bindings.map CheckBinding.checkId)
  bindings.mapM fun binding => do
    let capture ← orRaise
      (evidence.checks.reverse.find? fun capture => capture.checkId = binding.checkId) .rejected
    pure (S.traceOf evidence [initial, final] binding capture)

/-- `_contract` -/
def checkContract (contract : ReplacementContract (Number F)) : Except RecordError Unit := do
  raiseIf (pyEqual (Canonical.replacementContract contract)
    (Canonical.replacementContract S.bound.request.contract) = false) .rejected
  raiseIf (([.target, .invariant, .spillover] : List CheckRole).any (fun role =>
    S.bound.profile.checks.all fun binding => binding.role ≠ role) = true) .rejected

/-! ## Section 5: Reports -/

/-- The identity of what a report is about. -/
def memberSubject (kind : String) (members : List Plain) : Option String := do
  let binding ← S.subject .pair 0
  identity S.journal.digestBytes (.object
    [("binding", .string binding), ("kind", .string kind), ("members", .array members)] : Plain)

/-- `_report_subject` of the runs of a pair -/
def pairSubject (old new : AgentRun) : Option String :=
  S.memberSubject "differential" [old.dump, new.dump]

/-- `_report_subject` -/
def reportSubject : Report → Option String
  | .contract report => S.memberSubject "contract" [report.run.dump]
  | .differential report => S.pairSubject report.old report.new
  | .repetitions report => do
    let members ← report.pairs.mapM fun pair => S.pairSubject pair.old pair.new
    S.memberSubject "repetitions" (members.map .string)

/-- `_persist`, without the update of the report -/
def persist (report : Report) : JournalTx (Except RecordError RecordRef) :=
  attempt anyError do
    let scope ← check (orRaise S.scope .rejected)
    let subject ← check (orRaise (S.reportSubject report) .rejected)
    let payload ← check (orRaise report.payloadBytes .rejected)
    S.journal.appendRecord W report.kind scope subject payload

/-- The update of a report after `_persist`: its validity, its blockers and its record. -/
def persisted (valid : Bool) (blockers : List String) :
    Except RecordError RecordRef → Bool × List String × Option RecordRef
  | .ok reference => (valid, blockers, some reference)
  | .error _ => (false, blockers ++ ["REPORT_PERSISTENCE_FAILED"], none)

/-- The traces and the blockers of `evaluate_contract`. -/
def contractFindings : Except RecordError (List CheckTrace) → List CheckTrace × List String
  | .ok traces => (traces, traceBlockers traces)
  | .error _ => ([], ["INVALID_RUN_RECORD"])

/-- The report of `evaluate_contract`. -/
def contractReport (run : AgentRun) (findings : List CheckTrace × List String) :
    ContractReport where
  valid := findings.2.isEmpty
  blockers := uniqueStrings findings.2
  run := run
  ter := countTraces findings.1 .target
  pip := countTraces findings.1 .invariant
  bsr := countTraces findings.1 .spillover
  traces := findings.1
  record := none

/-- The `try` block of `evaluate_contract`. -/
def judgeRun (run : AgentRun) (contract : ReplacementContract (Number F)) :
    JournalTx (List CheckTrace) := do
  check (S.checkContract contract)
  let evidence ← S.readRun W run
  check (S.runTraces evidence)

/-- `evaluate_contract` -/
def evaluateContract (run : AgentRun) (contract : ReplacementContract (Number F)) :
    JournalTx ContractReport := do
  let judged ← attempt anyError (S.judgeRun W run contract)
  let report := contractReport run (contractFindings judged)
  let reference ← S.persist W (.contract report)
  let (valid, blockers, record) := persisted report.valid report.blockers reference
  pure { report with valid := valid, blockers := blockers, record := record }

/-! ## Section 6: One pair -/

/-- `_pair_runs` -/
def pairRuns (old new : AgentRun) : JournalTx (CompletedRunEvidence × CompletedRunEvidence) := do
  check (raiseIf (old.role ≠ .old ∨ new.role ≠ .new ∨ old.repetition ≠ new.repetition ∨
    old.pairRecord = none ∨ old.pairRecord ≠ new.pairRecord) .rejected)
  let oldEvidence ← S.readRun W old
  let newEvidence ← S.readRun W new
  check (raiseIf (¬ (pairContainers oldEvidence newEvidence []).Nodup) .rejected)
  pure (oldEvidence, newEvidence)

/-- The times at which checks of a phase finished. -/
def finishedOf (phase : CheckPhase) (run : CompletedRunEvidence) : List ℕ :=
  (run.checks.filter fun capture => S.bound.profile.checks.any fun binding =>
    decide (binding.phase = phase ∧ binding.checkId = capture.checkId)).map
      fun capture => capture.process.finishedNs

/-- `_cross_preconditions` -/
def crossPreconditions (old new : CompletedRunEvidence) : Except RecordError Unit :=
  let stop := (S.finishedOf .pre old ++ S.finishedOf .pre new).max?.getD 0
  raiseIf (min old.executor.startedNs new.executor.startedNs < stop) .rejected

/-- The loop body of `_pair_traces`. -/
def pairTrace (repetition : ℕ) (inputs : List String) (earliest : ℕ) (binding : CheckBinding)
    (capture : CheckCapture) : Except RecordError CheckTrace := do
  raiseIf (binding.checkId ≠ capture.checkId ∨ capture.process.startedNs < earliest) .rejected
  S.checkCapture binding capture .pair repetition inputs earliest
  let observed ← S.observe binding capture
  pure ⟨binding.checkId, binding.role.text, some observed, true, true⟩

/-- What `_pair_traces` checks of the payload that was resolved. -/
def checkPair (old new : AgentRun) (oldEvidence newEvidence : CompletedRunEvidence)
    (payload : Bytes) : Except RecordError (List CheckTrace) := do
  let evidence ← orRaise (S.parsePair payload) .rejected
  raiseIf (evidence.payloadBytes ≠ some payload ∨ evidence.oldRecord ≠ old.record ∨
    evidence.newRecord ≠ new.record ∨ evidence.repetition ≠ old.repetition) .rejected
  raiseIf (¬ (pairContainers oldEvidence newEvidence evidence.checks).Nodup) .rejected
  let bindings := S.bound.profile.checks.filter fun binding => binding.phase = .pair
  raiseIf (bindings = []) .rejected
  membership evidence.checks (bindings.map CheckBinding.checkId)
  let initial ← orRaise (S.context.initial.digestValue S.journal.digestBytes) .rejected
  let oldFinal ← orRaise (oldEvidence.final.digestValue S.journal.digestBytes) .rejected
  let newFinal ← orRaise (newEvidence.final.digestValue S.journal.digestBytes) .rejected
  let oldRecord ← orRaise (identity S.journal.digestBytes old.record.dump) .rejected
  let newRecord ← orRaise (identity S.journal.digestBytes new.record.dump) .rejected
  -- `max` of no captures raises
  let finished := (oldEvidence.checks ++ newEvidence.checks).map
    fun capture => capture.process.finishedNs
  let earliest ← orRaise finished.max? .rejected
  raiseIf (bindings.length ≠ evidence.checks.length) .rejected
  (bindings.zip evidence.checks).mapM fun item =>
    S.pairTrace old.repetition [initial, oldFinal, newFinal, oldRecord, newRecord] earliest item.1
      item.2

/-- `_pair_traces` -/
def pairTraces (old new : AgentRun) (oldEvidence newEvidence : CompletedRunEvidence) :
    JournalTx (List CheckTrace) := do
  let scope ← check (orRaise S.scope .rejected)
  let subject ← check (orRaise (S.subject .pair old.repetition) .rejected)
  let reference ← check (orRaise new.pairRecord .rejected)
  let payload ← S.journal.verifyRecord W reference "pair" scope subject
  check (S.checkPair old new oldEvidence newEvidence payload)

/-- What `compare_runs` finds of a pair. -/
structure PairFindings where
  blockers : List String
  traces : List CheckTrace
  initialToOld : List String
  initialToNew : List String
  oldToNew : List String

/-- The part of `compare_runs` that follows the change sets. -/
def judgeTraces (old new : AgentRun) (oldEvidence newEvidence : CompletedRunEvidence) :
    JournalTx (List CheckTrace) := do
  check (S.crossPreconditions oldEvidence newEvidence)
  S.pairTraces W old new oldEvidence newEvidence

/-- The part of `compare_runs` that follows `_pair_runs`. -/
def judgeScopes (old new : AgentRun) (contract : ReplacementContract (Number F))
    (oldEvidence newEvidence : CompletedRunEvidence) : JournalTx PairFindings := do
  let toOld := treeDelta S.context.initial oldEvidence.final
  let toNew := treeDelta S.context.initial newEvidence.final
  let found (blockers : List String) (traces : List CheckTrace) : PairFindings :=
    ⟨blockers, traces, toOld, toNew, treeDelta oldEvidence.final newEvidence.final⟩
  let violated := [toOld, toNew].anyM fun delta =>
    scopeViolations delta contract.allowedScope contract.forbiddenSpillover
  match violated with
  | .error _ => pure (found ["INVALID_PAIR_RECORD"] [])
  | .ok outside => do
    let blockers := if outside then ["SCOPE_VIOLATION"] else []
    let judged ← attempt anyError (S.judgeTraces W old new oldEvidence newEvidence)
    match judged with
    | .error _ => pure (found (blockers ++ ["INVALID_PAIR_RECORD"]) [])
    | .ok traces => pure (found (blockers ++ traceBlockers traces) traces)

/-- The `try` block of `compare_runs`. -/
def judgePair (old new : AgentRun) (contract : ReplacementContract (Number F)) :
    JournalTx PairFindings := do
  let runs ← attempt anyError do
    check (S.checkContract contract)
    S.pairRuns W old new
  match runs with
  | .error _ => pure ⟨["INVALID_PAIR_RECORD"], [], [], [], []⟩
  | .ok (oldEvidence, newEvidence) =>
    S.judgeScopes W old new contract oldEvidence newEvidence

/-- The report of `compare_runs`. -/
def differentialReport (old new : AgentRun) (oldReport newReport : ContractReport)
    (findings : PairFindings) : DifferentialReport :=
  let blockers := oldReport.blockers ++ newReport.blockers ++ findings.blockers
  { valid := blockers.isEmpty
    blockers := uniqueStrings blockers
    old := old
    new := new
    oldReport := oldReport
    newReport := newReport
    traces := findings.traces
    initialToOld := findings.initialToOld
    initialToNew := findings.initialToNew
    oldToNew := findings.oldToNew
    record := none }

/-- `compare_runs` -/
def compareRuns (old new : AgentRun) (contract : ReplacementContract (Number F)) :
    JournalTx DifferentialReport := do
  let oldReport ← S.evaluateContract W old contract
  let newReport ← S.evaluateContract W new contract
  let findings ← S.judgePair W old new contract
  let report := differentialReport old new oldReport newReport findings
  let reference ← S.persist W (.differential report)
  let (valid, blockers, record) := persisted report.valid report.blockers reference
  pure { report with valid := valid, blockers := blockers, record := record }

/-! ## Section 7: Repetitions -/

/-- What `verify_report` does first with every report. -/
def verifyPayload (report : Report) : JournalTx Unit := do
  let scope ← check (orRaise S.scope .rejected)
  let subject ← check (orRaise (S.reportSubject report) .rejected)
  let reference ← check (orRaise report.record .rejected)
  let payload ← S.journal.verifyRecord W reference report.kind scope subject
  check (raiseIf (report.payloadBytes ≠ some payload) .rejected)

/-- `verify_report` of a contract report -/
def verifyContractReport (report : ContractReport) : JournalTx Unit := do
  S.verifyPayload W (.contract report)
  let _ ← S.readRun W report.run
  pure ()

/-- What `verify_report` does next with a differential report. -/
def verifyMembers (report : DifferentialReport) : JournalTx Unit := do
  S.verifyContractReport W report.oldReport
  S.verifyContractReport W report.newReport
  let runs ← S.pairRuns W report.old report.new
  let _ ← S.pairTraces W report.old report.new runs.1 runs.2
  pure ()

/-- `verify_report` of a differential report -/
def verifyDifferentialReport (report : DifferentialReport) : JournalTx Unit := do
  S.verifyPayload W (.differential report)
  S.verifyMembers W report

/-- `verify_report` -/
def verifyReport : Report → JournalTx Unit
  | .contract report => S.verifyContractReport W report
  | .differential report => S.verifyDifferentialReport W report
  | .repetitions report => do
    S.verifyPayload W (.repetitions report)
    runEach (S.verifyDifferentialReport W) report.pairs

/-- `_outcome` -/
def outcome (pair : DifferentialReport) : Option String :=
  identity S.journal.digestBytes (.object
    [("valid", .bool pair.valid),
     ("blockers", listing .string pair.blockers),
     ("traces", .array
       [listing CheckTrace.dump pair.oldReport.traces,
        listing CheckTrace.dump pair.newReport.traces,
        listing CheckTrace.dump pair.traces])] : Plain)

/-- The part of `evaluate_repetitions` that verifies the pairs. -/
def verifyGroup (pairs : List DifferentialReport) : JournalTx Unit := do
  runEach (S.verifyDifferentialReport W) pairs
  check (raiseIf ((pairs.map fun pair => pair.old.repetition).insertionSort (· ≤ ·) ≠
    List.range S.bound.profile.repetitions) .rejected)

/-- The blockers of `evaluate_repetitions`. -/
def groupBlockers (pairs : List DifferentialReport) : Except RecordError Unit → List String
  | .error _ => ["INVALID_REPEAT_GROUP"]
  | .ok _ => (if pairs.all DifferentialReport.valid then [] else ["REPETITION_FAILED"]) ++
      match pairs.mapM fun pair => orRaise (S.outcome pair) RecordError.rejected with
      | .error _ => ["INVALID_REPEAT_GROUP"]
      | .ok fingerprints =>
        if fingerprints.dedup.length ≠ 1 then ["UNSTABLE_TWIN_RUN"] else []

/-- `evaluate_repetitions` -/
def evaluateRepetitions (pairs : List DifferentialReport) : JournalTx RepetitionReport := do
  let verified ← attempt anyError (S.verifyGroup W pairs)
  let blockers := S.groupBlockers pairs verified
  let report : RepetitionReport := ⟨blockers.isEmpty, blockers, pairs, none⟩
  let reference ← S.persist W (.repetitions report)
  let (valid, blockers, record) := persisted report.valid report.blockers reference
  pure ⟨valid, blockers, pairs, record⟩

/-! ## Section 8: The recorder -/

/-- `HostRunRecorder.record_run` -/
def recordRun (evidence : RunEvidence) : JournalTx AgentRun := do
  let scope ← check (orRaise S.scope .rejected)
  let subject ← check (orRaise (S.subject evidence.role.stage evidence.repetition) .rejected)
  let payload ← check (orRaise evidence.payloadBytes .rejected)
  let record ← S.journal.appendRecord W "run" scope subject payload
  pure ⟨evidence.role, evidence.repetition, record, none⟩

/-- `HostRunRecorder.record_pair` -/
def recordPair (old new : AgentRun) (evidence : PairEvidence) :
    JournalTx (AgentRun × AgentRun) := do
  let scope ← check (orRaise S.scope .rejected)
  let subject ← check (orRaise (S.subject .pair evidence.repetition) .rejected)
  let payload ← check (orRaise evidence.payloadBytes .rejected)
  let reference ← S.journal.appendRecord W "pair" scope subject payload
  pure ({ old with pairRecord := some reference }, { new with pairRecord := some reference })

end BehaviorService

end ContractCapsule.Twin
