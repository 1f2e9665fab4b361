import ContractCapsule.Twin.Behavior
import ContractCapsule.Twin.DockerRunner

/-!
# Stages of a Pair

`swap/twin_stages.py`: what a `PairRunner` runs for one repetition, in which order, and what it has
recorded. The runner of the stages is a parameter here; `DockerHost.runStage` is the one that the
host composes it with.

An exception ends the block that it is raised in, and what was captured before it is kept and
recorded.
-/

namespace ContractCapsule.Twin

open Library Models

/-! ## Section 1: Stages -/

/-- What a `PairRunner` raises or passes on. -/
inductive TwinError where
  | runnerError (message : String)
  | recordError (e : RecordError)
  /-- any other exception -/
  | other
deriving DecidableEq, Repr

/-- `except Exception` -/
def anyException : TwinError → Bool := fun _ => true

/-- What a stage is for. -/
inductive StageKind where
  | executor
  | probe (probe : SubjectProbe)
  | check (check : CheckBinding)
deriving DecidableEq, Repr

/-- The identifier of a stage. -/
def StageKind.stageId : StageKind → String
  | .executor => "executor"
  | .probe p => p.probeId
  | .check c => c.checkId

/-- What `run_stage` is called with. What the stage is for is named by its subject. -/
structure StageCall where
  kind : StageKind
  role : StageRole
  repetition : ℕ
  subject : String
  invocation : Invocation
  inputs : List (String × StageInput)
  workspace : Option FrozenTree

/-- `StageRecord` -/
structure StageRecord where
  stageId : String
  role : StageRole
  repetition : ℕ
  process : Option ProcessCapture
  blockers : List String
  retainedContainers : List String
  retainedVolumes : List String
deriving DecidableEq, Repr

/-- The fields of a `PairRunner` that change, with the journal that its recorder and its service use
and with the outcomes of the stages so far. -/
structure PairState where
  journal : JournalState
  outcomes : List Outcome
  stages : List StageRecord
  blockers : List String
  uncertain : Bool

/-- A program of a `PairRunner`. -/
abbrev PairTx (α : Type) := Tx PairState TwinError α

/-- A call of the recorder or of the service. -/
def onJournal {α : Type} (p : JournalTx α) : PairTx α := fun s =>
  match p s.journal with
  | .ok a journal => .ok a { s with journal := journal }
  | .error e journal => .error (.recordError e) { s with journal := journal }

variable {F : Type} [FloatText F] {ν : Type}

/-- `PairRunner`. The evidence goes to the journal of its service. -/
structure PairRunner (F ν : Type) [FloatText F] where
  service : BehaviorService F ν
  world : JournalWorld
  source : FrozenTree
  /-- `canonical_json_bytes` of a view -/
  viewBytes : RunRole → Option Bytes
  /-- `run_stage`, after the outcomes so far -/
  runStage : List Outcome → StageCall → Outcome
  /-- whether `fresh` raises, after the outcomes so far -/
  stale : List Outcome → Bool

/-- A blocker of the `PairRunner`. -/
def block (blocker : String) : PairTx Unit :=
  write fun s => { s with blockers := s.blockers ++ [blocker] }

/-- What `stage` keeps of an outcome. -/
def PairState.after (s : PairState) (call : StageCall) (outcome : Outcome) : PairState :=
  let s' := { s with outcomes := s.outcomes ++ [outcome] }
  match outcome with
  | .result result => { s' with
      uncertain := s.uncertain || !result.process.terminated || !result.retainedContainers.isEmpty
      stages := s.stages ++ [⟨call.kind.stageId, call.role, call.repetition, some result.process,
        result.blockers, result.retainedContainers, result.retainedVolumes⟩]
      blockers := s.blockers ++ result.blockers }
  | .stageError _ containers volumes => { s' with
      uncertain := s.uncertain || !containers.isEmpty
      stages := s.stages ++ [⟨call.kind.stageId, call.role, call.repetition, none,
        ["STAGE_UNAVAILABLE"], containers, volumes⟩] }
  | .raised _ => s'

/-- The end of `stage`. -/
def stageResult : Outcome → Except TwinError StageResult
  | .result result => .ok result
  | .stageError _ _ _ => .error (.runnerError "STAGE_UNAVAILABLE")
  | .raised _ => .error .other

namespace PairRunner

variable (R : PairRunner F ν)

/-- `digest_value` of a snapshot -/
def digestOf (snapshot : Snapshot) : PairTx String :=
  check (orRaise (snapshot.digestValue R.service.journal.digestBytes) .other)

/-- `stage` -/
def stage (kind : StageKind) (role : StageRole) (repetition : ℕ) (invocation : Invocation)
    (digests : List String) (inputs : List (String × StageInput)) (workspace : Option FrozenTree)
    (probes : List ProcessCapture) : PairTx StageResult := do
  query fun s => raiseIf (R.stale s.outcomes = true) .other
  let subject ← check (orRaise (R.service.stage role repetition kind.stageId digests probes) .other)
  let call : StageCall := ⟨kind, role, repetition, subject, invocation, inputs, workspace⟩
  let outcome ← select fun s => R.runStage s.outcomes call
  write fun s => s.after call outcome
  check (stageResult outcome)

/-! ## Section 2: Checks -/

/-- The trees of a check. -/
abbrev Trees := List (InputState × FrozenTree)

/-- The probes of `check`. -/
def runProbes (role : StageRole) (index : ℕ) (trees : Trees) :
    List SubjectProbe → PairTx (List ProcessCapture)
  | [] => pure []
  | probe :: probes => do
    let tree ← check (orRaise (trees.lookup probe.inputState) .other)
    let digest ← R.digestOf tree.snapshot
    let result ← R.stage (.probe probe) role index probe.toInvocation [digest]
      [("current", .tree tree)] (some tree) []
    check (raiseIf (result.blockers ≠ [] ∨ result.process.terminated = false)
      (.runnerError "PROBE_FAILED"))
    let others ← runProbes role index trees probes
    pure (result.process :: others)

/-- The role of a view, where a stage has one. -/
def viewOf : StageRole → Option RunRole
  | .old => some .old
  | .new => some .new
  | .pair => none

/-- The inputs of `check`. -/
def checkInputs (role : StageRole) (trees : Trees) (probes : List ProcessCapture) :
    Option (List (String × StageInput)) := do
  let view ← match viewOf role with
    | none => some []
    | some side => (R.viewBytes side).map fun bytes => [("view", .bytes bytes)]
  let observations ← Storage.canonicalBytes (listing ProcessCapture.dump probes)
  pure ((trees.map fun tree => (tree.1.text, StageInput.tree tree.2)) ++ view ++
    [("observations", .bytes observations)])

/-- `check` -/
def check (role : StageRole) (index : ℕ) (binding : CheckBinding) (trees : Trees)
    (digests : List String) : PairTx CheckCapture := do
  let probes ← R.runProbes role index trees binding.subjectProbes
  let inputs ← Library.check (orRaise (R.checkInputs role trees probes) .other)
  let result ← R.stage (.check binding) role index binding.toInvocation digests inputs none probes
  pure ⟨binding.checkId, result.process, probes⟩

/-- The loop of `checks`: what it appends to the captures, and how it ends. -/
def runChecks (role : StageRole) (index : ℕ) (trees : Trees) (digests : List String) :
    List CheckBinding → PairTx (List CheckCapture × Except TwinError Unit)
  | [] => pure ([], .ok ())
  | binding :: bindings => do
    let captured ← attempt anyException (R.check role index binding trees digests)
    match captured with
    | .error e => pure ([], .error e)
    | .ok capture => do
      let (captures, ended) ← runChecks role index trees digests bindings
      pure (capture :: captures, ended)

/-- The checks of a phase. -/
def phaseChecks (phase : CheckPhase) : List CheckBinding :=
  R.service.bound.profile.checks.filter fun binding => binding.phase = phase

/-- `checks` -/
def checks (role : StageRole) (index : ℕ) (phase : CheckPhase) (trees : Trees)
    (digests : List String) : PairTx (List CheckCapture × Except TwinError Unit) :=
  R.runChecks role index trees digests (R.phaseChecks phase)

/-! ## Section 3: Roles -/

/-- `canonical_json_bytes` of the task -/
def taskBytes : Option Bytes := Storage.canonicalBytes (R.service.bound.request.task.dump : Value F)

/-- The stage of the executor. -/
def executor (role : RunRole) (index : ℕ) : PairTx StageResult := do
  let task ← Library.check (orRaise R.taskBytes .other)
  let view ← Library.check (orRaise (R.viewBytes role) .other)
  let initial ← R.digestOf R.service.context.initial
  R.stage .executor role.stage index R.service.bound.profile.executor [initial]
    [("task", .bytes task), ("view", .bytes view)] (some R.source) []

/-- The checks that follow an executor. -/
def postChecks (role : RunRole) (index : ℕ) (tree : FrozenTree) :
    PairTx (List CheckCapture × Except TwinError Unit) := do
  let initial ← R.digestOf R.service.context.initial
  let final ← R.digestOf tree.snapshot
  R.checks role.stage index .post [(.initial, R.source), (.current, tree)] [initial, final]

/-- What the `try` block of `role` has done: the result of the executor, the captures that it added,
and whether it was aborted. -/
def executed (role : RunRole) (index : ℕ) :
    PairTx (Option StageResult × List CheckCapture × Bool) := do
  let result ← attempt anyException (R.executor role index)
  match result with
  | .error _ => pure (none, [], true)
  | .ok result => do
    let uncertain ← select PairState.uncertain
    match result.tree, uncertain with
    | some tree, false => do
      let captured ← attempt anyException (R.postChecks role index tree)
      match captured with
      | .error _ => pure (some result, [], true)
      | .ok (captures, .error _) => pure (some result, captures, true)
      | .ok (captures, .ok _) => pure (some result, captures, false)
    | _, _ => pure (some result, [], false)

/-- The evidence of `role`. -/
def evidenceOf (role : RunRole) (index : ℕ) (result : Option StageResult)
    (checks : List CheckCapture) : RunEvidence where
  role := role
  repetition := index
  final := result.bind fun r => r.tree.map FrozenTree.snapshot
  snapshotNs := result.bind StageResult.snapshotNs
  executor := result.map StageResult.process
  checks := checks

/-- `role`, with the captures of the side after it -/
def role (role : RunRole) (index : ℕ) (before : List CheckCapture) (execute : Bool) :
    PairTx (AgentRun × Option FrozenTree × List CheckCapture) := do
  let (result, captures, aborted) ←
    if execute = true then R.executed role index else pure (none, [], false)
  if aborted = true then block "ROLE_ABORTED" else pure ()
  let checks := before ++ captures
  let run ← onJournal (R.service.recordRun R.world (evidenceOf role index result checks))
  pure (run, result.bind StageResult.tree, checks)

/-! ## Section 4: Pairs -/

/-- The loop over the sides in `pair`: the captures of either side, and how it ends. -/
def preChecks (index : ℕ) :
    PairTx (List CheckCapture × List CheckCapture × Except TwinError Unit) := do
  let initial ← attempt anyException (R.digestOf R.service.context.initial)
  match initial with
  | .error e => pure ([], [], .error e)
  | .ok initial => do
    let trees : Trees := [(.initial, R.source), (.current, R.source)]
    let (old, ended) ← R.checks .old index .pre trees [initial]
    match ended with
    | .error e => pure (old, [], .error e)
    | .ok _ => do
      let (new, ended) ← R.checks .new index .pre trees [initial]
      pure (old, new, ended)

/-- `observed(c) is True` -/
def holds (capture : CheckCapture) : Except LoadsError Bool :=
  (fun observation => decide (observation = some true)) <$>
    observed R.service.decoder capture

/-- Whether the executors are run, and the captures before. -/
def preconditions (index : ℕ) : PairTx (List CheckCapture × List CheckCapture × Bool) := do
  let (old, new, ended) ← R.preChecks index
  match ended, (old ++ new).allM R.holds with
  | .ok _, .ok all => do
    let blocked ← select fun s => !s.blockers.isEmpty
    pure (old, new, all && !blocked)
  | _, _ => do
    block "PRECONDITION_UNAVAILABLE"
    pure (old, new, false)

/-- The test of a group in `_post_complete`. -/
def groupComplete (group : List CheckCapture) : Except LoadsError Bool :=
  let required := (R.service.bound.profile.checks.filter fun binding =>
    binding.phase ≠ .pair).map CheckBinding.checkId
  if (group.map CheckCapture.checkId).toFinset = required.toFinset then
    group.allM fun capture => Option.isSome <$> observed R.service.decoder capture
  else pure false

/-- `_post_complete` -/
def postComplete (old new : List CheckCapture) : Except LoadsError Bool :=
  [old, new].allM R.groupComplete

/-- The checks of both sides together. -/
def pairChecks (index : ℕ) (old new : AgentRun) (oldTree newTree : FrozenTree) :
    PairTx (List CheckCapture) := do
  let initial ← R.digestOf R.service.context.initial
  let oldFinal ← R.digestOf oldTree.snapshot
  let newFinal ← R.digestOf newTree.snapshot
  let digestBytes := R.service.journal.digestBytes
  let oldRecord ← Library.check (orRaise (identity digestBytes old.record.dump) .other)
  let newRecord ← Library.check (orRaise (identity digestBytes new.record.dump) .other)
  let (captures, ended) ← R.checks .pair index .pair
    [(.initial, R.source), (.oldFinal, oldTree), (.newFinal, newTree)]
    [initial, oldFinal, newFinal, oldRecord, newRecord]
  match ended with
  | .error _ => do
    block "PAIR_ABORTED"
    pure captures
  | .ok _ => pure captures

/-- The part of `pair` between the evidence of the sides and that of the pair. -/
def paired (index : ℕ) (old new : AgentRun × Option FrozenTree × List CheckCapture) :
    PairTx (List CheckCapture) :=
  match old.2.1, new.2.1 with
  | some oldTree, some newTree => do
    let complete ← Library.check ((R.postComplete old.2.2 new.2.2).mapError fun _ => .other)
    let uncertain ← select PairState.uncertain
    if complete = true ∧ uncertain = false then R.pairChecks index old.1 new.1 oldTree newTree
    else pure []
  | _, _ => pure []

/-- `pair` -/
def pair (index : ℕ) : PairTx DifferentialReport := do
  let (oldChecks, newChecks, execute) ← R.preconditions index
  if execute = false then block "PRECONDITION_FAILED" else pure ()
  let old ← R.role .old index oldChecks execute
  let uncertain ← select PairState.uncertain
  let new ← R.role .new index newChecks (execute && !uncertain)
  let captures ← R.paired index old new
  let evidence : PairEvidence := ⟨index, old.1.record, new.1.record, captures⟩
  let (oldRun, newRun) ← onJournal (R.service.recordPair R.world old.1 new.1 evidence)
  onJournal (R.service.compareRuns R.world oldRun newRun R.service.bound.request.contract)

end PairRunner

end ContractCapsule.Twin
