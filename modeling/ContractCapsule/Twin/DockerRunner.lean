import ContractCapsule.Twin.Bookkeeping

/-!
# The Docker Runner

`swap/docker_runner.py`: one stage is prepared, executed, captured and cleaned up after, and it ends
with a `StageResult` or a `StageError` that names what was not cleaned up.

`runStage_keeps_iff` says when no resource of a stage is lost, and `execute_accepted_iff` when a
capture that the runner finds no fault with is accepted by the evaluator.
-/

namespace ContractCapsule.Twin

open Library Models

/-! ## Section 1: Execution -/

/-- `StageResult` -/
structure StageResult where
  process : ProcessCapture
  tree : Option FrozenTree
  snapshotNs : Option ℕ
  blockers : List String
  retainedContainers : List String
  retainedVolumes : List String

/-- The local variables of `_execute` after its `try` statement. -/
structure Watched where
  out : Output
  stopped : Bool
  exitCode : Option ℤ
  blockers : List String

namespace DockerHost

variable {ν : Type} (host : DockerHost ν)

/-- `time.monotonic_ns()` -/
def clock : Tx Stage PyError ℕ := select fun s => host.monotonicNs s.events

/-- A subject that is still running is killed, and the reason is a blocker. -/
def halt (container : String) (out : Output) : Tx Stage PyError (List String) :=
  if out.timedOut = true ∨ out.limited = true then do
    let _ ← host.control (.kill container)
    pure [if out.timedOut = true then "timeout" else "output limit"]
  else pure []

/-- The blocker of the `except` clause of `_execute`. -/
def uncertain : String := "container control or termination uncertain"

/-- What `_execute` takes from the state of the container. -/
def settled (out : Output) (blockers : List String) (state : ContainerState) : Watched :=
  if state.running = false ∧ state.status = textOf "exited" then
    ⟨out, true, some state.exitCode, blockers ++
      (if state.oomKilled = true ∨ state.error ≠ [] then
        ["container resource or runtime failure"] else [])⟩
  -- "subject termination uncertain" is raised before the exit code is read
  else ⟨out, false, none, blockers ++ [uncertain]⟩

/-- The `try` statement of `_execute`, with the variables assigned before an error. -/
def watch (container : String) : Tx Stage PyError Watched := do
  let started ← attempt PyError.isOsOrValue (do
    let answer ← host.ask (.run container)
    check answer)
  match started with
  | .error _ => pure ⟨⟨[], [], none, false, false⟩, false, none, [uncertain]⟩
  | .ok out => do
    let halted ← attempt PyError.isOsOrValue (host.halt container out)
    match halted with
    | .error _ => pure ⟨out, false, none, [uncertain]⟩
    | .ok blockers => do
      let state ← attempt PyError.isOsOrValue (host.state container)
      match state with
      | .error _ => pure ⟨out, false, none, blockers ++ [uncertain]⟩
      | .ok state => pure (settled out blockers state)

/-- `_snapshot`, with the blockers -/
def snapshot (process : ProcessCapture) (blockers : List String) :
    Tx Stage PyError (Option FrozenTree × Option ℕ × List String) :=
  if process.terminated = false then pure (none, none, blockers)
  else
    handling PyError.isOsOrValue
      (do
        host.checkQuota process.stderr
        let keeper ← select Stage.keeper
        let raw ← host.control (.copy keeper)
        let tree ← check (host.readTar raw)
        let snapshotNs ← host.clock
        pure (some tree, some snapshotNs, blockers))
      fun _ => pure (none, none, blockers ++ ["workspace quota or capture failure"])

/-- `_execute` -/
def execute (subject container : String) : Tx Stage PyError StageResult := do
  let started ← host.clock
  let watched ← host.watch container
  let finished ← host.clock
  let process : ProcessCapture := {
    subject       := subject
    containerId   := container
    startedNs     := started
    finishedNs    := finished
    exitCode      := watched.exitCode
    terminated    := watched.stopped
    timedOut      := watched.out.timedOut
    outputLimited := watched.out.limited
    stdout        := watched.out.stdout
    stderr        := watched.out.stderr }
  let (tree, snapshotNs, blockers) ← host.snapshot process watched.blockers
  pure ⟨process, tree, snapshotNs, blockers, [], []⟩

/-! ## Section 2: Stages -/

/-- `prepare_stage` in a fresh directory -/
def stagePrepared (invocation : Invocation) (artifacts : List Artifact)
    (inputs : List (String × StageInput)) (workspace : Option FrozenTree) :
    Except PyError String :=
  match prepareStage host.files host.digestBytes invocation artifacts inputs workspace
    host.config.toRunnerConfig [] with
  | .ok entry _ => .ok entry
  | .error e _ => .error e

/-- The `try` block of `run_stage` -/
def stageBody (subject : String) (invocation : Invocation) (artifacts : List Artifact)
    (inputs : List (String × StageInput)) (workspace : Option FrozenTree) :
    Tx Stage PyError StageResult := do
  let entry ← check (host.stagePrepared invocation artifacts inputs workspace)
  host.preflight
  let container ← host.prepare entry invocation.argv
  host.execute subject container

end DockerHost

/-- How `run_stage` ends. -/
inductive Outcome where
  | result (result : StageResult)
  /-- `StageError`, with the error it was raised from -/
  | stageError (failure : PyError) (retainedContainers retainedVolumes : List String)
  /-- an exception that is no `StageError` -/
  | raised (e : PyError)

/-- The resources that the outcome names, when it is one that names them. -/
def Outcome.retained : Outcome → Option (Resource → List String)
  | .result r => some fun
    | .container => r.retainedContainers
    | .volume => r.retainedVolumes
  | .stageError _ containers volumes => some fun
    | .container => containers
    | .volume => volumes
  | .raised _ => none

namespace DockerHost

variable {ν : Type} (host : DockerHost ν)

/-- The `try` statement of `run_stage`; what it caught is the `failure`. -/
def stage (subject : String) (invocation : Invocation) (artifacts : List Artifact)
    (inputs : List (String × StageInput)) (workspace : Option FrozenTree) :
    Tx Stage PyError (Except PyError StageResult × List String) :=
  ensuring
    (attempt PyError.isOsOrValue (host.stageBody subject invocation artifacts inputs workspace))
    host.cleanup

/-- What `run_stage` makes of the end of its `try` statement -/
def concluded (s : Stage) : Except PyError StageResult × List String → Outcome
  | (.error failure, _) => .stageError failure s.containers s.volumes
  | (.ok result, cleanup) =>
    if cleanup = [] then .result result
    else .result { result with
      tree := none
      snapshotNs := none
      blockers := result.blockers ++ cleanup
      retainedContainers := s.containers
      retainedVolumes := s.volumes }

/-- `run_stage`, and the state of the stage behind it -/
def runStage (subject : String) (invocation : Invocation) (artifacts : List Artifact)
    (inputs : List (String × StageInput)) (workspace : Option FrozenTree) : Outcome × Stage :=
  if isDigest subject = false then (.raised (.runnerError "invalid stage identity"), Stage.fresh)
  else
    match host.stage subject invocation artifacts inputs workspace Stage.fresh with
    | .ok ended s => (concluded s ended, s)
    | .error e s => (.raised e, s)

/-! ## Section 3: Bookkeeping -/

section Bookkeeping

variable {host}

theorem kept_clock : host.Kept host.clock := Confinement.confined_select _

theorem kept_watch (container : String) : host.Kept (host.watch container) := by
  unfold watch
  apply Confinement.confined_bind
  · apply Confinement.confined_attempt (C := host.confinement)
    -- running a container creates none and removes none
    have hneutral : Neutral host (.run container) := by
      intro answer resource
      cases resource <;> exact ⟨rfl, rfl⟩
    have hkept : host.Kept (deciding host (.run container) id) :=
      kept_deciding hneutral fun _ => rfl
    exact hkept
  -- each command may raise, and then nothing more is asked
  intro started
  cases started with
  | error e => exact Confinement.confined_pure _
  | ok out =>
    apply Confinement.confined_bind
    · apply Confinement.confined_attempt (C := host.confinement)
      apply Confinement.confined_ite
      · apply Confinement.confined_bind
        · apply kept_control
          · intro answer resource
            cases resource <;> exact ⟨rfl, rfl⟩
          · intro answer
            rfl
        · intro _
          exact Confinement.confined_pure _
      · exact Confinement.confined_pure _
    intro halted
    cases halted with
    | error e => exact Confinement.confined_pure _
    | ok blockers =>
      apply Confinement.confined_bind
      · exact Confinement.confined_attempt (kept_state container)
      intro state
      cases state with
      | error e => exact Confinement.confined_pure _
      | ok state => exact Confinement.confined_pure _

theorem kept_snapshot (process : ProcessCapture) (blockers : List String) :
    host.Kept (host.snapshot process blockers) := by
  apply Confinement.confined_ite (Confinement.confined_pure _)
  apply Confinement.confined_handling
  · apply Confinement.confined_bind (kept_checkQuota _)
    intro _
    apply Confinement.confined_bind (Confinement.confined_select _)
    intro keeper
    rw [← bind_assoc]
    apply Confinement.confined_bind (kept_copy keeper)
    intro tree
    apply Confinement.confined_bind kept_clock
    intro snapshotNs
    exact Confinement.confined_pure _
  · intro e
    exact Confinement.confined_pure _

theorem kept_execute (subject container : String) : host.Kept (host.execute subject container) := by
  apply Confinement.confined_bind kept_clock
  intro started
  apply Confinement.confined_bind (kept_watch container)
  intro watched
  apply Confinement.confined_bind kept_clock
  intro finished
  apply Confinement.confined_bind (kept_snapshot _ _)
  intro captured
  exact Confinement.confined_pure _

variable {subject : String} {invocation : Invocation} {artifacts : List Artifact}
  {inputs : List (String × StageInput)} {workspace : Option FrozenTree}

theorem kept_stageBody :
    host.Kept (host.stageBody subject invocation artifacts inputs workspace) := by
  apply Confinement.confined_bind
  · apply Confinement.confined_check
    intro e he
    have hraises := prepareStage_raises host.files host.digestBytes invocation artifacts inputs
      workspace host.config.toRunnerConfig
    unfold stagePrepared at he
    cases hprepared : prepareStage host.files host.digestBytes invocation artifacts inputs
        workspace host.config.toRunnerConfig [] with
    | ok entry mounted => simp [hprepared] at he
    | error e' mounted =>
      simp only [hprepared, Except.error.injEq] at he
      subst he
      exact hraises [] e' ⟨mounted, hprepared⟩
  intro entry
  apply Confinement.confined_bind kept_preflight
  intro _
  apply Confinement.confined_bind (kept_prepare _ _)
  intro container
  exact kept_execute subject container

theorem kept_stage : host.Kept (host.stage subject invocation artifacts inputs workspace) :=
  Confinement.confined_ensuring (Confinement.confined_attempt kept_stageBody) kept_cleanup
    raisesUncaught_cleanup

theorem raisesUncaught_stage : RaisesUncaught PyError.isOsOrValue
    (host.stage subject invocation artifacts inputs workspace) :=
  raisesOnly_ensuring (raisesUncaught_attempt _) raisesUncaught_cleanup

/-- A stage retains nothing before it is cleaned up after. -/
theorem retained_of_stageBody {s s' : Stage} {result : StageResult}
    (h : Returns (host.stageBody subject invocation artifacts inputs workspace) s result s') :
    result.retainedContainers = [] ∧ result.retainedVolumes = [] := by
  obtain ⟨_, _, _, h⟩ := (returns_bind _ _ _ _ _).mp h
  obtain ⟨_, _, _, h⟩ := (returns_bind _ _ _ _ _).mp h
  obtain ⟨_, _, _, h⟩ := (returns_bind _ _ _ _ _).mp h
  obtain ⟨_, _, _, h⟩ := (returns_bind _ _ _ _ _).mp h
  obtain ⟨_, _, _, h⟩ := (returns_bind _ _ _ _ _).mp h
  obtain ⟨_, _, _, h⟩ := (returns_bind _ _ _ _ _).mp h
  obtain ⟨captured, _, _, h⟩ := (returns_bind _ _ _ _ _).mp h
  obtain ⟨rfl, _⟩ := (returns_pure _ _ _ _).mp h
  exact ⟨rfl, rfl⟩

/-- However the `try` statement returns, the outcome names what is still owned. -/
theorem retained_concluded {s s' : Stage} {ended : Except PyError StageResult × List String}
    (h : Returns (host.stage subject invocation artifacts inputs workspace) s ended s') :
    (concluded s' ended).retained = some s'.owned := by
  obtain ⟨s₁, hbody, hcleanup⟩ := returns_of_ensuring h
  have hall : s'.owned = fun | .container => s'.containers | .volume => s'.volumes := by
    funext resource
    cases resource <;> rfl
  obtain ⟨body, cleanup⟩ := ended
  cases body with
  | error failure =>
    rw [hall]
    rfl
  | ok result =>
    by_cases hclean : cleanup = []
    · -- a cleanup without errors has struck everything, and the result names nothing
      subst hclean
      obtain ⟨hcontainers, hvolumes⟩ := retained_of_stageBody (returns_of_attempt hbody)
      have hconcluded : concluded s' (.ok result, []) = .result result := by
        simp [concluded]
      rw [hconcluded, Outcome.retained, hcontainers, hvolumes]
      congr 1
      funext resource
      rw [owned_of_cleanup hcleanup resource]
      cases resource <;> rfl
    · rw [concluded, if_neg hclean, hall]
      rfl

end Bookkeeping

/-! ## Section 4: No resource is lost -/

/-- The run ends with a `StageResult` or a `StageError`, and what its events attempted to create is
what they confirmed to be removed together with what the outcome names. -/
def NothingLost (run : Outcome × Stage) : Prop :=
  ∃ retained, run.1.retained = some retained ∧
    ∀ resource, host.attempted run.2.events resource =
      host.confirmedRemoved run.2.events resource + ↑(retained resource)

theorem balanced_fresh : host.Balanced Stage.fresh := by
  intro resource
  cases resource <;> rfl

/-- **When no resource of a stage is lost.** Whatever the subprocesses of a stage do, its resources
are accounted for exactly when its subject is a digest and none of its events escapes. -/
theorem runStage_keeps_iff (subject : String) (invocation : Invocation)
    (artifacts : List Artifact) (inputs : List (String × StageInput))
    (workspace : Option FrozenTree) :
    host.NothingLost (host.runStage subject invocation artifacts inputs workspace) ↔
      isDigest subject = true ∧
        ∀ event ∈ (host.runStage subject invocation artifacts inputs workspace).2.events,
          host.escapes event = false := by
  cases hsubject : isDigest subject with
  | false =>
    -- the subject is refused before anything is created
    have hrun : host.runStage subject invocation artifacts inputs workspace =
        (.raised (.runnerError "invalid stage identity"), Stage.fresh) := if_pos hsubject
    rw [hrun]
    constructor
    · rintro ⟨_, hretained, _⟩
      cases hretained
    · rintro ⟨hdigest, _⟩
      exact absurd hdigest Bool.false_ne_true
  | true =>
    let program := host.stage subject invocation artifacts inputs workspace
    have hkept : host.Kept program := kept_stage
    have hends : (∃ ended, Returns program Stage.fresh ended (leftBehind program Stage.fresh)) ↔
        ∀ event ∈ (leftBehind program Stage.fresh).events, host.escapes event = false :=
      hkept.run raisesUncaught_stage host.balanced_fresh rfl
    have hbalanced : host.Balanced (leftBehind program Stage.fresh) :=
      hkept.inv_leftBehind host.balanced_fresh
    have hrun : host.runStage subject invocation artifacts inputs workspace =
        match program Stage.fresh with
        | .ok ended s => (concluded s ended, s)
        | .error e s => (.raised e, s) := if_neg (by simp [hsubject])
    cases hresult : program Stage.fresh with
    | error e s =>
      rw [hresult] at hrun
      rw [Confinement.leftBehind_of_error hresult] at hends
      rw [hrun]
      constructor
      · rintro ⟨_, hretained, _⟩
        cases hretained
      · rintro ⟨_, hquiet⟩
        obtain ⟨ended, hreturn⟩ := hends.mpr hquiet
        rw [Returns, hresult] at hreturn
        cases hreturn
    | ok ended s =>
      rw [hresult] at hrun
      have hreturn : Returns program Stage.fresh ended s := hresult
      rw [Confinement.leftBehind_of_returns hreturn] at hends hbalanced
      rw [hrun]
      constructor
      · intro _
        exact ⟨rfl, hends.mp ⟨ended, hreturn⟩⟩
      · intro _
        exact ⟨s.owned, retained_concluded hreturn, hbalanced⟩

/-! ## Section 5: The time of a stage -/

/-- The events between the two readings of the clock, when the subject ended in time. -/
def watchedEvents (container : String) (events : List Event) : List Event :=
  let started : Event := ⟨.run container, host.bounded events (.run container)⟩
  [started, ⟨.inspect container, host.bounded (events ++ [started]) (.inspect container)⟩]

/-- The time between the two readings of the clock around a subject that ended in time: from before
its start to after its inspection. -/
def bracketNs (container : String) (events : List Event) : ℕ :=
  host.monotonicNs (events ++ host.watchedEvents container events) - host.monotonicNs events

section Acceptance

variable {host} {container : String} {s s' : Stage}

theorem returns_deciding {α : Type} {command : Command}
    {decision : Except PyError Output → Except PyError α} {a : α} :
    Returns (deciding host command decision) s a s' ↔
      decision (host.bounded s.events command) = .ok a ∧ answered host command s = s' := by
  rw [Returns, deciding_eq]
  exact returns_check _ _ _ _

/-- What is returned by the inspection of a container was read after that one event. -/
theorem events_of_state {state : ContainerState} (h : Returns (host.state container) s state s') :
    s' = answered host (.inspect container) s := by
  unfold DockerHost.state at h
  rw [control_eq, bind_check, handling_deciding] at h
  exact (returns_deciding.mp h).2.symm

/-- A subject that is watched without a blocker was started and inspected, and ended by itself
within its limits. -/
theorem watch_spec {watched : Watched} (h : Returns (host.watch container) s watched s')
    (hblockers : watched.blockers = []) :
    ∃ out, host.bounded s.events (.run container) = .ok out ∧ watched.out = out ∧
      out.timedOut = false ∧ out.limited = false ∧ watched.stopped = true ∧
      s'.events = s.events ++ host.watchedEvents container s.events := by
  obtain ⟨started, s₁, hstarted, h⟩ := (returns_bind _ _ _ _ _).mp h
  cases started with
  | error e =>
    obtain ⟨rfl, _⟩ := (returns_pure _ _ _ _).mp h
    cases hblockers
  | ok out =>
    have hrun : Returns (deciding host (.run container) id) s out s₁ :=
      returns_of_attempt hstarted
    obtain ⟨hout, hs₁⟩ := returns_deciding.mp hrun
    rw [id] at hout
    obtain ⟨halted, s₂, hhalted, h⟩ := (returns_bind _ _ _ _ _).mp h
    cases halted with
    | error e =>
      obtain ⟨rfl, _⟩ := (returns_pure _ _ _ _).mp h
      cases hblockers
    | ok stops =>
      obtain ⟨state, s₃, hstate, h⟩ := (returns_bind _ _ _ _ _).mp h
      cases state with
      | error e =>
        obtain ⟨rfl, _⟩ := (returns_pure _ _ _ _).mp h
        exact absurd (List.append_eq_nil_iff.mp hblockers).2 (List.cons_ne_nil _ _)
      | ok state =>
        obtain ⟨rfl, rfl⟩ := (returns_pure _ _ _ _).mp h
        -- only a stopped subject is settled without a blocker
        have hsettled : stops = [] ∧ (settled out stops state).stopped = true ∧
            (settled out stops state).out = out := by
          unfold settled at hblockers ⊢
          split
          · next hstopped =>
            rw [if_pos hstopped] at hblockers
            exact ⟨(List.append_eq_nil_iff.mp hblockers).1, rfl, rfl⟩
          · next hrunning =>
            rw [if_neg hrunning] at hblockers
            exact absurd (List.append_eq_nil_iff.mp hblockers).2 (List.cons_ne_nil _ _)
        obtain ⟨rfl, hstopped, hsame⟩ := hsettled
        -- nothing was killed, since that is a blocker
        have hquiet : ¬ (out.timedOut = true ∨ out.limited = true) ∧ s₁ = s₂ := by
          have hhalt := returns_of_attempt hhalted
          unfold halt at hhalt
          split at hhalt
          · obtain ⟨_, _, _, hpure⟩ := (returns_bind _ _ _ _ _).mp hhalt
            obtain ⟨hlabel, _⟩ := (returns_pure _ _ _ _).mp hpure
            cases hlabel
          · next hnone => exact ⟨hnone, ((returns_pure _ _ _ _).mp hhalt).2⟩
        obtain ⟨hnone, rfl⟩ := hquiet
        rw [not_or, Bool.not_eq_true, Bool.not_eq_true] at hnone
        refine ⟨out, hout, hsame, hnone.1, hnone.2, hstopped, ?_⟩
        rw [events_of_state (returns_of_attempt hstate), ← hs₁]
        simp [answered, watchedEvents]

/-- A capture of the workspace only adds blockers. -/
theorem snapshot_blockers {process : ProcessCapture} {blockers : List String}
    {captured : Option FrozenTree × Option ℕ × List String}
    (h : Returns (host.snapshot process blockers) s captured s') (hnone : captured.2.2 = []) :
    blockers = [] := by
  unfold snapshot at h
  split at h
  · obtain ⟨rfl, _⟩ := (returns_pure _ _ _ _).mp h
    exact hnone
  · rcases returns_handling.mp h with hdone | ⟨_, _, _, _, hhandler⟩
    · obtain ⟨_, _, _, hdone⟩ := (returns_bind _ _ _ _ _).mp hdone
      obtain ⟨_, _, _, hdone⟩ := (returns_bind _ _ _ _ _).mp hdone
      obtain ⟨_, _, _, hdone⟩ := (returns_bind _ _ _ _ _).mp hdone
      obtain ⟨_, _, _, hdone⟩ := (returns_bind _ _ _ _ _).mp hdone
      obtain ⟨_, _, _, hdone⟩ := (returns_bind _ _ _ _ _).mp hdone
      obtain ⟨rfl, _⟩ := (returns_pure _ _ _ _).mp hdone
      exact hnone
    · obtain ⟨rfl, _⟩ := (returns_pure _ _ _ _).mp hhandler
      exact (List.append_eq_nil_iff.mp hnone).1

/-- What `bounded` returns is within the limits of its command. -/
theorem bounded_within {events : List Event} {command : Command} {out : Output}
    (h : host.bounded events command = .ok out) :
    out.stdout.length ≤ (command.limits host.config).outLimit ∧
      out.stderr.length ≤ (command.limits host.config).errLimit := by
  obtain ⟨run, _, hcollect⟩ := (Except.bind_eq_ok _ _ _).mp h
  exact collect_within hcollect

/-- **When the evaluator accepts what the runner found no fault with.** A capture without blockers,
with an exit code that counts as success, is accepted exactly when the time from before the start of
the subject to after its inspection is within the timeout of the subject. -/
theorem execute_accepted_iff {subject : String} {result : StageResult} {probe : Bool}
    (h : Returns (host.execute subject container) s result s') (hblockers : result.blockers = [])
    (hexit : exitValid result.process probe = true) :
    process host.config.toRunnerConfig result.process subject probe = .ok () ↔
      host.bracketNs container s.events ≤ host.config.timeoutSeconds * 1000000000 := by
  obtain ⟨started, s₁, hstarted, h⟩ := (returns_bind _ _ _ _ _).mp h
  obtain ⟨rfl, rfl⟩ := (returns_select _ _ _ _).mp hstarted
  obtain ⟨watched, s₂, hwatched, h⟩ := (returns_bind _ _ _ _ _).mp h
  obtain ⟨finished, s₃, hfinished, h⟩ := (returns_bind _ _ _ _ _).mp h
  obtain ⟨rfl, rfl⟩ := (returns_select _ _ _ _).mp hfinished
  obtain ⟨captured, s₄, hcaptured, h⟩ := (returns_bind _ _ _ _ _).mp h
  obtain ⟨rfl, _⟩ := (returns_pure _ _ _ _).mp h
  have hnone := snapshot_blockers hcaptured hblockers
  obtain ⟨out, hout, hsame, htimed, hlimited, hstopped, hevents⟩ := watch_spec hwatched hnone
  have hwithin := bounded_within hout
  have hordered : host.monotonicNs s.events ≤ host.monotonicNs s₂.events := by
    rw [hevents]
    unfold watchedEvents
    rw [← List.singleton_append, ← List.append_assoc]
    exact le_trans (host.monotone _ _) (host.monotone _ _)
  rw [process_eq_ok, bracketNs, ← hevents]
  -- all the other checks of the evaluator are decided by the flags of the runner
  constructor
  · intro haccepted
    exact haccepted.2.2.2.2.2.2.1
  · intro htime
    refine ⟨rfl, hexit, hstopped, ?_, ?_, hordered, htime, ?_, ?_⟩
    · rw [hsame]
      exact htimed
    · rw [hsame]
      exact hlimited
    · rw [hsame]
      exact hwithin.1
    · rw [hsame]
      exact hwithin.2

end Acceptance

end DockerHost

/-! ## Section 6: Two hosts -/

/-- Any digest. -/
def someDigest : String := sampleDigest []

/-- A process that prints some bytes and ends with exit code 0. -/
def printing (bytes : Bytes) : ProcessRun where
  rounds := [⟨false, [(.stdout, .ok bytes), (.stderr, .ok [])]⟩, ⟨false, [(.stdout, .ok [])]⟩]
  waited := some 0
  waitedAfterKill := none

/-- A process that ends neither in time nor after it was killed. -/
def hanging : ProcessRun := ⟨[], none, none⟩

/-- The inspection of a container `k1` that ended with exit code 0. -/
def endedState : Bytes := DockerHost.ascii <|
  "[\x7b\"Id\":\"k1\",\"State\":\x7b\"Running\":false,\"Status\":\"exited\"," ++
  "\"ExitCode\":0,\"OOMKilled\":false,\"Error\":\"\"\x7d\x7d]"

/-- The inspection of the image. -/
def imageState : Bytes := DockerHost.ascii <|
  "[\x7b\"Id\":\"sha256:1\",\"Os\":\"linux\",\"Architecture\":\"amd64\"\x7d]"

/-- A host whose clock shows these nanoseconds after so many commands. -/
def sampleHost (popen : List String → ProcessRun) (clock : ℕ → ℕ)
    (hclock : ∀ n, clock n ≤ clock (n + 1)) : DockerHost ℤ where
  config := {
    timeoutSeconds       := 5
    stdoutLimitBytes     := 4096
    stderrLimitBytes     := 4096
    outputTreeLimitBytes := 4096
    outputTreeFileLimit  := 10
    imageDigest          := "sha256:1"
    platform             := "linux/amd64"
    cpuLimit             := "1"
    memoryBytes          := 1048576
    processLimit         := 8 }
  root := "/tmp/stage"
  files := fun _ _ => .ok ()
  digestBytes := sampleDigest
  depth := 100
  number := fun lexeme =>
    if lexeme = textOf "0" then .ok 0 else if lexeme = textOf "1" then .ok 1 else .error .valueError
  numbers := ⟨some, fun a b => decide (a < b), fun n => decide (n ≤ 0), fun b => if b then 1 else 0⟩
  readTar := fun _ => .ok emptyTree
  uuid := fun n => "name" ++ toString n
  popen := fun _ argv _ => .ok (popen argv)
  monotonicNs := fun events => clock events.length
  monotone := by
    intro events event
    rw [List.length_append]
    exact hclock events.length

/-- Docker commands that succeed. -/
def goodCommands (argv : List String) : ProcessRun :=
  match argv with
  | _ :: verb :: _ =>
    printing (if verb = "inspect" then endedState
      else if verb = "exec" then DockerHost.ascii "[1,1]" else [])
  | _ => hanging

/-- The subject runs for 4.9 seconds of its 5, and its inspection takes one of its 15. -/
def slowClock : ℕ → ℕ
  | 0 => 0
  | 1 => 4900000000
  | _ => 5900000000

/-- A host with a slow inspection. -/
def slowHost : DockerHost ℤ :=
  sampleHost goodCommands slowClock fun n => by
    rcases n with _ | _ | n
    · exact Nat.zero_le _
    · show 4900000000 ≤ 5900000000
      omega
    · exact le_refl _

/-- A host whose clock stands still. -/
def quickHost : DockerHost ℤ := sampleHost goodCommands (fun _ => 0) fun _ => le_refl _

/-- A stage of the sample that the runner finds no fault with, and what the evaluator says. -/
def faultless (host : DockerHost ℤ) (verdict : Except TreeError Unit) : Bool :=
  match host.execute someDigest "k1" Stage.fresh with
  | .ok result _ => decide (result.blockers = []) && exitValid result.process false &&
      decide (process host.config.toRunnerConfig result.process someDigest false = verdict)
  | .error _ _ => false

theorem execute_accepted_iff_quick :
    ∃ result s, Returns (quickHost.execute someDigest "k1") Stage.fresh result s ∧
      process quickHost.config.toRunnerConfig result.process someDigest false = .ok () := by
  have hfaultless : faultless quickHost (.ok ()) = true := by decide +kernel
  unfold faultless at hfaultless
  cases hrun : quickHost.execute someDigest "k1" Stage.fresh with
  | error e s =>
    rw [hrun] at hfaultless
    cases hfaultless
  | ok result s =>
    rw [hrun] at hfaultless
    simp only [Bool.and_eq_true, decide_eq_true_eq] at hfaultless
    have hiff := DockerHost.execute_accepted_iff (s := Stage.fresh) hrun hfaultless.1.1
      hfaultless.1.2
    exact ⟨result, s, hrun, hiff.mpr (Nat.zero_le _)⟩

/-- The subject ended in time, but the inspection is counted too: the runner finds no fault, and the
evaluator rejects the capture. -/
theorem slow_inspection_rejected :
    ∃ result s, Returns (slowHost.execute someDigest "k1") Stage.fresh result s ∧
      result.blockers = [] ∧ exitValid result.process false = true ∧
      process slowHost.config.toRunnerConfig result.process someDigest false = .error .record ∧
      slowClock 1 - slowClock 0 < slowHost.config.timeoutSeconds * 1000000000 ∧
      slowClock 2 - slowClock 1 < 15 * 1000000000 := by
  have hfaultless : faultless slowHost (.error .record) = true := by decide +kernel
  unfold faultless at hfaultless
  cases hrun : slowHost.execute someDigest "k1" Stage.fresh with
  | error e s =>
    rw [hrun] at hfaultless
    cases hfaultless
  | ok result s =>
    rw [hrun] at hfaultless
    simp only [Bool.and_eq_true, decide_eq_true_eq] at hfaultless
    exact ⟨result, s, hrun, hfaultless.1.1, hfaultless.1.2, hfaultless.2, by decide, by decide⟩

/-- The image is there, and every other command hangs. -/
def hangingCommands (argv : List String) : ProcessRun :=
  match argv with
  | _ :: verb :: _ => if verb = "image" then printing imageState else hanging
  | _ => hanging

/-- A host on which every command but the first hangs. -/
def hangingHost : DockerHost ℤ := sampleHost hangingCommands (fun _ => 0) fun _ => le_refl _

/-- A stage of one program without inputs. -/
def sampleRun : Outcome × Stage :=
  hangingHost.runStage someDigest ⟨"t", ["t"], []⟩
    [⟨"t", "t.py", .behavioral, someDigest, []⟩] [] none

/-- `docker volume create` hangs and is not even ended by being killed: the runner raises the
`TimeoutExpired` of its second `wait`, and the volume is named nowhere. -/
theorem hanging_volume_lost :
    (match sampleRun.1 with | .raised .timeoutExpired => true | _ => false) = true ∧
      sampleRun.2.volumes = ["ccs-m5-name0"] ∧
      hangingHost.attempted sampleRun.2.events .volume = {"ccs-m5-name0"} ∧
      hangingHost.confirmedRemoved sampleRun.2.events .volume = 0 ∧
      ¬ hangingHost.NothingLost sampleRun := by
  have hrun : (match sampleRun.1 with | .raised .timeoutExpired => true | _ => false) = true ∧
      sampleRun.2.volumes = ["ccs-m5-name0"] ∧
      hangingHost.attempted sampleRun.2.events .volume = {"ccs-m5-name0"} ∧
      hangingHost.confirmedRemoved sampleRun.2.events .volume = 0 := by
    decide +kernel
  obtain ⟨hraised, hvolumes, hattempted, hremoved⟩ := hrun
  refine ⟨hraised, hvolumes, hattempted, hremoved, ?_⟩
  -- nothing is retained by a run that was raised, so the volume is in no list
  rintro ⟨retained, hretained, _⟩
  cases houtcome : sampleRun.1 with
  | result r =>
    rw [houtcome] at hraised
    cases hraised
  | stageError failure containers volumes =>
    rw [houtcome] at hraised
    cases hraised
  | raised e =>
    rw [houtcome] at hretained
    cases hretained

end ContractCapsule.Twin
