import ContractCapsule.Twin.Honest
import ContractCapsule.Twin.Reading

/-!
# Honest Runs

What a `PairRunner` records when every stage ends as it should. The runner and the evaluator name
the stages, their inputs and their probes independently, and the evaluator compares times and
containers that the runner does not look at.

`Runs` is a program that returns from every clean state; its rules follow the program. What the
stages, the checks and the sides of a pair leave is what `Honest` evidence is said to be.
-/

namespace ContractCapsule.Twin

open Library Models

variable {F : Type} [FloatText F] {ν : Type}

namespace PairRunner

variable (R : PairRunner F ν)

/-! ## Section 1: Hosts -/

/-- A stage that the profile asks for. -/
def Asked : StageKind → Prop
  | .executor => True
  | .probe probe => ∃ check ∈ R.service.bound.profile.checks, probe ∈ check.subjectProbes
  | .check check => check ∈ R.service.bound.profile.checks

/-- The results so far, where every stage had one. -/
inductive Produced : List StageResult → Prop
  | nil : Produced []
  | snoc {results : List StageResult} (call : StageCall) {result : StageResult} :
    Produced results → R.Asked call.kind →
      R.runStage (results.map .result) call = .result result → Produced (results ++ [result])

/-- One stage after the other, snapshots included, each in a container of its own. -/
def Orderly (results : List StageResult) : Prop :=
  results.Pairwise fun r q => r.process.finishedNs ≤ q.process.startedNs ∧
    (∀ ns ∈ r.snapshotNs, ns ≤ q.process.startedNs) ∧
    r.process.containerId ≠ q.process.containerId

/-- A probe may end with any code that is not negative. -/
def isProbe : StageKind → Bool
  | .probe _ => true
  | _ => false

/-- A stage ended as it should: of the executor there is a tree, and of a check an observation. -/
structure EndsWell (call : StageCall) (result : StageResult) : Prop where
  subject : result.process.subject = call.subject
  endedWell : R.service.EndedWell (isProbe call.kind) result.process
  container : isNonEmpty result.process.containerId = true
  clean : result.blockers = [] ∧ result.retainedContainers = []
  executor : call.kind = .executor → ∃ tree ns, result.tree = some tree ∧
    result.snapshotNs = some ns ∧ result.process.finishedNs ≤ ns ∧ ns ≤ 2 ^ 53 - 1 ∧
    validateSnapshot tree.snapshot R.service.bound.profile.runner.toRunnerConfig = .ok () ∧
    tree.snapshot.entries.all TreeEntry.valid = true ∧ Exact tree.snapshot.dump
  observes : ∀ binding, call.kind = .check binding → ∃ b,
    observation R.service.decoder result.process.stdout binding.checkId = .ok b ∧
      (binding.phase = .pre → b = true)

/-- A host on which every stage ends as it should, after whatever stages it ran before. -/
structure Honest : Prop where
  fresh : ∀ results, R.Produced results → R.stale (results.map .result) = false
  ends : ∀ results call, R.Produced results → R.Asked call.kind → ∃ result,
    R.runStage (results.map .result) call = .result result ∧ R.EndsWell call result
  orderly : ∀ results, R.Produced results → Orderly results

/-- What a pair needs to be run at all. -/
structure Ready (index : ℕ) : Prop where
  profile : R.service.bound.profile.valid = true
  checks : R.service.bound.profile.checks.length ≤ 2 ^ 53 - 1
  repetition : index < R.service.bound.profile.repetitions
  initial : validateSnapshot R.service.context.initial
    R.service.bound.profile.runner.toRunnerConfig = .ok ()
  source : R.source.snapshot = R.service.context.initial
  views : ∀ role, ∃ bytes, R.viewBytes role = some bytes
  subject : ∃ subject, R.service.subject .pair 0 = some subject
  decoder : ∃ limit number, R.service.decoder = observationDecoder limit number
  reader : ∃ B, R.service.parseRun = parseCompletedRun B ∧
    R.service.parsePair = parsePairEvidence B
  digests : ∀ bytes, isDigest (R.service.journal.digestBytes bytes) = true
  world : R.world.Friendly R.service.journal
  identifiers : ∀ n, isNonEmpty (R.world.uuid n) = true

/-! ## Section 2: Programs that run as they should -/

/-- A runner whose stages all ended as they should, with some records in its journal. -/
structure Clean (records : List Record) (s : PairState) : Prop where
  holds : R.service.Holds R.world records s.journal
  produced : ∃ results, s.outcomes = results.map .result ∧ R.Produced results
  blockers : s.blockers = []
  certain : s.uncertain = false

/-- From every clean state the program returns, in a clean state, with the results of its stages. -/
def Runs {α : Type} (records : List Record) (p : PairTx α) (Q : α → List StageResult → Prop) :
    Prop :=
  ∀ s, R.Clean records s → ∃ a results s', Returns p s a s' ∧ R.Clean records s' ∧
    s'.outcomes = s.outcomes ++ results.map .result ∧ Q a results

section Rules

variable {R} {records : List Record} {α β : Type} {p : PairTx α} {Q : α → List StageResult → Prop}

theorem Runs.imp {Q' : α → List StageResult → Prop} (h : R.Runs records p Q)
    (himp : ∀ a results, Q a results → Q' a results) : R.Runs records p Q' := by
  intro s hs
  obtain ⟨a, results, s', hreturns, hs', houtcomes, hq⟩ := h s hs
  exact ⟨a, results, s', hreturns, hs', houtcomes, himp a results hq⟩

theorem runs_pure {a : α} (h : Q a []) : R.Runs records (pure a) Q := by
  intro s hs
  exact ⟨a, [], s, (returns_pure _ _ _ _).mpr ⟨rfl, rfl⟩, hs, by simp, h⟩

theorem runs_bind {f : α → PairTx β} {Q' : β → List StageResult → Prop} (hp : R.Runs records p Q)
    (hf : ∀ a results, Q a results →
      R.Runs records (f a) fun b results' => Q' b (results ++ results')) :
    R.Runs records (p >>= f) Q' := by
  intro s hs
  -- the second program starts from the state the first one left, which is clean again
  obtain ⟨a, results, s₁, hfirst, hs₁, houtcomes, hq⟩ := hp s hs
  obtain ⟨b, results', s₂, hsecond, hs₂, houtcomes', hq'⟩ := hf a results hq s₁ hs₁
  refine ⟨b, results ++ results', s₂, (returns_bind _ _ _ _ _).mpr ⟨a, s₁, hfirst, hsecond⟩, hs₂,
    ?_, hq'⟩
  rw [houtcomes', houtcomes, List.map_append, List.append_assoc]

/-- A value that a check lets pass. -/
theorem runs_check_bind {c : Except TwinError α} {a : α} {f : α → PairTx β}
    {Q' : β → List StageResult → Prop} (h : c = .ok a) (hf : R.Runs records (f a) Q') :
    R.Runs records (Library.check c >>= f) Q' := by
  intro s hs
  obtain ⟨b, results, s', hreturns, hrest⟩ := hf s hs
  exact ⟨b, results, s', (returns_bind _ _ _ _ _).mpr
    ⟨a, s, (returns_check _ _ _ _).mpr ⟨h, rfl⟩, hreturns⟩, hrest⟩

/-- A field of the state that is the same in every clean state. -/
theorem runs_select_bind {g : PairState → α} {a : α} {f : α → PairTx β}
    {Q' : β → List StageResult → Prop} (h : ∀ s, R.Clean records s → g s = a)
    (hf : R.Runs records (f a) Q') : R.Runs records (select g >>= f) Q' := by
  intro s hs
  obtain ⟨b, results, s', hreturns, hrest⟩ := hf s hs
  exact ⟨b, results, s', (returns_bind _ _ _ _ _).mpr
    ⟨a, s, (returns_select _ _ _ _).mpr ⟨h s hs, rfl⟩, hreturns⟩, hrest⟩

theorem runs_attempt (h : R.Runs records p Q) : R.Runs records (attempt anyException p)
    fun a results => ∃ b, a = .ok b ∧ Q b results := by
  intro s hs
  obtain ⟨a, results, s', hreturns, hs', houtcomes, hq⟩ := h s hs
  exact ⟨.ok a, results, s', returns_attempt hreturns, hs', houtcomes, a, rfl, hq⟩

end Rules

/-! ## Section 3: Stages -/

section Stages

variable {R} {records : List Record} {role : StageRole} {index : ℕ}

theorem digestOf_runs_bind {β : Type} {snapshot : Snapshot} {digest : String}
    {f : String → PairTx β} {Q : β → List StageResult → Prop}
    (h : snapshot.digestValue R.service.journal.digestBytes = some digest)
    (hf : R.Runs records (f digest) Q) : R.Runs records (R.digestOf snapshot >>= f) Q := by
  unfold digestOf
  exact runs_check_bind ((orRaise_eq_ok _ _ _).mpr h) hf

/-- **A stage of an honest host** returns its result, and nothing is noted against it. -/
theorem runs_stage (hhost : R.Honest) {kind : StageKind} (hasked : R.Asked kind)
    {invocation : Invocation}
    {digests : List String} {inputs : List (String × StageInput)} {workspace : Option FrozenTree}
    {probes : List ProcessCapture} {subject : String}
    (hsubject : R.service.stage role index kind.stageId digests probes = some subject) :
    R.Runs records (R.stage kind role index invocation digests inputs workspace probes)
      fun result results => results = [result] ∧
        R.EndsWell ⟨kind, role, index, subject, invocation, inputs, workspace⟩ result := by
  intro s hs
  obtain ⟨results, houtcomes, hproduced⟩ := hs.produced
  let call : StageCall := ⟨kind, role, index, subject, invocation, inputs, workspace⟩
  -- the host is asked after the results so far, which is what its promises are about
  obtain ⟨result, hrun, hends⟩ := hhost.ends results call hproduced hasked
  rw [← houtcomes] at hrun
  have hfresh := hhost.fresh results hproduced
  rw [← houtcomes] at hfresh
  refine ⟨result, [result], s.after call (.result result), ?_, ⟨?_, ?_, ?_, ?_⟩, ?_, rfl, hends⟩
  -- `fresh` does not raise, the stage has a subject, and its outcome is the one the host gave
  · unfold stage
    simp only [returns_bind, returns_query, returns_check, returns_select, returns_write,
      orRaise_eq_ok, raiseIf_eq_ok]
    exact ⟨(), s, ⟨by simp [hfresh], rfl⟩, subject, s, ⟨hsubject, rfl⟩, .result result, s,
      ⟨hrun, rfl⟩, (), s.after call (.result result), rfl, rfl, rfl⟩
  · exact hs.holds
  -- the new result extends the results that were produced
  · refine ⟨results ++ [result], ?_, hproduced.snoc call hasked (houtcomes ▸ hrun)⟩
    simp [PairState.after, houtcomes]
  -- an honest stage has no blockers and leaves no container behind
  · simp [PairState.after, hs.blockers, hends.clean.1]
  · simp [PairState.after, hs.certain, hends.endedWell.ended.1, hends.clean.2]
  · simp [PairState.after]

/-- A stage has a subject when its run has one. -/
theorem exists_stage {S : BehaviorService F ν} {run : String} {repetition : ℕ}
    (h : S.subject role repetition = some run) (stageId : String) (inputs : List String)
    {probes : List ProcessCapture} (hprobes : ∀ p ∈ probes, Exact p.dump) :
    ∃ subject, S.stage role repetition stageId inputs probes = some subject := by
  have hvalue : Exact (.object
      [("domain", .string "ccs-m5-stage/1"), ("run", .string run), ("stage_id", .string stageId),
       ("inputs", strings inputs), ("probes", listing ProcessCapture.dump probes)]) := by
    -- the probes can be written, so the whole subject value can
    have hlisted := BehaviorService.exact_processes hprobes
    simp [Exact, Json.numbersAll, strings, hlisted]
  obtain ⟨subject, hsubject⟩ := BehaviorService.exists_identity S.journal.digestBytes hvalue
  exact ⟨subject, Option.bind_eq_some_iff.mpr ⟨run, h, hsubject⟩⟩

theorem isDigest_of_identity {digestBytes : Bytes → String}
    (hdigests : ∀ bytes, isDigest (digestBytes bytes) = true) {v : Plain} {subject : String}
    (h : identity digestBytes v = some subject) : isDigest subject = true := by
  obtain ⟨bytes, _, rfl⟩ := Option.map_eq_some_iff.mp h
  exact hdigests bytes

theorem Ready.index_le (h : R.Ready index) : index ≤ 2 ^ 53 - 1 := by
  have hprofile := h.profile
  simp only [ExecutionProfile.valid, Bool.and_eq_true, decide_eq_true_eq] at hprofile
  have hrepetition := h.repetition
  omega

theorem Ready.exists_subject (h : R.Ready index) (role : StageRole) :
    ∃ subject, R.service.subject role index = some subject := by
  obtain ⟨_, hsubject⟩ := h.subject
  exact BehaviorService.exists_subject hsubject role h.index_le

/-- The process of a stage that ended as it should has valid fields. -/
theorem Ready.valid_process (h : R.Ready index) {kind : StageKind} {digests : List String}
    {probes : List ProcessCapture} {invocation : Invocation} {inputs : List (String × StageInput)}
    {workspace : Option FrozenTree} {subject : String} {result : StageResult}
    (hsubject : R.service.stage role index kind.stageId digests probes = some subject)
    (hends : R.EndsWell ⟨kind, role, index, subject, invocation, inputs, workspace⟩ result) :
    result.process.valid = true := by
  -- the subject is an identity, which is a digest
  obtain ⟨_, _, hidentity⟩ := Option.bind_eq_some_iff.mp hsubject
  rw [ProcessCapture.valid, hends.subject, isDigest_of_identity h.digests hidentity,
    hends.container]
  rfl

theorem Ready.checkIds (h : R.Ready index) {binding : CheckBinding}
    (hbinding : binding ∈ R.service.bound.profile.checks) : isNonEmpty binding.checkId = true := by
  have hprofile := h.profile
  simp only [ExecutionProfile.valid, Bool.and_eq_true, List.all_eq_true] at hprofile
  have hvalid := hprofile.1.1.2 binding hbinding
  simp only [CheckBinding.valid, Bool.and_eq_true] at hvalid
  exact hvalid.1.1.1.1.2

/-- The tree of every probe is there, and it is the one that the evaluator asks for. -/
def Wired (role : StageRole) (trees : Trees) (digests : List String) (probe : SubjectProbe) :
    Prop :=
  ∃ tree digest, trees.lookup probe.inputState = some tree ∧
    tree.snapshot.digestValue R.service.journal.digestBytes = some digest ∧
    stateOf role digests probe.inputState = some digest

/-- **The probes of a check** are those that the evaluator asks for. -/
theorem runs_probes (hready : R.Ready index) (hhost : R.Honest) {trees : Trees}
    {digests : List String} {probes : List SubjectProbe}
    (hasked : ∀ probe ∈ probes, R.Asked (.probe probe))
    (hwired : ∀ probe ∈ probes, R.Wired role trees digests probe) :
    R.Runs records (R.runProbes role index trees probes) fun ps results =>
      results.map StageResult.process = ps ∧
        List.Forall₂ (R.service.ProbeMade role index digests) probes ps ∧
        ∀ p ∈ ps, p.valid = true := by
  induction probes with
  | nil => exact runs_pure ⟨rfl, .nil, by simp⟩
  | cons probe probes ih =>
    obtain ⟨tree, digest, htree, hdigest, hstate⟩ := hwired probe List.mem_cons_self
    -- a probe stage is identified by the digest of the tree that it is run on
    obtain ⟨_, hrun⟩ := hready.exists_subject role
    obtain ⟨subject, hsubject⟩ := exists_stage hrun (StageKind.probe probe).stageId [digest]
      (List.forall_mem_nil _)
    unfold runProbes
    apply runs_check_bind ((orRaise_eq_ok _ _ _).mpr htree)
    apply digestOf_runs_bind hdigest
    apply runs_bind (runs_stage hhost (hasked probe List.mem_cons_self) hsubject)
    rintro result _ ⟨rfl, hends⟩
    -- the runner stops at a probe that has blockers or that did not terminate; this one is neither
    apply runs_check_bind (a := ())
    · rw [raiseIf_eq_ok]
      simp [hends.clean.1, hends.endedWell.ended.1]
    -- the other probes follow, in the order of the binding
    apply runs_bind (ih (fun other hother => hasked other (List.mem_cons_of_mem probe hother))
      fun other hother => hwired other (List.mem_cons_of_mem probe hother))
    rintro others results ⟨hprocesses, hmade, hvalid⟩
    apply runs_pure
    refine ⟨by simp [hprocesses], .cons ⟨digest, hstate, ?_, hends.endedWell⟩ hmade, ?_⟩
    · rw [hends.subject]
      exact hsubject
    · exact List.forall_mem_cons.mpr ⟨hready.valid_process hsubject hends, hvalid⟩

theorem exists_checkInputs (hready : R.Ready index) (role : StageRole) (trees : Trees)
    {probes : List ProcessCapture} (hprobes : ∀ p ∈ probes, Exact p.dump) :
    ∃ inputs, R.checkInputs role trees probes = some inputs := by
  -- a check reads what its probes printed, so their captures have to be writable
  have hexact := BehaviorService.exact_processes hprobes
  rw [Exact, ← canonicalBytes_isSome] at hexact
  obtain ⟨observations, hobservations⟩ := Option.isSome_iff_exists.mp hexact
  obtain ⟨old, hold⟩ := hready.views .old
  obtain ⟨new, hnew⟩ := hready.views .new
  unfold checkInputs
  cases role <;> simp [viewOf, hobservations, hold, hnew]

/-- **A check** is captured as the evaluator asks for. -/
theorem runs_check (hready : R.Ready index) (hhost : R.Honest) {trees : Trees}
    {digests : List String} {binding : CheckBinding}
    (hlisted : binding ∈ R.service.bound.profile.checks)
    (hwired : ∀ probe ∈ binding.subjectProbes, R.Wired role trees digests probe) :
    R.Runs records (R.check role index binding trees digests) fun capture results =>
      results.map StageResult.process = BehaviorService.processesOf [capture] ∧
        R.service.CaptureMade role index digests binding capture ∧ capture.valid = true := by
  unfold PairRunner.check
  apply runs_bind (runs_probes hready hhost (fun _ hprobe => ⟨binding, hlisted, hprobe⟩) hwired)
  rintro probes results ⟨hprocesses, hmade, hvalid⟩
  have hexact : ∀ p ∈ probes, Exact p.dump := by
    -- a probe that was captured ended well, so its process can be written
    intro p hp
    obtain ⟨_, _, _, _, _, hended⟩ := left_of_mem_forall₂ hmade hp
    exact BehaviorService.exact_process hended
  -- the inputs and the subject of the check both depend on the captured probes
  obtain ⟨inputs, hinputs⟩ := exists_checkInputs hready role trees hexact
  obtain ⟨_, hrun⟩ := hready.exists_subject role
  obtain ⟨subject, hsubject⟩ := exists_stage hrun (StageKind.check binding).stageId digests hexact
  apply runs_check_bind ((orRaise_eq_ok _ _ _).mpr hinputs)
  have hasked : R.Asked (.check binding) := hlisted
  apply runs_bind (runs_stage hhost hasked hsubject)
  rintro result _ ⟨rfl, hends⟩
  apply runs_pure
  -- the processes of a check are those of its probes and then its own
  refine ⟨?_, ⟨rfl, hmade, ?_, hends.endedWell, hends.observes binding rfl⟩, ?_⟩
  · simp [BehaviorService.processesOf, hprocesses]
  · rw [hends.subject]
    exact hsubject
  · simp only [CheckCapture.valid, hready.checkIds hlisted, hready.valid_process hsubject hends, Bool.true_and,
      List.all_eq_true]
    exact hvalid

/-- **The checks of a phase** are captured one after the other. -/
theorem runs_runChecks (hready : R.Ready index) (hhost : R.Honest) {trees : Trees}
    {digests : List String} {bindings : List CheckBinding}
    (hlisted : ∀ binding ∈ bindings, binding ∈ R.service.bound.profile.checks)
    (hwired : ∀ binding ∈ bindings, ∀ probe ∈ binding.subjectProbes,
      R.Wired role trees digests probe) :
    R.Runs records (R.runChecks role index trees digests bindings) fun captured results =>
      captured.2 = .ok () ∧
        results.map StageResult.process = BehaviorService.processesOf captured.1 ∧
        List.Forall₂ (R.service.CaptureMade role index digests) bindings captured.1 ∧
        ∀ capture ∈ captured.1, capture.valid = true := by
  induction bindings with
  | nil => exact runs_pure ⟨rfl, rfl, .nil, by simp⟩
  | cons binding bindings ih =>
    unfold runChecks
    -- a check that fails would end the phase with its error; none does
    have hbinding := hlisted binding List.mem_cons_self
    apply runs_bind (runs_attempt (runs_check hready hhost hbinding
      (hwired binding List.mem_cons_self)))
    rintro _ results ⟨capture, rfl, hprocesses, hmade, hvalid⟩
    apply runs_bind (ih (fun other hother => hlisted other (List.mem_cons_of_mem binding hother))
      fun other hother => hwired other (List.mem_cons_of_mem binding hother))
    rintro ⟨captures, ended⟩ results' ⟨hended, hprocesses', hmade', hvalid'⟩
    apply runs_pure
    refine ⟨hended, ?_, .cons hmade hmade', List.forall_mem_cons.mpr ⟨hvalid, hvalid'⟩⟩
    -- the stages of the first check come before those of the others
    rw [List.append_nil, List.map_append, hprocesses, hprocesses']
    simp [BehaviorService.processesOf]

/-- The trees of the probes of a check are those of its phase. -/
theorem wired_of_expects {trees : Trees} {digests : List String} {binding : CheckBinding}
    (hexpects : ExpectsByRole binding)
    (hinitial : ∀ probe : SubjectProbe, probe.inputState = .initial →
      R.Wired role trees digests probe)
    (hside : binding.phase ≠ .pair → ∀ probe : SubjectProbe, probe.inputState = .current →
      R.Wired role trees digests probe)
    (hpair : binding.phase = .pair → ∀ probe : SubjectProbe,
      probe.inputState = .oldFinal ∨ probe.inputState = .newFinal →
        R.Wired role trees digests probe) :
    ∀ probe ∈ binding.subjectProbes, R.Wired role trees digests probe := by
  intro probe hprobe
  -- an initial probe, a probe of the pair phase, or a probe of one side
  rcases hexpects.probes probe hprobe with hstate | ⟨hphase, hstate⟩ | ⟨hphase, hstate⟩
  · exact hinitial probe hstate
  · exact hpair hphase probe hstate
  · exact hside hphase probe hstate

end Stages

/-! ## Section 4: Sides -/

section Sides

variable {R} {records : List Record} {index : ℕ} {initial : String}

/-- The executor of a side ran in its stage, and left a tree. -/
structure ExecutorMade (R : PairRunner F ν) (role : RunRole) (index : ℕ) (initial : String)
    (result : StageResult) (tree : FrozenTree) (ns : ℕ) : Prop where
  captured : result.tree = some tree
  snapshotNs : result.snapshotNs = some ns
  subject : R.service.stage role.stage index "executor" [initial] [] = some result.process.subject
  endedWell : R.service.EndedWell false result.process
  valid : result.process.valid = true
  snapshot : result.process.finishedNs ≤ ns ∧ ns ≤ 2 ^ 53 - 1
  accepted : validateSnapshot tree.snapshot R.service.bound.profile.runner.toRunnerConfig = .ok ()
  entries : tree.snapshot.entries.all TreeEntry.valid = true
  exact : Exact tree.snapshot.dump

theorem exists_taskBytes (R : PairRunner F ν) : ∃ bytes, R.taskBytes = some bytes := by
  rw [← Option.isSome_iff_exists, taskBytes, canonicalBytes_isSome]
  simp [TaskContext.dump, Json.numbersAll, strings, literal]

theorem runs_executor (hready : R.Ready index) (hhost : R.Honest) (role : RunRole)
    (hinitial : R.service.context.initial.digestValue R.service.journal.digestBytes =
      some initial) :
    R.Runs records (R.executor role index) fun result results => results = [result] ∧
      ∃ tree ns, R.ExecutorMade role index initial result tree ns := by
  obtain ⟨task, htask⟩ := exists_taskBytes R
  obtain ⟨view, hview⟩ := hready.views role
  obtain ⟨_, hrun⟩ := hready.exists_subject role.stage
  obtain ⟨subject, hsubject⟩ := exists_stage hrun StageKind.executor.stageId [initial]
    (List.forall_mem_nil _)
  unfold executor
  apply runs_check_bind ((orRaise_eq_ok _ _ _).mpr htask)
  apply runs_check_bind ((orRaise_eq_ok _ _ _).mpr hview)
  apply digestOf_runs_bind hinitial
  apply (runs_stage hhost (show R.Asked .executor from trivial) hsubject).imp
  rintro result _ ⟨rfl, hends⟩
  -- what the runner's own test of the tree asks for is part of how an executor ends well
  obtain ⟨tree, ns, htree, hns, hfinished, hwritten, haccepted, hentries, hexact⟩ :=
    hends.executor rfl
  refine ⟨rfl, tree, ns, htree, hns, ?_, hends.endedWell, hready.valid_process hsubject hends,
    ⟨hfinished, hwritten⟩, haccepted, hentries, hexact⟩
  rw [hends.subject]
  exact hsubject

/-- The captures of a phase, as the evaluator asks for them, with the results of their stages. -/
structure PhaseMade (R : PairRunner F ν) (role : StageRole) (index : ℕ) (phase : CheckPhase)
    (digests : List String) (captures : List CheckCapture) (results : List StageResult) : Prop where
  processes : results.map StageResult.process = BehaviorService.processesOf captures
  made : List.Forall₂ (R.service.CaptureMade role index digests) (R.service.phaseBindings phase)
    captures
  valid : ∀ capture ∈ captures, capture.valid = true

theorem runs_checks (hready : R.Ready index) (hhost : R.Honest) {role : StageRole}
    {phase : CheckPhase} {trees : Trees} {digests : List String}
    (hwired : ∀ binding ∈ R.service.phaseBindings phase, ∀ probe ∈ binding.subjectProbes,
      R.Wired role trees digests probe) :
    R.Runs records (R.checks role index phase trees digests) fun captured results =>
      captured.2 = .ok () ∧ R.PhaseMade role index phase digests captured.1 results := by
  unfold checks
  apply (runs_runChecks hready hhost (fun binding hbinding =>
    (BehaviorService.mem_phaseBindings.mp hbinding).1) hwired).imp
  rintro captured results ⟨hended, hprocesses, hmade, hvalid⟩
  exact ⟨hended, hprocesses, hmade, hvalid⟩

/-- The probes before the executors all look at the initial tree. -/
theorem wired_pre (hready : R.Ready index)
    (hexpects : ∀ check ∈ R.service.bound.profile.checks, ExpectsByRole check) (role : StageRole)
    (hinitial : R.service.context.initial.digestValue R.service.journal.digestBytes =
      some initial) :
    ∀ binding ∈ R.service.phaseBindings .pre, ∀ probe ∈ binding.subjectProbes,
      R.Wired role [(.initial, R.source), (.current, R.source)] [initial] probe := by
  intro binding hbinding
  obtain ⟨hlisted, hphase⟩ := BehaviorService.mem_phaseBindings.mp hbinding
  -- the runner starts from its source, whose snapshot is the initial one of the context
  rw [← hready.source] at hinitial
  apply wired_of_expects (hexpects binding hlisted)
  · intro probe hstate
    exact ⟨R.source, initial, by rw [hstate]; rfl, hinitial, by rw [hstate]; rfl⟩
  · intro _ probe hstate
    exact ⟨R.source, initial, by rw [hstate]; rfl, hinitial, by rw [hstate]; rfl⟩
  -- a check before the executors is not one of the pair
  · intro hpair
    rw [hphase] at hpair
    cases hpair

/-- The probes after an executor look at the initial tree and at the tree that it left. -/
theorem wired_post (hready : R.Ready index)
    (hexpects : ∀ check ∈ R.service.bound.profile.checks, ExpectsByRole check) (role : StageRole)
    (hinitial : R.service.context.initial.digestValue R.service.journal.digestBytes = some initial)
    {tree : FrozenTree} {final : String}
    (hfinal : tree.snapshot.digestValue R.service.journal.digestBytes = some final) :
    ∀ binding ∈ R.service.phaseBindings .post, ∀ probe ∈ binding.subjectProbes,
      R.Wired role [(.initial, R.source), (.current, tree)] [initial, final] probe := by
  intro binding hbinding
  obtain ⟨hlisted, hphase⟩ := BehaviorService.mem_phaseBindings.mp hbinding
  rw [← hready.source] at hinitial
  apply wired_of_expects (hexpects binding hlisted)
  · intro probe hstate
    exact ⟨R.source, initial, by rw [hstate]; rfl, hinitial, by rw [hstate]; rfl⟩
  · intro _ probe hstate
    exact ⟨tree, final, by rw [hstate]; rfl, hfinal, by rw [hstate]; rfl⟩
  -- as before the executors, no check of a side is one of the pair
  · intro hpair
    rw [hphase] at hpair
    cases hpair

/-- The probes of the checks of both sides look at the initial tree and at the two that the
executors left. -/
theorem wired_pair (hready : R.Ready index)
    (hexpects : ∀ check ∈ R.service.bound.profile.checks, ExpectsByRole check)
    (hinitial : R.service.context.initial.digestValue R.service.journal.digestBytes = some initial)
    {oldTree newTree : FrozenTree} {oldFinal newFinal oldRecord newRecord : String}
    (hold : oldTree.snapshot.digestValue R.service.journal.digestBytes = some oldFinal)
    (hnew : newTree.snapshot.digestValue R.service.journal.digestBytes = some newFinal) :
    ∀ binding ∈ R.service.phaseBindings .pair, ∀ probe ∈ binding.subjectProbes,
      R.Wired .pair [(.initial, R.source), (.oldFinal, oldTree), (.newFinal, newTree)]
        [initial, oldFinal, newFinal, oldRecord, newRecord] probe := by
  intro binding hbinding
  obtain ⟨hlisted, hphase⟩ := BehaviorService.mem_phaseBindings.mp hbinding
  rw [← hready.source] at hinitial
  apply wired_of_expects (hexpects binding hlisted)
  · intro probe hstate
    exact ⟨R.source, initial, by rw [hstate]; rfl, hinitial, by rw [hstate]; rfl⟩
  -- a check of the pair asks for no current tree of a side
  · intro hside
    exact absurd hphase hside
  · intro _ probe hstate
    rcases hstate with hstate | hstate
    · exact ⟨oldTree, oldFinal, by rw [hstate]; rfl, hold, by rw [hstate]; rfl⟩
    · exact ⟨newTree, newFinal, by rw [hstate]; rfl, hnew, by rw [hstate]; rfl⟩

theorem exists_digestValue {snapshot : Snapshot} (digestBytes : Bytes → String)
    (h : Exact snapshot.dump) : ∃ digest, snapshot.digestValue digestBytes = some digest :=
  BehaviorService.exists_identity digestBytes h

/-- **The executor and the checks of a side** are run and captured as the evaluator asks for. -/
theorem runs_executed (hready : R.Ready index) (hhost : R.Honest)
    (hexpects : ∀ check ∈ R.service.bound.profile.checks, ExpectsByRole check) (role : RunRole)
    (hinitial : R.service.context.initial.digestValue R.service.journal.digestBytes =
      some initial) :
    R.Runs records (R.executed role index) fun ended results =>
      ∃ result tree ns final posts, ended = (some result, ended.2.1, false) ∧
        results = result :: posts ∧ R.ExecutorMade role index initial result tree ns ∧
        tree.snapshot.digestValue R.service.journal.digestBytes = some final ∧
        R.PhaseMade role.stage index .post [initial, final] ended.2.1 posts := by
  unfold executed
  apply runs_bind (runs_attempt (runs_executor hready hhost role hinitial))
  rintro _ _ ⟨result, rfl, rfl, tree, ns, hmade⟩
  -- the tree that was left can be written, so it has a digest for the checks
  obtain ⟨final, hfinal⟩ := exists_digestValue R.service.journal.digestBytes hmade.exact
  -- no stage left it uncertain what is still running, so the runner goes on to the checks
  apply runs_select_bind fun s hs => hs.certain
  simp only [hmade.captured]
  have hpost : R.Runs records (R.postChecks role index tree) fun captured results =>
      captured.2 = .ok () ∧
        R.PhaseMade role.stage index .post [initial, final] captured.1 results := by
    unfold postChecks
    apply digestOf_runs_bind hinitial
    apply digestOf_runs_bind hfinal
    exact runs_checks hready hhost (wired_post hready hexpects role.stage hinitial hfinal)
  -- the runner catches what the checks raise; they raise nothing
  apply runs_bind (runs_attempt hpost)
  rintro _ posts ⟨⟨captures, ended⟩, rfl, hended, hphase⟩
  obtain rfl : ended = .ok () := hended
  apply runs_pure
  refine ⟨result, tree, ns, final, posts, rfl, by simp, hmade, hfinal, hphase⟩

/-! ## Section 5: Evidence -/

/-- The evidence of a side. -/
def sideEvidence (role : RunRole) (index : ℕ) (result : StageResult) (tree : FrozenTree) (ns : ℕ)
    (checks : List CheckCapture) : CompletedRunEvidence :=
  ⟨role, index, tree.snapshot, ns, result.process, checks⟩

/-- A call of the journal leaves the rest of the state alone. -/
theorem returns_onJournal {α : Type} {p : JournalTx α} {s : PairState} {a : α} {j : JournalState}
    (h : Returns p s.journal a j) : Returns (onJournal p) s a { s with journal := j } := by
  unfold Returns at h ⊢
  simp only [onJournal, h]

theorem Clean.onJournal {records records' : List Record} {s : PairState} {j : JournalState}
    (h : R.Clean records s) (hj : R.service.Holds R.world records' j) :
    R.Clean records' { s with journal := j } :=
  ⟨hj, h.produced, h.blockers, h.certain⟩

theorem ne_empty_of_isDigest {s : String} (h : isDigest s = true) : s ≠ "" := by
  rintro rfl
  revert h
  decide

theorem exists_scope (S : BehaviorService F ν) : ∃ scope, S.scope = some scope := by
  apply BehaviorService.exists_identity
  simp [Exact, Json.numbersAll]

theorem Ready.ne_empty (h : R.Ready index) {v : Plain} {subject : String}
    (hidentity : identity R.service.journal.digestBytes v = some subject) : subject ≠ "" :=
  ne_empty_of_isDigest (isDigest_of_identity h.digests hidentity)

/-- What is recorded under a subject is held, under a valid reference. -/
theorem appendRecord_ready (hready : R.Ready index) {s : JournalState}
    (hs : R.service.Holds R.world records s) {kind : String} (hkind : kind ≠ "") (payload : Bytes)
    {scope subject : String} {role : StageRole} (hscope : R.service.scope = some scope)
    (hsubject : R.service.subject role index = some subject) :
    ∃ reference record s',
      Returns (R.service.journal.appendRecord R.world kind scope subject payload) s reference s' ∧
        R.service.Holds R.world (record :: records) s' ∧
        R.service.HeldAs [record] reference kind subject payload ∧ reference.valid = true := by
  -- scope and subject are digests, so neither name is empty
  obtain ⟨_, _, hidentity⟩ := Option.bind_eq_some_iff.mp hsubject
  have happended : ∃ reference record s',
      Returns (R.service.journal.appendRecord R.world kind scope subject payload) s reference s' ∧
        R.service.Holds R.world (record :: records) s' ∧
        R.service.HeldAs [record] reference kind subject payload ∧
        ∃ n, reference.recordId = R.world.uuid n :=
    BehaviorService.appendRecord_returns hready.world hs hscope
      ⟨hkind, hready.ne_empty hscope, hready.ne_empty hidentity⟩
  obtain ⟨reference, record, s', happend, hs', hheld, n, hn⟩ := happended
  -- the reference carries the digest of the record and a fresh id
  refine ⟨reference, record, s', happend, hs', hheld, ?_⟩
  obtain ⟨_, _, _, hdigest⟩ := hheld
  rw [RecordRef.valid, hn, hready.identifiers, ← hdigest, hready.digests]
  rfl

/-- Captures that can be written, with valid fields. -/
def Written (captures : List CheckCapture) : Prop :=
  ∀ capture ∈ captures, capture.valid = true ∧ Exact capture.dump

theorem PhaseMade.written {role : StageRole} {phase : CheckPhase} {digests : List String}
    {captures : List CheckCapture} {results : List StageResult}
    (h : R.PhaseMade role index phase digests captures results) : Written captures := by
  intro capture hcapture
  obtain ⟨_, _, hmade⟩ := left_of_mem_forall₂ h.made hcapture
  exact ⟨h.valid capture hcapture, hmade.exact⟩

theorem Written.append {captures captures' : List CheckCapture} (h : Written captures)
    (h' : Written captures') : Written (captures ++ captures') := by
  intro capture hcapture
  rcases List.mem_append.mp hcapture with hfirst | hlast
  · exact h capture hfirst
  · exact h' capture hlast

theorem Written.exact {captures : List CheckCapture} (h : Written captures) :
    Exact (listing CheckCapture.dump captures) := by
  simp only [Exact, listing, Json.numbersAll, Json.itemsAll_eq, List.all_map, List.all_eq_true]
  intro capture hcapture
  exact (h capture hcapture).2

theorem Written.valid {captures : List CheckCapture} (h : Written captures) :
    captures.all CheckCapture.valid = true := by
  rw [List.all_eq_true]
  intro capture hcapture
  exact (h capture hcapture).1

/-- The evidence of a side has a payload and valid fields. -/
theorem exists_sidePayload (hready : R.Ready index) {role : RunRole} {initial : String}
    {result : StageResult} {tree : FrozenTree} {ns : ℕ} {checks : List CheckCapture}
    (hmade : R.ExecutorMade role index initial result tree ns) (hchecks : Written checks) :
    (∃ payload, (sideEvidence role index result tree ns checks).payloadBytes = some payload) ∧
      (sideEvidence role index result tree ns checks).toRun.valid = true := by
  constructor
  · rw [← Option.isSome_iff_exists, CompletedRunEvidence.payloadBytes, RunEvidence.payloadBytes,
      canonicalBytes_isSome]
    -- every number of the evidence is within the range that JSON carries exactly
    have hindex := exact_count hready.index_le
    have hns := exact_count hmade.snapshot.2
    have hprocess := BehaviorService.exact_process hmade.endedWell
    have hlisted := hchecks.exact
    simp only [Exact] at hindex hns hprocess hlisted
    have htree := hmade.exact
    rw [Exact] at htree
    simp [RunEvidence.dump, sideEvidence, CompletedRunEvidence.toRun, optionally, Json.numbersAll,
      hindex, hns, hprocess, hlisted, htree]
  · simp [RunEvidence.valid, sideEvidence, CompletedRunEvidence.toRun, hmade.entries, hmade.valid,
      hchecks.valid]

/-- **A side** is run, and its evidence is recorded. -/
theorem role_returns (hready : R.Ready index) (hhost : R.Honest)
    (hexpects : ∀ check ∈ R.service.bound.profile.checks, ExpectsByRole check) (role : RunRole)
    (hinitial : R.service.context.initial.digestValue R.service.journal.digestBytes = some initial)
    {before : List CheckCapture} (hbefore : Written before) {s : PairState}
    (hs : R.Clean records s) :
    ∃ result tree ns final captures posts reference record s',
      Returns (R.role role index before true) s
        (⟨role, index, reference, none⟩, some tree, before ++ captures) s' ∧
      R.Clean (record :: records) s' ∧
      s'.outcomes = s.outcomes ++ (result :: posts).map .result ∧
      R.ExecutorMade role index initial result tree ns ∧
      tree.snapshot.digestValue R.service.journal.digestBytes = some final ∧
      R.PhaseMade role.stage index .post [initial, final] captures posts ∧
      reference.valid = true ∧
      ∃ subject payload, R.service.subject role.stage index = some subject ∧
        R.service.HeldAs [record] reference "run" subject payload ∧
        (sideEvidence role index result tree ns (before ++ captures)).payloadBytes =
          some payload ∧
        (sideEvidence role index result tree ns (before ++ captures)).toRun.valid = true := by
  -- the executor and the checks leave the journal as it was
  obtain ⟨⟨ended, captures, aborted⟩, _, s₁, hexecuted, hs₁, houtcomes, result, tree, ns, final,
    posts, hended, rfl, hmade, hfinal, hphase⟩ :=
    runs_executed hready hhost hexpects role hinitial s hs
  simp only [Prod.mk.injEq, true_and] at hended
  obtain ⟨rfl, rfl⟩ := hended
  -- their evidence can be written, so it is appended under the subject of the side
  obtain ⟨⟨payload, hpayload⟩, hvalid⟩ :=
    exists_sidePayload hready hmade (hbefore.append hphase.written)
  obtain ⟨scope, hscope⟩ := exists_scope R.service
  obtain ⟨subject, hsubject⟩ := hready.exists_subject role.stage
  have hkind : "run" ≠ "" := by decide
  obtain ⟨reference, record, j, happend, hj, hheld, hreference⟩ :=
    appendRecord_ready hready hs₁.holds hkind payload hscope hsubject
  -- the evidence the runner builds from the captured stage is the evidence of the side
  have hevidence : evidenceOf role index (some result) (before ++ captures) =
      (sideEvidence role index result tree ns (before ++ captures)).toRun := by
    simp [evidenceOf, sideEvidence, CompletedRunEvidence.toRun, hmade.captured, hmade.snapshotNs]
  refine ⟨result, tree, ns, final, captures, posts, reference, record, { s₁ with journal := j }, ?_,
    hs₁.onJournal hj, houtcomes, hmade, hfinal, hphase, hreference, subject, payload, hsubject,
    hheld, hpayload, hvalid⟩
  -- recording it is the one append, with this scope, subject and payload
  have hrecord : Returns (R.service.recordRun R.world
      (evidenceOf role index (some result) (before ++ captures))) s₁.journal
      ⟨role, index, reference, none⟩ j := by
    rw [hevidence]
    unfold BehaviorService.recordRun
    simp only [returns_bind, returns_check, returns_pure, orRaise_eq_ok]
    exact ⟨scope, _, ⟨hscope, rfl⟩, subject, _, ⟨hsubject, rfl⟩, payload, _, ⟨hpayload, rfl⟩,
      reference, j, happend, rfl, rfl⟩
  unfold PairRunner.role
  simp only [returns_bind, if_true]
  refine ⟨_, s₁, hexecuted, ?_⟩
  simp only [Bool.false_eq_true, if_false, returns_bind, returns_pure]
  exact ⟨_, _, returns_onJournal hrecord, by simp [hmade.captured], rfl⟩

/-! ## Section 6: Observations of the runner -/

/-- What the evaluator reads of a check, the runner reads as well. -/
theorem observed_of_made (hready : R.Ready index) {role : StageRole} {digests : List String}
    {binding : CheckBinding} {capture : CheckCapture}
    (h : R.service.CaptureMade role index digests binding capture) :
    ∃ b, observed R.service.decoder capture = .ok (some b) ∧ (binding.phase = .pre → b = true) := by
  -- the runner observes finished processes only, and this one finished
  obtain ⟨limit, number, hdecoder⟩ := hready.decoder
  obtain ⟨b, hobserved, hpre⟩ := h.observed
  -- a check ends with zero: only a probe may end with another code
  have hexit : capture.process.exitCode = some 0 := by
    have haccepted := h.endedWell.exit
    cases hcode : capture.process.exitCode with
    | none => simp [hcode, exitAccepted] at haccepted
    | some code =>
      simp [hcode, exitAccepted] at haccepted
      rw [haccepted]
  have hfinished : capture.process.Finished :=
    ⟨hexit, h.endedWell.ended.1, h.endedWell.ended.2.1, h.endedWell.ended.2.2⟩
  rw [hdecoder] at hobserved ⊢
  obtain ⟨value, hvalue, hholds⟩ := holdsObservation_iff.mp (holds_of_observation hobserved).2
  refine ⟨b, ?_, hpre⟩
  rw [observed_of_finished _ hfinished, hvalue, h.checkId]
  exact congrArg Except.ok hholds

/-- Everything holds before the executors. -/
theorem holds_of_phase (hready : R.Ready index) {role : StageRole} {digests : List String}
    {captures : List CheckCapture} {results : List StageResult}
    (h : R.PhaseMade role index .pre digests captures results) :
    ∀ capture ∈ captures, R.holds capture = .ok true := by
  intro capture hcapture
  obtain ⟨binding, hbinding, hmade⟩ := left_of_mem_forall₂ h.made hcapture
  obtain ⟨b, hobserved, hpre⟩ := observed_of_made hready hmade
  -- what a check before the executors observes is true, where its stage ended well
  rw [holds, hobserved, hpre (BehaviorService.mem_phaseBindings.mp hbinding).2]
  rfl

/-- **The checks before the executors** hold on both sides. -/
theorem runs_preconditions (hready : R.Ready index) (hhost : R.Honest)
    (hexpects : ∀ check ∈ R.service.bound.profile.checks, ExpectsByRole check)
    (hinitial : R.service.context.initial.digestValue R.service.journal.digestBytes =
      some initial) :
    R.Runs records (R.preconditions index) fun found results => found.2.2 = true ∧
      ∃ olds news, results = olds ++ news ∧
        R.PhaseMade .old index .pre [initial] found.1 olds ∧
        R.PhaseMade .new index .pre [initial] found.2.1 news := by
  have hpre : R.Runs records (R.preChecks index) fun found results => found.2.2 = .ok () ∧
      ∃ olds news, results = olds ++ news ∧
        R.PhaseMade .old index .pre [initial] found.1 olds ∧
        R.PhaseMade .new index .pre [initial] found.2.1 news := by
    -- the digest is computed inside the attempt, which is why it is stated as a program of its own
    have hdigest : R.Runs records (R.digestOf R.service.context.initial) fun digest results =>
        digest = initial ∧ results = [] := by
      intro s hs
      exact ⟨initial, [], s, (returns_check _ _ _ _).mpr ⟨(orRaise_eq_ok _ _ _).mpr hinitial, rfl⟩,
        hs, by simp, rfl, rfl⟩
    unfold preChecks
    apply runs_bind (runs_attempt hdigest)
    rintro _ _ ⟨_, rfl, rfl, rfl⟩
    -- first the checks of the old side, then those of the new one
    apply runs_bind (runs_checks hready hhost (wired_pre hready hexpects .old hinitial))
    rintro ⟨old, ended⟩ olds ⟨hended, hold⟩
    obtain rfl : ended = .ok () := hended
    apply runs_bind (runs_checks hready hhost (wired_pre hready hexpects .new hinitial))
    rintro ⟨new, ended⟩ news ⟨hended, hnew⟩
    apply runs_pure
    exact ⟨hended, olds, news, by simp, hold, hnew⟩
  unfold preconditions
  apply runs_bind hpre
  rintro ⟨old, new, ended⟩ results ⟨hended, olds, news, rfl, hold, hnew⟩
  obtain rfl : ended = .ok () := hended
  -- every captured check holds, so the runner goes on
  have hall : (old ++ new).allM R.holds = .ok true := by
    apply allM_eq_ok_true
    intro capture hcapture
    rcases List.mem_append.mp hcapture with hmem | hmem
    · exact holds_of_phase hready hold capture hmem
    · exact holds_of_phase hready hnew capture hmem
  -- nothing was noted against the stages either
  simp only [hall]
  apply runs_select_bind (a := false) fun s hs => by simp [hs.blockers]
  apply runs_pure
  exact ⟨rfl, olds, news, by simp, hold, hnew⟩

/-- The captures of a side are complete. -/
theorem groupComplete_of_made (hready : R.Ready index) {role : StageRole}
    {digests digests' : List String} {pre post : List CheckCapture}
    {results results' : List StageResult} (hpre : R.PhaseMade role index .pre digests pre results)
    (hpost : R.PhaseMade role index .post digests' post results') :
    R.groupComplete (pre ++ post) = .ok true := by
  -- the ids of the captures before and after are those of all checks of the sides
  have hids : ((pre ++ post).map CheckCapture.checkId).Perm
      ((R.service.bound.profile.checks.filter fun binding => binding.phase ≠ .pair).map
        CheckBinding.checkId) := by
    rw [List.map_append, BehaviorService.checkIds_of_made hpre.made,
      BehaviorService.checkIds_of_made hpost.made, ← List.map_append]
    exact (BehaviorService.sideBindings_perm _).map _
  rw [groupComplete, if_pos (List.toFinset_eq_of_perm _ _ hids)]
  apply allM_eq_ok_true
  intro capture hcapture
  have hobserved : ∃ b, observed R.service.decoder capture = .ok (some b) := by
    -- each capture was made by one phase or the other, and is observed there
    rcases List.mem_append.mp hcapture with hmem | hmem
    · obtain ⟨_, _, hmade⟩ := left_of_mem_forall₂ hpre.made hmem
      exact (observed_of_made hready hmade).imp fun _ h => h.1
    · obtain ⟨_, _, hmade⟩ := left_of_mem_forall₂ hpost.made hmem
      exact (observed_of_made hready hmade).imp fun _ h => h.1
  obtain ⟨b, hb⟩ := hobserved
  rw [hb]
  rfl

/-- **The checks of both sides together** are captured as the evaluator asks for. -/
theorem runs_pairChecks (hready : R.Ready index) (hhost : R.Honest)
    (hexpects : ∀ check ∈ R.service.bound.profile.checks, ExpectsByRole check)
    (hinitial : R.service.context.initial.digestValue R.service.journal.digestBytes = some initial)
    (old new : AgentRun) {oldTree newTree : FrozenTree} {oldFinal newFinal : String}
    (hold : oldTree.snapshot.digestValue R.service.journal.digestBytes = some oldFinal)
    (hnew : newTree.snapshot.digestValue R.service.journal.digestBytes = some newFinal) :
    ∃ oldRecord newRecord,
      identity R.service.journal.digestBytes old.record.dump = some oldRecord ∧
      identity R.service.journal.digestBytes new.record.dump = some newRecord ∧
      R.Runs records (R.pairChecks index old new oldTree newTree) fun captures results =>
        R.PhaseMade .pair index .pair [initial, oldFinal, newFinal, oldRecord, newRecord] captures
          results := by
  obtain ⟨oldRecord, holdRecord⟩ := BehaviorService.exists_identity R.service.journal.digestBytes
    (exact_recordRef old.record)
  obtain ⟨newRecord, hnewRecord⟩ := BehaviorService.exists_identity R.service.journal.digestBytes
    (exact_recordRef new.record)
  refine ⟨oldRecord, newRecord, holdRecord, hnewRecord, ?_⟩
  -- the identities of the two records are inputs of the checks, beside the three trees
  unfold pairChecks
  apply digestOf_runs_bind hinitial
  apply digestOf_runs_bind hold
  apply digestOf_runs_bind hnew
  apply runs_check_bind ((orRaise_eq_ok _ _ _).mpr holdRecord)
  apply runs_check_bind ((orRaise_eq_ok _ _ _).mpr hnewRecord)
  apply runs_bind (runs_checks hready hhost (wired_pair hready hexpects hinitial hold hnew))
  rintro ⟨captures, ended⟩ results ⟨hended, hphase⟩
  obtain rfl : ended = .ok () := hended
  apply runs_pure
  rw [List.append_nil]
  exact hphase

end Sides

end PairRunner

end ContractCapsule.Twin
