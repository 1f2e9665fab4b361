import ContractCapsule.Twin.Behavior
import ContractCapsule.Twin.Coverage

/-!
# Evidence that Passed

What the checks of `validate/behavior.py` establish of the evidence of a run and of a pair: who ran
in which stage, in what order, and what was observed. Nothing here reads the journal.

`runPassed_of_runTraces` and `pairPassed_of_checkPair` are the two results that a verdict rests on.
-/

namespace ContractCapsule.Twin

open Library Models Resolve

variable {F : Type} [FloatText F] {ν : Type}

namespace BehaviorService

variable (S : BehaviorService F ν)

/-! ## Section 1: Evidence that passed -/

/-- A process ended by itself, within its limits, in the stage with this subject. -/
structure Completed (process : ProcessCapture) (subject : Option String) (probe : Bool) : Prop where
  subject : subject = some process.subject
  exit : exitAccepted probe process.exitCode = true
  ended : process.terminated = true ∧ process.timedOut = false ∧ process.outputLimited = false
  ordered : process.startedNs ≤ process.finishedNs
  timely : process.finishedNs ≤
    process.startedNs + S.bound.profile.runner.timeoutSeconds * 1000000000

/-- A probe ran on the tree that its binding names, and ended before the check that reads it. -/
structure ProbePassed (role : StageRole) (repetition : ℕ) (inputs : List String) (earliest : ℕ)
    (process : ProcessCapture) (binding : SubjectProbe) (observed : ProcessCapture) : Prop where
  completed : ∃ state, stateOf role inputs binding.inputState = some state ∧
    S.Completed observed (S.stage role repetition binding.probeId [state] []) true
  after : earliest ≤ observed.startedNs
  before : observed.finishedNs ≤ process.startedNs

/-- The capture of a check is of the stage of the check, and so are its probes. -/
structure CapturePassed (binding : CheckBinding) (capture : CheckCapture) (role : StageRole)
    (repetition : ℕ) (inputs : List String) (earliest : ℕ) : Prop where
  probes : List.Forall₂ (S.ProbePassed role repetition inputs earliest capture.process)
    binding.subjectProbes capture.probes
  after : earliest ≤ capture.process.startedNs
  completed : S.Completed capture.process
    (S.stage role repetition binding.checkId inputs capture.probes) false

/-- A check of one side observed what it expects, in its phase. -/
structure CheckPassed (evidence : CompletedRunEvidence) (binding : CheckBinding)
    (capture : CheckCapture) : Prop where
  captured : ∃ inputs earliest, S.CapturePassed binding capture evidence.role.stage
    evidence.repetition inputs earliest
  observed : S.observe binding capture = .ok (expectedOf evidence.role binding)
  before : binding.phase = .pre → capture.process.finishedNs ≤ evidence.executor.startedNs
  after : binding.phase = .post → evidence.snapshotNs ≤ capture.process.startedNs ∧
    ∀ probe ∈ capture.probes, evidence.snapshotNs ≤ probe.startedNs

/-- The captures are one for each of the bindings. -/
structure OneForEach (captures : List CheckCapture) (bindings : List CheckBinding) : Prop where
  each : ∀ binding ∈ bindings, ∃! capture, capture ∈ captures ∧
    capture.checkId = binding.checkId
  known : ∀ capture ∈ captures, ∃ binding ∈ bindings, capture.checkId = binding.checkId

/-- One side passed: its executor and every check of it. -/
structure RunPassed (evidence : CompletedRunEvidence) : Prop where
  executor : ∃ initial, S.context.initial.digestValue S.journal.digestBytes = some initial ∧
    S.Completed evidence.executor
      (S.stage evidence.role.stage evidence.repetition "executor" [initial] []) false
  snapshot : evidence.executor.finishedNs ≤ evidence.snapshotNs
  accepted : S.context.initial.Accepted ∧ evidence.final.Accepted
  once : OneForEach evidence.checks
    (S.bound.profile.checks.filter fun binding => binding.phase ≠ .pair)
  checks : ∀ binding ∈ S.bound.profile.checks, binding.phase ≠ .pair →
    ∀ capture ∈ evidence.checks, capture.checkId = binding.checkId →
      S.CheckPassed evidence binding capture

/-- Every path that a side changed is in scope. -/
def StaysInScope (evidence : CompletedRunEvidence) : Prop :=
  ∀ path, DiffersAt S.context.initial evidence.final path →
    InScope S.bound.request.contract.allowedScope S.bound.request.contract.forbiddenSpillover path

/-- The checks of both sides together observed what they expect, after everything else. -/
structure PairPassed (old new : CompletedRunEvidence) (pair : PairEvidence) : Prop where
  /-- A profile without a check of this phase passes no pair. -/
  compared : ∃ binding ∈ S.bound.profile.checks, binding.phase = .pair
  distinct : (pairContainers old new pair.checks).Nodup
  preconditions : ∀ side ∈ [old, new], ∀ binding ∈ S.bound.profile.checks, binding.phase = .pre →
    ∀ capture ∈ side.checks, capture.checkId = binding.checkId →
      capture.process.finishedNs ≤ old.executor.startedNs ∧
        capture.process.finishedNs ≤ new.executor.startedNs
  once : OneForEach pair.checks
    (S.bound.profile.checks.filter fun binding => binding.phase = .pair)
  checks : ∀ binding ∈ S.bound.profile.checks, binding.phase = .pair →
    ∀ capture ∈ pair.checks, capture.checkId = binding.checkId →
      S.observe binding capture = .ok true ∧
      ∀ process ∈ capture.process :: capture.probes, ∀ earlier ∈ old.checks ++ new.checks,
        earlier.process.finishedNs ≤ process.startedNs

/-! ## Section 2: What the pure checks establish -/

variable {S}

theorem completed_of_checkProcess {capture : ProcessCapture} {expected : String} {probe : Bool}
    (h : S.checkProcess capture expected probe = .ok ()) :
    S.Completed capture (some expected) probe := by
  simp only [checkProcess, raiseIf_eq_ok, not_or, not_not, ne_eq, Bool.not_eq_false,
    Bool.not_eq_true, Nat.not_lt] at h
  obtain ⟨hsubject, hexit, hterminated, htimed, hlimited, hordered, htimely, _⟩ := h
  exact ⟨by rw [hsubject], hexit, ⟨hterminated, htimed, hlimited⟩, hordered, by omega⟩

theorem probePassed_of_checkProbe {role : StageRole} {repetition : ℕ} {inputs : List String}
    {earliest : ℕ} {process : ProcessCapture} {binding : SubjectProbe} {observed : ProcessCapture}
    (h : S.checkProbe role repetition inputs earliest process binding observed = .ok ()) :
    S.ProbePassed role repetition inputs earliest process binding observed := by
  simp only [checkProbe, Except.bind_eq_ok, orRaise_eq_ok, raiseIf_eq_ok, not_or,
    Nat.not_lt] at h
  obtain ⟨state, hstate, expected, hexpected, _, hprocess, hafter, hbefore⟩ := h
  refine ⟨⟨state, hstate, ?_⟩, hafter, hbefore⟩
  rw [hexpected]
  exact completed_of_checkProcess hprocess

theorem capturePassed_of_checkCapture {binding : CheckBinding} {capture : CheckCapture}
    {role : StageRole} {repetition : ℕ} {inputs : List String} {earliest : ℕ}
    (h : S.checkCapture binding capture role repetition inputs earliest = .ok ()) :
    S.CapturePassed binding capture role repetition inputs earliest := by
  simp only [checkCapture, Except.bind_eq_ok, orRaise_eq_ok, raiseIf_eq_ok, not_or, not_not,
    Nat.not_lt, ne_eq] at h
  obtain ⟨_, hlength, _, hprobes, _, ⟨_, hafter⟩, expected, hexpected, hprocess⟩ := h
  rw [checkAll_eq_ok] at hprobes
  refine ⟨?_, hafter, ?_⟩
  · rw [List.forall₂_iff_zip]
    refine ⟨hlength.symm, ?_⟩
    intro probe observed hmem
    exact probePassed_of_checkProbe (hprobes (probe, observed) hmem)
  · rw [hexpected]
    exact completed_of_checkProcess hprocess

theorem rejecting_eq_ok {ε α : Type} {x : Except ε α} {a : α} :
    rejecting x = .ok a ↔ x = .ok a := by
  cases x <;> simp [rejecting]

/-- Captures with the identifiers of bindings that differ in theirs are one for each. -/
theorem oneForEach_of_membership {captures : List CheckCapture} {bindings : List CheckBinding}
    (h : membership captures (bindings.map CheckBinding.checkId) = .ok ()) :
    OneForEach captures bindings := by
  simp only [membership, raiseIf_eq_ok, not_or, not_not, ne_eq] at h
  obtain ⟨hnodup, hsame⟩ := h
  have hmem : ∀ id, id ∈ captures.map CheckCapture.checkId ↔
      id ∈ bindings.map CheckBinding.checkId := by
    intro id
    rw [← List.mem_toFinset, hsame, List.mem_toFinset]
  constructor
  · intro binding hbinding
    obtain ⟨capture, hcapture, hid⟩ :=
      List.mem_map.mp ((hmem binding.checkId).mpr (List.mem_map_of_mem hbinding))
    refine ⟨capture, ⟨hcapture, hid⟩, ?_⟩
    intro other hother
    exact eq_of_key_eq hnodup hother.1 hcapture (hother.2.trans hid.symm)
  · intro capture hcapture
    obtain ⟨binding, hbinding, hid⟩ :=
      List.mem_map.mp ((hmem capture.checkId).mp (List.mem_map_of_mem hcapture))
    exact ⟨binding, hbinding, hid.symm⟩

/-- A check whose trace blocks nothing passed. -/
theorem checkPassed_of_traceOf {evidence : CompletedRunEvidence} {inputs : List String}
    {binding : CheckBinding} {capture : CheckCapture}
    (h : traceBlockers [S.traceOf evidence inputs binding capture] = []) :
    S.CheckPassed evidence binding capture := by
  have hobserved : S.observeCheck evidence inputs binding capture =
      .ok (expectedOf evidence.role binding) := by
    cases hcheck : S.observeCheck evidence inputs binding capture with
    | error e => simp [traceBlockers, traceOf, hcheck, Except.toOption] at h
    | ok b => simpa [traceBlockers, traceOf, hcheck, Except.toOption] using h
  simp only [observeCheck, Except.bind_eq_ok, raiseIf_eq_ok, not_and, Nat.not_lt] at hobserved
  obtain ⟨_, hcapture, _, hbefore, _, hafter, hobserve⟩ := hobserved
  have hpassed := capturePassed_of_checkCapture hcapture
  refine ⟨⟨_, _, hpassed⟩, hobserve, hbefore, ?_⟩
  intro hphase
  refine ⟨hafter hphase, ?_⟩
  intro probe hprobe
  -- a check of this phase counts from the snapshot on
  have hearliest : (if decide (binding.phase = .pre) = true then 0 else evidence.snapshotNs) =
      evidence.snapshotNs := by simp [hphase]
  obtain ⟨_, _, hone⟩ := left_of_mem_forall₂ hpassed.probes hprobe
  rw [hearliest] at hone
  exact hone.after

/-- The blockers of traces are those of each of them. -/
theorem traceBlockers_eq_nil {traces : List CheckTrace} :
    traceBlockers traces = [] ↔ ∀ trace ∈ traces, traceBlockers [trace] = [] := by
  simp only [traceBlockers, List.filterMap_eq_nil_iff, List.mem_singleton, forall_eq]

/-- A run whose payload was read, and whose traces block nothing, passed. -/
theorem runPassed_of_runTraces {evidence : CompletedRunEvidence} {traces : List CheckTrace}
    (haccepted : S.context.initial.Accepted ∧ evidence.final.Accepted)
    (h : S.runTraces evidence = .ok traces) (hblockers : traceBlockers traces = []) :
    S.RunPassed evidence := by
  simp only [runTraces, Except.bind_eq_ok, orRaise_eq_ok, raiseIf_eq_ok, Nat.not_lt] at h
  obtain ⟨initial, hinitial, final, _, expected, hexpected, _, hexecutor, _, hsnapshot, _,
    hmembership, htraces⟩ := h
  refine ⟨⟨initial, hinitial, ?_⟩, hsnapshot, haccepted, oneForEach_of_membership hmembership, ?_⟩
  · rw [hexpected]
    exact completed_of_checkProcess hexecutor
  · intro binding hbinding hphase capture hcapture hid
    have hlisted : binding ∈ S.bound.profile.checks.filter fun binding => binding.phase ≠ .pair := by
      simpa using ⟨hbinding, hphase⟩
    obtain ⟨trace, htrace, hstep⟩ := value_of_mem_mapM htraces hlisted
    simp only [Except.bind_eq_ok, orRaise_eq_ok, Except.pure_eq_ok] at hstep
    obtain ⟨found, hfound, rfl⟩ := hstep
    -- the capture that is found is the one with the identifier
    have hfoundid : found.checkId = binding.checkId := by simpa using List.find?_some hfound
    have hmem := List.mem_reverse.mp (List.mem_of_find?_eq_some hfound)
    obtain ⟨_, _, hunique⟩ := (oneForEach_of_membership hmembership).each binding hlisted
    have hsame : capture = found :=
      (hunique capture ⟨hcapture, hid⟩).trans (hunique found ⟨hmem, hfoundid⟩).symm
    rw [hsame]
    exact checkPassed_of_traceOf (traceBlockers_eq_nil.mp hblockers _ htrace)

/-- What `_read_run` checks of a payload. -/
theorem checkRun_eq_ok {run : AgentRun} {payload : Bytes} {evidence : CompletedRunEvidence}
    (h : S.checkRun run payload = .ok evidence) :
    evidence.payloadBytes = some payload ∧ evidence.role = run.role ∧
      evidence.repetition = run.repetition ∧
      S.context.initial.Accepted ∧ evidence.final.Accepted := by
  simp only [checkRun, Except.bind_eq_ok, orRaise_eq_ok, raiseIf_eq_ok, rejecting_eq_ok, not_or,
    not_not, ne_eq, Prod.mk.injEq, Except.pure_eq_ok] at h
  obtain ⟨found, _, _, ⟨hpayload, hrole, hrepetition⟩, _, _, _, hinitial, _, hfinal, rfl⟩ := h
  exact ⟨hpayload, hrole, hrepetition, accepted_of_validateSnapshot hinitial,
    accepted_of_validateSnapshot hfinal⟩

/-- The preconditions of both sides finished before an executor started. -/
theorem preconditions_of_crossPreconditions {old new : CompletedRunEvidence}
    (h : S.crossPreconditions old new = .ok ()) :
    ∀ side ∈ [old, new], ∀ binding ∈ S.bound.profile.checks, binding.phase = .pre →
      ∀ capture ∈ side.checks, capture.checkId = binding.checkId →
        capture.process.finishedNs ≤ old.executor.startedNs ∧
          capture.process.finishedNs ≤ new.executor.startedNs := by
  simp only [crossPreconditions, raiseIf_eq_ok, Nat.not_lt, Nat.le_min] at h
  intro side hside binding hbinding hphase capture hcapture hid
  have hfinished : capture.process.finishedNs ∈ S.finishedOf .pre side := by
    apply List.mem_map_of_mem
    rw [List.mem_filter, List.any_eq_true]
    exact ⟨hcapture, binding, hbinding, by simp [hphase, hid]⟩
  have hlisted : capture.process.finishedNs ∈ S.finishedOf .pre old ++ S.finishedOf .pre new := by
    rcases List.mem_cons.mp hside with rfl | hside
    · exact List.mem_append_left _ hfinished
    · rw [List.mem_singleton.mp hside] at hfinished
      exact List.mem_append_right _ hfinished
  have hle := List.le_max?_getD_of_mem (k := 0) hlisted
  exact ⟨hle.trans h.1, hle.trans h.2⟩

/-- What `_pair_traces` checks of a payload, when the traces block nothing. -/
theorem pairPassed_of_checkPair {old new : AgentRun} {oldEvidence newEvidence : CompletedRunEvidence}
    {payload : Bytes} {traces : List CheckTrace}
    (hids : (S.bound.profile.checks.map CheckBinding.checkId).Nodup)
    (hcross : S.crossPreconditions oldEvidence newEvidence = .ok ())
    (h : S.checkPair old new oldEvidence newEvidence payload = .ok traces)
    (hblockers : traceBlockers traces = []) :
    ∃ evidence : PairEvidence, evidence.payloadBytes = some payload ∧
      evidence.oldRecord = old.record ∧ evidence.newRecord = new.record ∧
      evidence.repetition = old.repetition ∧ S.PairPassed oldEvidence newEvidence evidence := by
  simp only [checkPair, Except.bind_eq_ok, orRaise_eq_ok, raiseIf_eq_ok, not_or, not_not,
    ne_eq] at h
  obtain ⟨evidence, _, _, ⟨hpayload, hold, hnew, hrepetition⟩, _, hdistinct, _, hsome, _,
    hmembership, initial, _, oldFinal, _, newFinal, _, oldRecord, _, newRecord, _, earliest, hearliest, _,
    hlength, htraces⟩ := h
  have hcompared : ∃ binding ∈ S.bound.profile.checks, binding.phase = .pair := by
    obtain ⟨binding, hbinding⟩ := List.exists_mem_of_ne_nil _ hsome
    rw [List.mem_filter, decide_eq_true_eq] at hbinding
    exact ⟨binding, hbinding⟩
  refine ⟨evidence, hpayload, hold, hnew, hrepetition, hcompared, hdistinct,
    preconditions_of_crossPreconditions hcross, oneForEach_of_membership hmembership, ?_⟩
  intro binding hbinding hphase capture hcapture hid
  -- the capture stands at the place of a binding with its identifier, which is this one
  have hplaces : List.Forall₂ (fun other found => ∃ trace ∈ traces, S.pairTrace old.repetition
      [initial, oldFinal, newFinal, oldRecord, newRecord] earliest other found = .ok trace)
      (S.bound.profile.checks.filter fun binding => binding.phase = .pair) evidence.checks :=
    List.forall₂_iff_zip.mpr ⟨hlength, fun hmem => value_of_mem_mapM htraces hmem⟩
  obtain ⟨other, hother, trace, htrace, hstep⟩ := left_of_mem_forall₂ hplaces hcapture
  simp only [pairTrace, Except.bind_eq_ok, raiseIf_eq_ok, not_or, not_not, Nat.not_lt, ne_eq,
    Except.pure_eq_ok] at hstep
  obtain ⟨_, ⟨hplace, hafter⟩, _, hchecked, observed, hobserved, rfl⟩ := hstep
  obtain rfl : other = binding :=
    eq_of_key_eq hids (List.mem_of_mem_filter hother) hbinding (hplace.trans hid)
  have hpassed := capturePassed_of_checkCapture hchecked
  have htrue : observed = true := by
    simpa [traceBlockers] using traceBlockers_eq_nil.mp hblockers _ htrace
  refine ⟨by rw [hobserved, htrue], ?_⟩
  intro process hprocess earlier hearlier
  have hmax : earlier.process.finishedNs ≤ earliest :=
    (List.max?_eq_some_iff.mp hearliest).2 _ (List.mem_map_of_mem hearlier)
  rcases List.mem_cons.mp hprocess with rfl | hprobe
  · exact hmax.trans hafter
  · obtain ⟨_, _, hone⟩ := left_of_mem_forall₂ hpassed.probes hprobe
    exact hmax.trans hone.after

omit [FloatText F] in
/-- A list of strings has no booleans. -/
theorem unbool_strings (xs : List String) :
    unbool (strings xs : Value F) = strings xs := by
  have hitems : ∀ ys : List String,
      unboolItems (ys.map Json.string : List (Value F)) = ys.map Json.string := by
    intro ys
    induction ys with
    | nil => rfl
    | cons y ys ih => rw [List.map_cons, unboolItems, unbool, ih]
  rw [strings, unbool, hitems]

/-- Equal contracts have the same scopes. -/
theorem scopes_of_checkContract {contract : ReplacementContract (Number F)}
    (h : S.checkContract contract = .ok ()) :
    contract.allowedScope = S.bound.request.contract.allowedScope ∧
      contract.forbiddenSpillover = S.bound.request.contract.forbiddenSpillover := by
  simp only [checkContract, Except.bind_eq_ok, raiseIf_eq_ok, Bool.not_eq_false] at h
  obtain ⟨_, hequal, _⟩ := h
  have hsame : Same (unbool (Canonical.replacementContract contract))
      (unbool (Canonical.replacementContract S.bound.request.contract)) := by
    rw [same_iff]
    exact of_decide_eq_true hequal
  simp only [Canonical.replacementContract, unbool, unboolMembers] at hsame
  have hvalues := values_of_same hsame rfl (by simp)
  simp only [List.map_cons, List.map_nil, List.forall₂_cons, List.forall₂_nil_left_iff, and_true,
    unbool_strings, faithful_strings.same_iff] at hvalues
  obtain ⟨_, _, _, _, _, hallowed, hforbidden, _⟩ := hvalues
  exact ⟨hallowed, hforbidden⟩

/-- A side whose change set is cleared stays in scope. -/
theorem staysInScope_of_scopeViolations {evidence : CompletedRunEvidence}
    {contract : ReplacementContract (Number F)} (hcontract : S.checkContract contract = .ok ())
    (hpassed : S.context.initial.Accepted ∧ evidence.final.Accepted)
    (h : scopeViolations (treeDelta S.context.initial evidence.final) contract.allowedScope
      contract.forbiddenSpillover = .ok false) : S.StaysInScope evidence := by
  obtain ⟨hallowed, hforbidden⟩ := scopes_of_checkContract hcontract
  intro path hdiffers
  rw [hallowed, hforbidden, scopeViolations, anyM_eq_ok_false] at h
  exact inScope_of_violates (h path ((mem_treeDelta hpassed.1 hpassed.2 path).mpr hdiffers))

end BehaviorService

end ContractCapsule.Twin
