import Mathlib.Tactic.Abel
import ContractCapsule.Twin.Acceptance
import ContractCapsule.Twin.Stages

/-!
# Evidence Made as It Should

What the evaluator makes of evidence whose processes are of the stages that it asks for, one after
the other, each in a container of its own. Nothing here reads the journal or runs a stage.

`runTraces_of_made` and `checkPair_of_made` say that such evidence is read, and that it blocks
exactly what its observations call for; `exists_outside` says so of its change sets.
-/

namespace ContractCapsule.Twin

open Library Models Resolve

variable {F : Type} [FloatText F] {ν : Type}

/-! ## Section 1: Captures that were made as they should -/

namespace BehaviorService

variable (S : BehaviorService F ν)

/-- A process ended by itself and within its limits, at times that can be written. -/
structure EndedWell (probe : Bool) (p : ProcessCapture) : Prop where
  exit : exitAccepted probe p.exitCode = true
  ended : p.terminated = true ∧ p.timedOut = false ∧ p.outputLimited = false
  ordered : p.startedNs ≤ p.finishedNs
  timely : p.finishedNs - p.startedNs ≤ S.bound.profile.runner.timeoutSeconds * 1000000000
  limited : p.stdout.length ≤ S.bound.profile.runner.stdoutLimitBytes ∧
    p.stderr.length ≤ S.bound.profile.runner.stderrLimitBytes
  written : p.finishedNs ≤ 2 ^ 53 - 1 ∧ ∀ code ∈ p.exitCode, code.natAbs ≤ 2 ^ 53 - 1

/-- A probe of a capture is of the stage that its binding asks for. -/
def ProbeMade (role : StageRole) (repetition : ℕ) (inputs : List String) (binding : SubjectProbe)
    (p : ProcessCapture) : Prop :=
  ∃ state, stateOf role inputs binding.inputState = some state ∧
    S.stage role repetition binding.probeId [state] [] = some p.subject ∧ S.EndedWell true p

/-- A capture of a check is of the stage that its binding asks for, and prints an observation. -/
structure CaptureMade (role : StageRole) (repetition : ℕ) (inputs : List String)
    (binding : CheckBinding) (capture : CheckCapture) : Prop where
  checkId : capture.checkId = binding.checkId
  probes : List.Forall₂ (S.ProbeMade role repetition inputs) binding.subjectProbes capture.probes
  process : S.stage role repetition binding.checkId inputs capture.probes =
    some capture.process.subject
  endedWell : S.EndedWell false capture.process
  observed : ∃ b, observation S.decoder capture.process.stdout binding.checkId = .ok b ∧
    (binding.phase = .pre → b = true)

variable {S}

theorem checkProcess_of_endedWell {probe : Bool} {p : ProcessCapture} (h : S.EndedWell probe p) :
    S.checkProcess p p.subject probe = .ok () := by
  obtain ⟨hterminated, htimed, hlimited⟩ := h.ended
  obtain ⟨hstdout, hstderr⟩ := h.limited
  simp only [checkProcess, raiseIf_eq_ok, not_or, not_not, ne_eq, h.exit, hterminated, htimed,
    hlimited, Nat.not_lt]
  exact ⟨trivial, by simp, by simp, by simp, by simp, h.ordered, h.timely, hstdout, hstderr⟩

theorem exact_process {probe : Bool} {p : ProcessCapture} (h : S.EndedWell probe p) :
    Exact p.dump := by
  obtain ⟨hfinished, hcode⟩ := h.written
  have hstarted := h.ordered.trans hfinished
  cases hexit : p.exitCode with
  | none =>
    simp [Exact, ProcessCapture.dump, Json.numbersAll, hexit, optionally, base64,
      exact_count hfinished, exact_count hstarted]
  | some code =>
    have hexact := hcode code (by simp [hexit])
    simp [Exact, ProcessCapture.dump, Json.numbersAll, hexit, optionally, base64,
      exact_count hfinished, exact_count hstarted, integer, Number.exact]
    simpa using hexact

theorem exact_processes {ps : List ProcessCapture} (h : ∀ p ∈ ps, Exact p.dump) :
    Exact (listing ProcessCapture.dump ps) := by
  simpa [Exact, listing, Json.numbersAll] using h

theorem CaptureMade.exact {role : StageRole} {repetition : ℕ} {inputs : List String}
    {binding : CheckBinding} {capture : CheckCapture}
    (h : S.CaptureMade role repetition inputs binding capture) : Exact capture.dump := by
  have hprobes : Exact (listing ProcessCapture.dump capture.probes) := by
    apply exact_processes
    intro p hp
    obtain ⟨_, _, _, _, _, hended⟩ := left_of_mem_forall₂ h.probes hp
    exact exact_process hended
  simp [Exact, CheckCapture.dump, Json.numbersAll, hprobes, exact_process h.endedWell]

/-! ## Section 2: Times and containers -/

/-- The processes of captures, in the order in which they were run. -/
def processesOf (captures : List CheckCapture) : List ProcessCapture :=
  captures.flatMap fun capture => capture.probes ++ [capture.process]

/-- One process after the other, each in a container of its own. -/
def Timeline (ps : List ProcessCapture) : Prop :=
  ps.Pairwise fun p q => p.finishedNs ≤ q.startedNs ∧ p.containerId ≠ q.containerId

theorem mem_processesOf {captures : List CheckCapture} {p : ProcessCapture} :
    p ∈ processesOf captures ↔ ∃ capture ∈ captures, p ∈ capture.probes ∨ p = capture.process := by
  simp [processesOf]

/-- The processes of one capture are among those of all of them, in their order. -/
theorem processesOf_sublist {captures : List CheckCapture} {capture : CheckCapture}
    (h : capture ∈ captures) : (processesOf [capture]).Sublist (processesOf captures) :=
  (List.singleton_sublist.mpr h).flatMap _

theorem containers_perm (captures : List CheckCapture) :
    (containers captures).Perm ((processesOf captures).map ProcessCapture.containerId) := by
  induction captures with
  | nil => exact List.Perm.nil
  | cons capture captures ih =>
    simp only [containers, processesOf, List.flatMap_cons, List.map_append, List.map_cons,
      List.map_nil] at ih ⊢
    apply List.Perm.append _ ih
    exact (List.perm_append_singleton _ _).symm

theorem Timeline.containers {ps : List ProcessCapture} (h : Timeline ps) :
    (ps.map ProcessCapture.containerId).Nodup := by
  rw [List.Nodup, List.pairwise_map]
  exact h.imp fun hpair => hpair.2

/-- A capture that was made passes the checks of a capture, from any time before it on. -/
theorem checkCapture_of_made {role : StageRole} {repetition : ℕ} {inputs : List String}
    {binding : CheckBinding} {capture : CheckCapture} {earliest : ℕ}
    (h : S.CaptureMade role repetition inputs binding capture)
    (htimeline : Timeline (processesOf [capture]))
    (hafter : ∀ p ∈ processesOf [capture], earliest ≤ p.startedNs) :
    S.checkCapture binding capture role repetition inputs earliest = .ok () := by
  have hprocesses : processesOf [capture] = capture.probes ++ [capture.process] := by
    simp [processesOf]
  rw [hprocesses] at htimeline hafter
  -- in the order of time the probes come first, so the containers are distinct in any order
  have hnodup : ((capture.process :: capture.probes).map ProcessCapture.containerId).Nodup := by
    apply (List.Perm.nodup_iff ((List.perm_append_singleton _ _).map _)).mp
    exact htimeline.containers
  -- and each probe has ended when the process starts
  have hbefore : ∀ p ∈ capture.probes, p.finishedNs ≤ capture.process.startedNs := by
    intro p hp
    exact ((List.pairwise_append.mp htimeline).2.2 p hp _ (List.mem_singleton_self _)).1
  simp only [checkCapture, Except.bind_eq_ok, orRaise_eq_ok, raiseIf_eq_ok, not_or, not_not,
    Nat.not_lt, ne_eq]
  refine ⟨(), h.probes.length_eq.symm, (), ?_, (), ⟨hnodup,
    hafter _ (List.mem_append_right _ (List.mem_singleton_self _))⟩, _, h.process,
    checkProcess_of_endedWell h.endedWell⟩
  rw [checkAll_eq_ok]
  intro item hitem
  obtain ⟨state, hstate, hsubject, hended⟩ := (List.forall₂_iff_zip.mp h.probes).2 hitem
  have hmem := List.of_mem_zip hitem
  simp only [checkProbe, Except.bind_eq_ok, orRaise_eq_ok, raiseIf_eq_ok, not_or, Nat.not_lt]
  exact ⟨state, hstate, _, hsubject, (), checkProcess_of_endedWell hended,
    hafter _ (List.mem_append_left _ hmem.2), hbefore _ hmem.2⟩

/-! ## Section 3: Runs that were made as they should -/

variable (S)

/-- The bindings of a phase. -/
def phaseBindings (phase : CheckPhase) : List CheckBinding :=
  S.bound.profile.checks.filter fun binding => binding.phase = phase

/-- The evidence of a run is of the stages that the execution asks for, one after the other. -/
structure RunMade (evidence : CompletedRunEvidence) (initial final : String)
    (pre post : List CheckCapture) : Prop where
  initialDigest : S.context.initial.digestValue S.journal.digestBytes = some initial
  finalDigest : evidence.final.digestValue S.journal.digestBytes = some final
  checks : evidence.checks = pre ++ post
  preMade : List.Forall₂ (S.CaptureMade evidence.role.stage evidence.repetition [initial])
    (S.phaseBindings .pre) pre
  postMade : List.Forall₂ (S.CaptureMade evidence.role.stage evidence.repetition [initial, final])
    (S.phaseBindings .post) post
  executor : S.stage evidence.role.stage evidence.repetition "executor" [initial] [] =
    some evidence.executor.subject
  endedWell : S.EndedWell false evidence.executor
  snapshot : evidence.executor.finishedNs ≤ evidence.snapshotNs
  timeline : Timeline (processesOf pre ++ evidence.executor :: processesOf post)
  after : ∀ p ∈ processesOf post, evidence.snapshotNs ≤ p.startedNs

/-- A blocker that the observations of one side call for. -/
def SideCalls (evidence : CompletedRunEvidence) (blocker : String) : Prop :=
  ∃ binding ∈ S.bound.profile.checks, binding.phase ≠ .pair ∧ ∃ capture ∈ evidence.checks,
    capture.checkId = binding.checkId ∧ ∃ observed, S.observe binding capture = .ok observed ∧
      observed ≠ expectedOf evidence.role binding ∧ blocker = failureCode binding.role.text

variable {S}

theorem observe_eq_ok {binding : CheckBinding} {capture : CheckCapture} {b : Bool}
    (h : observation S.decoder capture.process.stdout binding.checkId = .ok b) :
    S.observe binding capture = .ok b := by
  rw [observe, h]
  rfl

theorem mem_phaseBindings {phase : CheckPhase} {binding : CheckBinding} :
    binding ∈ S.phaseBindings phase ↔ binding ∈ S.bound.profile.checks ∧ binding.phase = phase := by
  simp [phaseBindings]

/-- The bindings of one side, phase by phase. -/
theorem sideBindings_perm (checks : List CheckBinding) :
    (checks.filter (fun binding => binding.phase = .pre) ++
      checks.filter (fun binding => binding.phase = .post)).Perm
        (checks.filter fun binding => binding.phase ≠ .pair) := by
  have hsplit := List.filter_append_perm (fun binding : CheckBinding => decide (binding.phase = .pre))
    (checks.filter fun binding => binding.phase ≠ .pair)
  rw [List.filter_filter, List.filter_filter] at hsplit
  have hpre : ∀ binding : CheckBinding, (decide (binding.phase = .pre) &&
      decide (binding.phase ≠ .pair)) = decide (binding.phase = .pre) := by
    intro binding
    cases binding.phase <;> rfl
  have hpost : ∀ binding : CheckBinding, (!decide (binding.phase = .pre) &&
      decide (binding.phase ≠ .pair)) = decide (binding.phase = .post) := by
    intro binding
    cases binding.phase <;> rfl
  simpa only [hpre, hpost] using hsplit

theorem checkIds_of_made {role : StageRole} {repetition : ℕ} {inputs : List String}
    {bindings : List CheckBinding} {captures : List CheckCapture}
    (h : List.Forall₂ (S.CaptureMade role repetition inputs) bindings captures) :
    captures.map CheckCapture.checkId = bindings.map CheckBinding.checkId := by
  induction h with
  | nil => rfl
  | cons hhead _ ih => rw [List.map_cons, List.map_cons, ih, hhead.checkId]

/-- Captures with the identifiers of bindings, in any order, are their members. -/
theorem membership_of_perm {captures : List CheckCapture} {bindings : List CheckBinding}
    (h : (captures.map CheckCapture.checkId).Perm (bindings.map CheckBinding.checkId))
    (hids : (bindings.map CheckBinding.checkId).Nodup) :
    membership captures (bindings.map CheckBinding.checkId) = .ok () := by
  rw [membership, raiseIf_eq_ok, not_or, not_not, not_not]
  exact ⟨h.nodup_iff.mpr hids, List.toFinset_eq_of_perm _ _ h⟩

theorem nodup_filter_ids {checks : List CheckBinding}
    (hids : (checks.map CheckBinding.checkId).Nodup) (p : CheckBinding → Bool) :
    ((checks.filter p).map CheckBinding.checkId).Nodup :=
  hids.sublist (List.filter_sublist.map _)

section Made

variable {evidence : CompletedRunEvidence} {initial final : String} {pre post : List CheckCapture}

/-- The captures of a side are those of its bindings. -/
theorem RunMade.membership (h : S.RunMade evidence initial final pre post)
    (hids : (S.bound.profile.checks.map CheckBinding.checkId).Nodup) :
    membership evidence.checks ((S.bound.profile.checks.filter fun binding =>
      binding.phase ≠ .pair).map CheckBinding.checkId) = .ok () := by
  apply membership_of_perm _ (nodup_filter_ids hids _)
  rw [h.checks, List.map_append, checkIds_of_made h.preMade, checkIds_of_made h.postMade,
    ← List.map_append]
  exact (sideBindings_perm _).map _

/-- The containers of a side are those of its processes. -/
theorem RunMade.distinct (h : S.RunMade evidence initial final pre post) :
    (containers evidence.checks ++ [evidence.executor.containerId]).Nodup := by
  have hperm : (containers evidence.checks ++ [evidence.executor.containerId]).Perm
      ((processesOf pre ++ evidence.executor :: processesOf post).map
        ProcessCapture.containerId) := by
    rw [h.checks]
    have hflat := containers_perm (pre ++ post)
    rw [← Multiset.coe_eq_coe] at hflat ⊢
    rw [← Multiset.coe_add, hflat]
    simp only [processesOf, List.flatMap_append, List.map_append, List.map_cons, ← Multiset.coe_add,
      ← Multiset.cons_coe, ← Multiset.singleton_add, Multiset.coe_nil, add_zero]
    abel
  exact hperm.nodup_iff.mpr h.timeline.containers

/-- A capture of a side passes its checks, and its observation is what it prints. -/
theorem RunMade.observeCheck (h : S.RunMade evidence initial final pre post)
    {binding : CheckBinding} {capture : CheckCapture}
    (hmade : (capture ∈ pre ∧ binding.phase = .pre ∧
        S.CaptureMade evidence.role.stage evidence.repetition [initial] binding capture) ∨
      (capture ∈ post ∧ binding.phase = .post ∧
        S.CaptureMade evidence.role.stage evidence.repetition [initial, final] binding capture)) :
    ∃ b, S.observeCheck evidence [initial, final] binding capture = .ok b ∧
      S.observe binding capture = .ok b := by
  -- a capture before the executor ends before it starts; one after it starts after the snapshot
  have hbefore := (List.pairwise_append.mp h.timeline).2.2
  have hparts := List.pairwise_append.mp h.timeline
  rcases hmade with ⟨hmem, hpre, hmade⟩ | ⟨hmem, hpost, hmade⟩
  · obtain ⟨b, hobserved, _⟩ := hmade.observed
    have hfirst : Timeline (processesOf [capture]) :=
      hparts.1.sublist (processesOf_sublist hmem)
    have hcapture : S.checkCapture binding capture evidence.role.stage evidence.repetition
        [initial] 0 = .ok () :=
      checkCapture_of_made hmade hfirst fun _ _ => Nat.zero_le _
    have hdone : capture.process.finishedNs ≤ evidence.executor.startedNs :=
      (hbefore _ (mem_processesOf.mpr ⟨capture, hmem, .inr rfl⟩) _ List.mem_cons_self).1
    refine ⟨b, ?_, observe_eq_ok hobserved⟩
    simp only [BehaviorService.observeCheck, Except.bind_eq_ok, raiseIf_eq_ok, hpre]
    exact ⟨(), by simpa using hcapture, (), by simpa using hdone, (), by simp,
      observe_eq_ok hobserved⟩
  · obtain ⟨b, hobserved, _⟩ := hmade.observed
    have hlast : Timeline (processesOf [capture]) :=
      (List.pairwise_cons.mp hparts.2.1).2.sublist (processesOf_sublist hmem)
    have hafter : ∀ p ∈ processesOf [capture], evidence.snapshotNs ≤ p.startedNs :=
      fun p hp => h.after p ((processesOf_sublist hmem).subset hp)
    have hcapture := checkCapture_of_made hmade hlast hafter
    have hstarted := h.after capture.process (mem_processesOf.mpr ⟨capture, hmem, .inr rfl⟩)
    refine ⟨b, ?_, observe_eq_ok hobserved⟩
    simp only [BehaviorService.observeCheck, Except.bind_eq_ok, raiseIf_eq_ok, hpost]
    exact ⟨(), by simpa using hcapture, (), by simp, (), by simpa using hstarted,
      observe_eq_ok hobserved⟩

/-- A binding of a side has a capture that was made for it. -/
theorem RunMade.capture (h : S.RunMade evidence initial final pre post) {binding : CheckBinding}
    (hbinding : binding ∈ S.bound.profile.checks) (hphase : binding.phase ≠ .pair) :
    ∃ capture ∈ evidence.checks, capture.checkId = binding.checkId ∧
      ((capture ∈ pre ∧ binding.phase = .pre ∧
        S.CaptureMade evidence.role.stage evidence.repetition [initial] binding capture) ∨
      (capture ∈ post ∧ binding.phase = .post ∧
        S.CaptureMade evidence.role.stage evidence.repetition [initial, final] binding
          capture)) := by
  rw [h.checks]
  cases hkind : binding.phase with
  | pre =>
    obtain ⟨capture, hcapture, hmade⟩ :=
      left_of_mem_forall₂ h.preMade.flip (mem_phaseBindings.mpr ⟨hbinding, hkind⟩)
    exact ⟨capture, List.mem_append_left _ hcapture, hmade.checkId, .inl ⟨hcapture, rfl, hmade⟩⟩
  | post =>
    obtain ⟨capture, hcapture, hmade⟩ :=
      left_of_mem_forall₂ h.postMade.flip (mem_phaseBindings.mpr ⟨hbinding, hkind⟩)
    exact ⟨capture, List.mem_append_right _ hcapture, hmade.checkId, .inr ⟨hcapture, rfl, hmade⟩⟩
  | pair => exact absurd hkind hphase

/-- The trace of a capture with an observation blocks when the observation is unexpected. -/
theorem mem_traceBlockers_traceOf {inputs : List String} {binding : CheckBinding}
    {capture : CheckCapture} {b : Bool}
    (h : S.observeCheck evidence inputs binding capture = .ok b) {blocker : String} :
    blocker ∈ traceBlockers [S.traceOf evidence inputs binding capture] ↔
      b ≠ expectedOf evidence.role binding ∧ blocker = failureCode binding.role.text := by
  by_cases hexpected : b = expectedOf evidence.role binding
  · simp [traceBlockers, traceOf, h, Except.toOption, hexpected]
  · have hblocks : traceBlockers [S.traceOf evidence inputs binding capture] =
        [failureCode binding.role.text] := by
      simp [traceBlockers, traceOf, h, Except.toOption, hexpected]
    rw [hblocks, List.mem_singleton, and_iff_right hexpected]

theorem mem_traceBlockers {traces : List CheckTrace} {blocker : String} :
    blocker ∈ traceBlockers traces ↔ ∃ trace ∈ traces, blocker ∈ traceBlockers [trace] := by
  simp [traceBlockers]

/-- **A run that was made as it should is read**, and its traces block what its observations call
for. -/
theorem runTraces_of_made (h : S.RunMade evidence initial final pre post)
    (hids : (S.bound.profile.checks.map CheckBinding.checkId).Nodup) :
    ∃ traces, S.runTraces evidence = .ok traces ∧
      ∀ blocker, blocker ∈ traceBlockers traces ↔ S.SideCalls evidence blocker := by
  -- captures are found by their ids, which are distinct, so each is found again
  have hmembership := h.membership hids
  have hcaptureIds : (evidence.checks.map CheckCapture.checkId).Nodup := by
    rw [Twin.membership, raiseIf_eq_ok, not_or, not_not] at hmembership
    exact hmembership.1
  have hfind : ∀ capture ∈ evidence.checks, (evidence.checks.reverse.find? fun other =>
      other.checkId = capture.checkId) = some capture := by
    intro capture hcapture
    apply find?_eq_some_of_nodup
    · rw [List.map_reverse]
      exact List.nodup_reverse.mpr hcaptureIds
    · exact List.mem_reverse.mpr hcapture
  -- every binding of a side has its capture, so every step of the reading succeeds
  have hsteps : ∀ binding ∈ S.bound.profile.checks.filter fun binding => binding.phase ≠ .pair,
      ∃ trace, (do
        let capture ← orRaise (evidence.checks.reverse.find? fun capture : CheckCapture =>
          capture.checkId = binding.checkId) RecordError.rejected
        pure (S.traceOf evidence [initial, final] binding capture)) = .ok trace := by
    intro binding hbinding
    rw [List.mem_filter, decide_eq_true_eq] at hbinding
    obtain ⟨capture, hcapture, hid, _⟩ := h.capture hbinding.1 hbinding.2
    rw [← hid, hfind capture hcapture]
    exact ⟨_, rfl⟩
  obtain ⟨traces, htraces⟩ := exists_mapM hsteps
  refine ⟨traces, ?_, ?_⟩
  · simp only [runTraces, Except.bind_eq_ok, orRaise_eq_ok, raiseIf_eq_ok, Nat.not_lt]
    exact ⟨initial, h.initialDigest, final, h.finalDigest, _, h.executor, (),
      checkProcess_of_endedWell h.endedWell, (), h.snapshot, (), hmembership, htraces⟩
  · intro blocker
    rw [mem_traceBlockers]
    constructor
    -- a blocker of the traces belongs to one trace, and that trace to one binding
    · intro hblocked
      obtain ⟨trace, htrace, hblocker⟩ := hblocked
      obtain ⟨binding, hbinding, hstep⟩ := exists_of_mem_mapM htraces htrace
      rw [List.mem_filter, decide_eq_true_eq] at hbinding
      obtain ⟨capture, hcapture, hid, hmade⟩ := h.capture hbinding.1 hbinding.2
      obtain ⟨b, hobserved, hobserve⟩ := h.observeCheck hmade
      rw [← hid, hfind capture hcapture] at hstep
      obtain rfl := Except.ok.inj hstep
      rw [mem_traceBlockers_traceOf hobserved] at hblocker
      exact ⟨binding, hbinding.1, hbinding.2, capture, hcapture, hid, b, hobserve, hblocker⟩
    · intro hcalled
      -- the capture that calls for the blocker is the one that was made for its binding
      obtain ⟨binding, hbinding, hphase, capture, hcapture, hid, b, hobserve, hblocker⟩ := hcalled
      obtain ⟨made, hmem, hmadeId, hmade⟩ := h.capture hbinding hphase
      obtain rfl := eq_of_key_eq hcaptureIds hcapture hmem (hid.trans hmadeId.symm)
      obtain ⟨b', hobserved, hobserve'⟩ := h.observeCheck hmade
      obtain rfl : b = b' := Except.ok.inj (hobserve.symm.trans hobserve')
      obtain ⟨trace, htrace, hstep⟩ := value_of_mem_mapM htraces
        (List.mem_filter.mpr ⟨hbinding, by simpa using hphase⟩)
      rw [← hid, hfind capture hcapture] at hstep
      obtain rfl := Except.ok.inj hstep
      exact ⟨_, htrace, (mem_traceBlockers_traceOf hobserved).mpr hblocker⟩

end Made

/-! ## Section 4: Pairs that were made as they should -/

variable (S)

/-- The captures of a pair, phase by phase. -/
structure PairCaptures where
  oldPre : List CheckCapture
  newPre : List CheckCapture
  oldPost : List CheckCapture
  newPost : List CheckCapture
  paired : List CheckCapture

/-- The processes of a pair, in the order in which they were run. -/
def PairCaptures.processes (c : PairCaptures) (old new : ProcessCapture) : List ProcessCapture :=
  processesOf c.oldPre ++ (processesOf c.newPre ++ (old :: (processesOf c.oldPost ++
    (new :: (processesOf c.newPost ++ processesOf c.paired)))))

/-- The evidence of a pair is of the stages that the execution asks for, one after the other. -/
structure PairMade (old new : AgentRun) (oldEvidence newEvidence : CompletedRunEvidence)
    (c : PairCaptures) (initial oldFinal newFinal oldRecord newRecord : String) : Prop where
  oldMade : S.RunMade oldEvidence initial oldFinal c.oldPre c.oldPost
  newMade : S.RunMade newEvidence initial newFinal c.newPre c.newPost
  oldRecordDigest : identity S.journal.digestBytes old.record.dump = some oldRecord
  newRecordDigest : identity S.journal.digestBytes new.record.dump = some newRecord
  pairMade : List.Forall₂ (S.CaptureMade .pair old.repetition
    [initial, oldFinal, newFinal, oldRecord, newRecord]) (S.phaseBindings .pair) c.paired
  timeline : Timeline (c.processes oldEvidence.executor newEvidence.executor)

/-- A blocker that the observations of both sides together call for. -/
def PairCalls (captures : List CheckCapture) (blocker : String) : Prop :=
  ∃ binding ∈ S.bound.profile.checks, binding.phase = .pair ∧ ∃ capture ∈ captures,
    capture.checkId = binding.checkId ∧ S.observe binding capture = .ok false ∧
      blocker = failureCode binding.role.text

variable {S}

section Paired

variable {old new : AgentRun} {oldEvidence newEvidence : CompletedRunEvidence} {c : PairCaptures}
  {initial oldFinal newFinal oldRecord newRecord : String}

/-- The containers of a pair are those of its processes. -/
theorem PairMade.containers (h : S.PairMade old new oldEvidence newEvidence c initial oldFinal
    newFinal oldRecord newRecord) : (pairContainers oldEvidence newEvidence c.paired).Nodup := by
  have hperm : (pairContainers oldEvidence newEvidence c.paired).Perm
      ((c.processes oldEvidence.executor newEvidence.executor).map ProcessCapture.containerId) := by
    rw [pairContainers, h.oldMade.checks, h.newMade.checks]
    have hflat := containers_perm (c.oldPre ++ c.oldPost ++ (c.newPre ++ c.newPost) ++ c.paired)
    rw [← Multiset.coe_eq_coe] at hflat ⊢
    rw [← Multiset.coe_add, hflat]
    simp only [PairCaptures.processes, processesOf, List.flatMap_append, List.map_append,
      List.map_cons, ← Multiset.coe_add, ← Multiset.cons_coe, ← Multiset.singleton_add,
      Multiset.coe_nil, add_zero]
    abel
  exact hperm.nodup_iff.mpr h.timeline.containers

theorem le_of_max?_getD {xs : List ℕ} {n : ℕ} (h : ∀ x ∈ xs, x ≤ n) : xs.max?.getD 0 ≤ n := by
  cases hmax : xs.max? with
  | none => exact Nat.zero_le n
  | some k => exact h k (List.max?_mem hmax)

/-- What comes first in a time line finished before what comes later. -/
theorem Timeline.before {ps qs : List ProcessCapture} (h : Timeline (ps ++ qs))
    {p q : ProcessCapture} (hp : p ∈ ps) (hq : q ∈ qs) : p.finishedNs ≤ q.startedNs :=
  ((List.pairwise_append.mp h).2.2 p hp q hq).1

theorem process_mem_processesOf {captures : List CheckCapture} {capture : CheckCapture}
    (h : capture ∈ captures) : capture.process ∈ processesOf captures :=
  mem_processesOf.mpr ⟨capture, h, .inr rfl⟩

/-- The checks of both sides are done before those of the pair start. -/
theorem PairMade.before_paired (h : S.PairMade old new oldEvidence newEvidence c initial oldFinal
    newFinal oldRecord newRecord) {capture : CheckCapture}
    (hcapture : capture ∈ oldEvidence.checks ++ newEvidence.checks) {p : ProcessCapture}
    (hp : p ∈ processesOf c.paired) : capture.process.finishedNs ≤ p.startedNs := by
  have htimeline := h.timeline
  simp only [PairCaptures.processes, ← List.append_assoc, ← List.cons_append] at htimeline
  apply htimeline.before _ hp
  rw [h.oldMade.checks, h.newMade.checks] at hcapture
  simp only [List.mem_append] at hcapture
  rcases hcapture with (hmem | hmem) | (hmem | hmem) <;>
    simp [process_mem_processesOf hmem]

/-- The checks that precede the executors are done before either of them starts. -/
theorem PairMade.before_executors (h : S.PairMade old new oldEvidence newEvidence c initial oldFinal
    newFinal oldRecord newRecord) {capture : CheckCapture} (hcapture : capture ∈ c.oldPre ++ c.newPre) :
    capture.process.finishedNs ≤ oldEvidence.executor.startedNs ∧
      capture.process.finishedNs ≤ newEvidence.executor.startedNs := by
  have htimeline := h.timeline
  simp only [PairCaptures.processes, ← List.append_assoc] at htimeline
  have hmem : capture.process ∈ processesOf c.oldPre ++ processesOf c.newPre := by
    rcases List.mem_append.mp hcapture with hold | hnew
    · exact List.mem_append_left _ (process_mem_processesOf hold)
    · exact List.mem_append_right _ (process_mem_processesOf hnew)
  exact ⟨htimeline.before hmem (by simp), htimeline.before hmem (by simp)⟩

/-- The checks of a phase of a run, told by its identifiers, are those that were made for it. -/
theorem RunMade.finishedOf_pre {evidence : CompletedRunEvidence} {final : String}
    {pre post : List CheckCapture} (h : S.RunMade evidence initial final pre post)
    (hids : (S.bound.profile.checks.map CheckBinding.checkId).Nodup) {n : ℕ}
    (hn : n ∈ S.finishedOf .pre evidence) : ∃ capture ∈ pre, n = capture.process.finishedNs := by
  obtain ⟨capture, hfound, rfl⟩ := List.mem_map.mp hn
  obtain ⟨hcapture, hany⟩ := List.mem_filter.mp hfound
  obtain ⟨binding, hbinding, hphase⟩ := List.any_eq_true.mp hany
  obtain ⟨hpre, hid⟩ := of_decide_eq_true hphase
  rw [h.checks] at hcapture
  rcases List.mem_append.mp hcapture with hmem | hmem
  · exact ⟨capture, hmem, rfl⟩
  · -- a capture of the other phase has the identifier of a binding of that phase
    obtain ⟨other, hother, hmade⟩ := left_of_mem_forall₂ h.postMade hmem
    obtain ⟨hlisted, hpost⟩ := mem_phaseBindings.mp hother
    obtain rfl := eq_of_key_eq hids hlisted hbinding (hmade.checkId.symm.trans hid.symm)
    rw [hpre] at hpost
    cases hpost

theorem crossPreconditions_of_made (h : S.PairMade old new oldEvidence newEvidence c initial oldFinal
    newFinal oldRecord newRecord)
    (hids : (S.bound.profile.checks.map CheckBinding.checkId).Nodup) :
    S.crossPreconditions oldEvidence newEvidence = .ok () := by
  rw [crossPreconditions, raiseIf_eq_ok, Nat.not_lt]
  apply le_of_max?_getD
  intro n hn
  have hcapture : ∃ capture ∈ c.oldPre ++ c.newPre, n = capture.process.finishedNs := by
    rcases List.mem_append.mp hn with hold | hnew
    · obtain ⟨capture, hcapture, heq⟩ := h.oldMade.finishedOf_pre hids hold
      exact ⟨capture, List.mem_append_left _ hcapture, heq⟩
    · obtain ⟨capture, hcapture, heq⟩ := h.newMade.finishedOf_pre hids hnew
      exact ⟨capture, List.mem_append_right _ hcapture, heq⟩
  obtain ⟨capture, hcapture, rfl⟩ := hcapture
  exact Nat.le_min.mpr (h.before_executors hcapture)

/-- **A pair that was made as it should is read**, and its traces block what its observations call
for. -/
theorem checkPair_of_made (h : S.PairMade old new oldEvidence newEvidence c initial oldFinal
    newFinal oldRecord newRecord) (hids : (S.bound.profile.checks.map CheckBinding.checkId).Nodup)
    (hcompared : S.phaseBindings .pair ≠ []) (hsides : oldEvidence.checks ++ newEvidence.checks ≠ [])
    {evidence : PairEvidence} {payload : Bytes} (hparse : S.parsePair payload = some evidence)
    (hpayload : evidence.payloadBytes = some payload) (hold : evidence.oldRecord = old.record)
    (hnew : evidence.newRecord = new.record) (hrepetition : evidence.repetition = old.repetition)
    (hchecks : evidence.checks = c.paired) :
    ∃ traces, S.checkPair old new oldEvidence newEvidence payload = .ok traces ∧
      ∀ blocker, blocker ∈ traceBlockers traces ↔ S.PairCalls c.paired blocker := by
  have hmembership : membership evidence.checks ((S.phaseBindings .pair).map CheckBinding.checkId) =
      .ok () := by
    apply membership_of_perm _ (nodup_filter_ids hids _)
    rw [hchecks, checkIds_of_made h.pairMade]
    exact List.Perm.refl _
  obtain ⟨earliest, hearliest⟩ : ∃ earliest, ((oldEvidence.checks ++ newEvidence.checks).map
      fun capture => capture.process.finishedNs).max? = some earliest := by
    rw [← Option.isSome_iff_exists, List.isSome_max?_iff, ne_eq, List.map_eq_nil_iff]
    exact hsides
  have hafter : ∀ p ∈ processesOf c.paired, earliest ≤ p.startedNs := by
    intro p hp
    obtain ⟨capture, hcapture, heq⟩ := List.mem_map.mp (List.max?_mem hearliest)
    rw [← heq]
    exact h.before_paired hcapture hp
  have hpaired : Timeline (processesOf c.paired) := by
    have htimeline := h.timeline
    simp only [PairCaptures.processes, ← List.append_assoc, ← List.cons_append] at htimeline
    exact (List.pairwise_append.mp htimeline).2.1
  -- every capture stands at the place of its binding, and is traced as what it observed
  have hsteps : ∀ item ∈ (S.phaseBindings .pair).zip evidence.checks, ∃ b,
      S.observe item.1 item.2 = .ok b ∧
      S.pairTrace old.repetition [initial, oldFinal, newFinal, oldRecord, newRecord] earliest item.1
        item.2 = .ok ⟨item.1.checkId, item.1.role.text, some b, true, true⟩ := by
    intro item hitem
    rw [hchecks] at hitem
    have hmade := (List.forall₂_iff_zip.mp h.pairMade).2 hitem
    have hmem := (List.of_mem_zip hitem).2
    obtain ⟨b, hobserved, _⟩ := hmade.observed
    have hwithin := processesOf_sublist hmem
    have hcapture := checkCapture_of_made hmade (hpaired.sublist hwithin) fun p hp =>
      hafter p (hwithin.subset hp)
    refine ⟨b, observe_eq_ok hobserved, ?_⟩
    simp only [pairTrace, Except.bind_eq_ok, raiseIf_eq_ok, not_or, not_not, Nat.not_lt, ne_eq]
    exact ⟨(), ⟨hmade.checkId.symm, hafter _ (process_mem_processesOf hmem)⟩, (), hcapture, b,
      observe_eq_ok hobserved, rfl⟩
  have htraced : ∀ item ∈ (S.phaseBindings .pair).zip evidence.checks, ∃ trace,
      S.pairTrace old.repetition [initial, oldFinal, newFinal, oldRecord, newRecord] earliest item.1
        item.2 = .ok trace := by
    intro item hitem
    obtain ⟨b, _, htrace⟩ := hsteps item hitem
    exact ⟨_, htrace⟩
  obtain ⟨traces, htraces⟩ := exists_mapM htraced
  have hblocks : ∀ (binding : CheckBinding) (b : Bool) (blocker : String),
      blocker ∈ traceBlockers [⟨binding.checkId, binding.role.text, some b, true, true⟩] ↔
        b = false ∧ blocker = failureCode binding.role.text := by
    intro binding b blocker
    cases b <;> simp [traceBlockers]
  refine ⟨traces, ?_, ?_⟩
  · simp only [checkPair, Except.bind_eq_ok, orRaise_eq_ok, raiseIf_eq_ok, not_or, not_not, ne_eq]
    refine ⟨evidence, hparse, (), ⟨hpayload, hold, hnew, hrepetition⟩, (), ?_, (), hcompared, (),
      hmembership, initial, h.oldMade.initialDigest, oldFinal, h.oldMade.finalDigest, newFinal,
      h.newMade.finalDigest, oldRecord, h.oldRecordDigest, newRecord, h.newRecordDigest, earliest,
      hearliest, (), ?_, htraces⟩
    · rw [hchecks]
      exact h.containers
    · rw [hchecks]
      exact h.pairMade.length_eq
  · intro blocker
    rw [mem_traceBlockers]
    constructor
    · intro hblocked
      obtain ⟨trace, htrace, hblocker⟩ := hblocked
      obtain ⟨item, hitem, hstep⟩ := exists_of_mem_mapM htraces htrace
      obtain ⟨b, hobserve, hb⟩ := hsteps item hitem
      obtain rfl := Except.ok.inj (hstep.symm.trans hb)
      obtain ⟨rfl, hcode⟩ := (hblocks _ _ _).mp hblocker
      rw [hchecks] at hitem
      have hmade := (List.forall₂_iff_zip.mp h.pairMade).2 hitem
      obtain ⟨hbinding, hphase⟩ := mem_phaseBindings.mp (List.of_mem_zip hitem).1
      exact ⟨item.1, hbinding, hphase, item.2, (List.of_mem_zip hitem).2, hmade.checkId, hobserve,
        hcode⟩
    · intro hcalled
      obtain ⟨binding, hbinding, hphase, capture, hcapture, hid, hobserve, hcode⟩ := hcalled
      -- the capture with the identifier of a binding stands at its place
      have hplace : ∃ other, (other, capture) ∈ (S.phaseBindings .pair).zip evidence.checks := by
        rw [hchecks]
        obtain ⟨n, hn, hget⟩ := List.getElem_of_mem hcapture
        have hlength := h.pairMade.length_eq
        have hn' : n < (S.phaseBindings .pair).length := by omega
        refine ⟨(S.phaseBindings .pair)[n], List.mem_iff_getElem.mpr ⟨n, ?_, ?_⟩⟩
        · rw [List.length_zip]
          exact Nat.lt_min.mpr ⟨hn', hn⟩
        · rw [List.getElem_zip, hget]
      obtain ⟨other, hplace⟩ := hplace
      have hmade := (List.forall₂_iff_zip.mp h.pairMade).2 (hchecks ▸ hplace)
      have hlisted := (mem_phaseBindings.mp (List.of_mem_zip hplace).1).1
      obtain rfl := eq_of_key_eq hids hlisted hbinding (hmade.checkId.symm.trans hid)
      obtain ⟨b, hobserve', hb⟩ := hsteps _ hplace
      obtain rfl : b = false := Except.ok.inj (hobserve'.symm.trans hobserve)
      obtain ⟨trace, htrace, hstep⟩ := value_of_mem_mapM htraces hplace
      obtain rfl := Except.ok.inj (hstep.symm.trans hb)
      exact ⟨_, htrace, (hblocks _ _ _).mpr ⟨rfl, hcode⟩⟩

end Paired

/-! ## Section 5: Scopes -/

/-- **The check of the scope answers** for accepted snapshots when the scopes are well formed, and it
blocks exactly when a path that differs is out of scope. -/
theorem exists_scopeViolations {before after : Snapshot} (hbefore : before.Accepted)
    (hafter : after.Accepted) {allowed forbidden : List String}
    (hscopes : ∀ pattern ∈ allowed ++ forbidden, WellFormed pattern) :
    ∃ outside, scopeViolations (treeDelta before after) allowed forbidden = .ok outside ∧
      (outside = true ↔ ∃ path, DiffersAt before after path ∧ ¬ InScope allowed forbidden path) := by
  have hmem := mem_treeDelta hbefore hafter
  -- every path of the difference is a path of an accepted snapshot, so it splits into segments
  have hpaths : ∀ path ∈ treeDelta before after,
      ∃ parts, path ≠ "." → Resolve.segments path false = .ok parts := by
    intro path hpath
    by_cases hroot : path = "."
    · exact ⟨[], fun h => absurd hroot h⟩
    · rcases (hmem path).mp hpath with ⟨⟨e, he, rfl⟩, _⟩ | ⟨⟨e, he, rfl⟩, _⟩ | ⟨e, he, _, _, rfl, _⟩
      · exact (hbefore.segments he hroot).imp fun _ h _ => h
      · exact (hafter.segments he hroot).imp fun _ h _ => h
      · exact (hbefore.segments he hroot).imp fun _ h _ => h
  have hone : ∀ path ∈ treeDelta before after,
      violates allowed forbidden path = .ok false ↔ InScope allowed forbidden path := by
    intro path hpath
    obtain ⟨parts, hparts⟩ := hpaths path hpath
    exact violates_eq_ok_false_iff hparts hscopes
  -- an error would come from a malformed pattern, and there is none
  cases hchecked : scopeViolations (treeDelta before after) allowed forbidden with
  | error e =>
    obtain ⟨path, hpath, hraise⟩ := exists_of_anyM_eq_error hchecked
    obtain ⟨parts, hparts⟩ := hpaths path hpath
    obtain ⟨_, pattern, hpattern, hmalformed⟩ := malformed_of_violates hparts hraise
    exact absurd (hscopes pattern hpattern) hmalformed
  | ok outside =>
    refine ⟨outside, rfl, ?_⟩
    have hcleared : outside = false ↔
        ∀ path, DiffersAt before after path → InScope allowed forbidden path := by
      have hall : scopeViolations (treeDelta before after) allowed forbidden = .ok false ↔
          ∀ path ∈ treeDelta before after, violates allowed forbidden path = .ok false :=
        anyM_eq_ok_false
      rw [hchecked, Except.ok.injEq] at hall
      rw [hall]
      constructor
      · intro h path hpath
        exact (hone path ((hmem path).mpr hpath)).mp (h path ((hmem path).mpr hpath))
      · intro h path hpath
        exact (hone path hpath).mpr (h path ((hmem path).mp hpath))
    rw [← Bool.not_eq_false, hcleared]
    simp only [not_forall, exists_prop]

variable (S)

/-- A side changed a path that is out of scope. -/
def LeavesScope (evidence : CompletedRunEvidence) : Prop :=
  ∃ path, DiffersAt S.context.initial evidence.final path ∧
    ¬ InScope S.bound.request.contract.allowedScope S.bound.request.contract.forbiddenSpillover path

/-- A blocker that the evidence of a pair calls for: an observation of a side or of both together is
not what is expected, or a side leaves the scope. -/
def Calls (old new : CompletedRunEvidence) (paired : List CheckCapture) (blocker : String) : Prop :=
  S.SideCalls old blocker ∨ S.SideCalls new blocker ∨ S.PairCalls paired blocker ∨
    (S.LeavesScope old ∨ S.LeavesScope new) ∧ blocker = "SCOPE_VIOLATION"

variable {S}

/-- The check of the scope over both sides. -/
theorem exists_outside (old new : CompletedRunEvidence) (hinitial : S.context.initial.Accepted)
    (hold : old.final.Accepted) (hnew : new.final.Accepted)
    (hscopes : ∀ pattern ∈ S.bound.request.contract.allowedScope ++
      S.bound.request.contract.forbiddenSpillover, WellFormed pattern) :
    ∃ outside, ([treeDelta S.context.initial old.final, treeDelta S.context.initial new.final].anyM
        fun delta => scopeViolations delta S.bound.request.contract.allowedScope
          S.bound.request.contract.forbiddenSpillover) = .ok outside ∧
      (outside = true ↔ S.LeavesScope old ∨ S.LeavesScope new) := by
  obtain ⟨first, hfirst, hfirstIff⟩ := exists_scopeViolations hinitial hold hscopes
  obtain ⟨second, hsecond, hsecondIff⟩ := exists_scopeViolations hinitial hnew hscopes
  refine ⟨first || second, ?_, ?_⟩
  · simp only [List.anyM, hfirst, hsecond, Except.ok_bind]
    cases first <;> cases second <;> rfl
  · rw [Bool.or_eq_true, hfirstIff, hsecondIff]
    rfl

end BehaviorService

end ContractCapsule.Twin
