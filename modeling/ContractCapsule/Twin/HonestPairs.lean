import ContractCapsule.Twin.Approvals
import ContractCapsule.Twin.HonestRuns
import ContractCapsule.Twin.Verdict

/-!
# Honest Pairs

What the service makes of a pair whose stages all ended as they should.

`pair_exact` says that the runner and the evaluator agree: the evidence that an honest pair records
is read, and the report has exactly the blockers that its observations and its change sets call for.

The last section is a host of this kind, for the contract of the sample.
-/

namespace ContractCapsule.Twin

open Library Models

variable {F : Type} [FloatText F] {ν : Type}

namespace PairRunner

/-! ## Section 1: Evidence that is read -/

section Sides

variable {R : PairRunner F ν} {records : List Record} {index : ℕ} {initial : String}

theorem Orderly.timeline {results : List StageResult} (h : Orderly results) :
    BehaviorService.Timeline (results.map StageResult.process) := by
  rw [BehaviorService.Timeline, List.pairwise_map]
  exact h.imp fun hpair => ⟨hpair.1, hpair.2.2⟩

/-- **The evidence of a side** is what the evaluator asks for. -/
theorem runMade_of_phases {role : RunRole} {pre post : List CheckCapture}
    {pres posts : List StageResult} {result : StageResult} {tree : FrozenTree} {ns : ℕ}
    {final : String}
    (hinitial : R.service.context.initial.digestValue R.service.journal.digestBytes = some initial)
    (hfinal : tree.snapshot.digestValue R.service.journal.digestBytes = some final)
    (hpre : R.PhaseMade role.stage index .pre [initial] pre pres)
    (hpost : R.PhaseMade role.stage index .post [initial, final] post posts)
    (hmade : R.ExecutorMade role index initial result tree ns)
    (horderly : Orderly (pres ++ result :: posts)) :
    R.service.RunMade (sideEvidence role index result tree ns (pre ++ post)) initial final pre
      post := by
  refine ⟨hinitial, hfinal, rfl, hpre.made, hpost.made, hmade.subject, hmade.endedWell,
    hmade.snapshot.1, ?_, ?_⟩
  · have htimeline := horderly.timeline
    rwa [List.map_append, List.map_cons, hpre.processes, hpost.processes] at htimeline
  · intro p hp
    rw [← hpost.processes] at hp
    obtain ⟨later, hlater, rfl⟩ := List.mem_map.mp hp
    have hafter := (List.pairwise_cons.mp (List.pairwise_append.mp horderly).2.1).1 later hlater
    exact hafter.2.1 ns hmade.snapshotNs

/-- What is held under the reference of a run was recorded for it. -/
theorem ran_of_heldAs {S : BehaviorService F ν} {run : AgentRun} {evidence : CompletedRunEvidence}
    {subject : String} {payload : Bytes} {written : List Record}
    (hheld : S.HeldAs records run.record "run" subject payload) (hsub : records ⊆ written)
    (hsubject : S.subject run.role.stage run.repetition = some subject)
    (hpayload : evidence.payloadBytes = some payload) (hrole : evidence.role = run.role)
    (hrepetition : evidence.repetition = run.repetition) : S.Ran written run evidence := by
  obtain ⟨scope, hscope, hmem, hdigest⟩ := hheld
  exact ⟨⟨scope, subject, payload, hscope, hsubject, hsub hmem, hdigest, hpayload⟩, hrole,
    hrepetition⟩

/-- The evidence of a side is read from its record. -/
theorem sideRead_of_made (hready : R.Ready index) {role : RunRole} {result : StageResult}
    {tree : FrozenTree} {ns : ℕ} {checks pre post : List CheckCapture} {final : String}
    {reference pairReference : RecordRef} {subject : String} {payload : Bytes}
    {traces : List CheckTrace}
    (hmade : R.ExecutorMade role index initial result tree ns)
    (hrun : R.service.RunMade (sideEvidence role index result tree ns checks) initial final pre post)
    (hsubject : R.service.subject role.stage index = some subject)
    (hheld : R.service.HeldAs records reference "run" subject payload)
    (hpayload : (sideEvidence role index result tree ns checks).payloadBytes = some payload)
    (hvalid : (sideEvidence role index result tree ns checks).toRun.valid = true)
    (htraces : R.service.runTraces (sideEvidence role index result tree ns checks) = .ok traces) :
    R.service.SideRead records ⟨role, index, reference, some pairReference⟩
      (sideEvidence role index result tree ns checks) traces := by
  refine ⟨hready.repetition, ⟨subject, payload, hsubject, hheld, ?_⟩, htraces⟩
  obtain ⟨B, hparse, _⟩ := hready.reader
  -- what was written is read back as it was
  have hread : R.service.parseRun payload =
      some (sideEvidence role index result tree ns checks) := by
    rw [hparse, parseCompletedRun_iff B hpayload]
    exact ⟨rfl, hvalid⟩
  simp only [BehaviorService.checkRun, Except.bind_eq_ok, orRaise_eq_ok, raiseIf_eq_ok,
    BehaviorService.rejecting_eq_ok, not_or, not_not, ne_eq, Except.pure_eq_ok]
  exact ⟨_, hread, (), ⟨hpayload, rfl⟩, (), hrun.distinct, (), hready.initial, (),
    hmade.accepted, rfl⟩

end Sides

/-! ## Section 2: Pairs -/

section Pairs

variable {R : PairRunner F ν} {records : List Record} {index : ℕ}

/-- What an honest pair leaves: the trial that the evaluator reads, the evidence that was recorded,
and what the host returned for it. -/
structure HonestPair (R : PairRunner F ν) (index : ℕ) (written : List Record)
    (results : List StageResult) (t : BehaviorService.Trial) (pair : PairEvidence) : Prop where
  repetition : t.old.repetition = index
  oldRan : R.service.Ran written t.old t.oldEvidence
  newRan : R.service.Ran written t.new t.newEvidence
  paired : R.service.Paired written t.old t.new pair
  processes : (results.map StageResult.process).Perm
    (BehaviorService.processesOf (t.oldEvidence.checks ++ t.newEvidence.checks ++ pair.checks) ++
      [t.oldEvidence.executor, t.newEvidence.executor])
  finds : ∀ blocker, t.Finds blocker ↔
    R.service.Calls t.oldEvidence t.newEvidence pair.checks blocker

/-- The checks of a contract that was accepted, which the evaluator compares with itself. -/
theorem checkContract_self {S : BehaviorService F ν} {host : ContractHost F}
    (h : Covers host S.bound.request.contract S.bound.profile) :
    S.checkContract S.bound.request.contract = .ok () := by
  simp only [BehaviorService.checkContract, Except.bind_eq_ok, raiseIf_eq_ok]
  refine ⟨(), by simp [pyEqual], ?_⟩
  intro hmissing
  obtain ⟨role, hrole, hall⟩ := List.any_eq_true.mp hmissing
  have hbehavioral : role.isBehavioral = true := by
    simp only [List.mem_cons, List.not_mem_nil, or_false] at hrole
    rcases hrole with rfl | rfl | rfl <;> rfl
  obtain ⟨check, hcheck, hsame⟩ := h.behavioral role hbehavioral
  have hother := List.all_eq_true.mp hall check hcheck
  simp [hsame] at hother

/-- The phase of the clauses of a role. -/
def phaseOf : CheckRole → CheckPhase
  | .precondition => .pre
  | .differential => .pair
  | _ => .post

omit [FloatText F] in
theorem phase_of_clause {contract : ReplacementContract (Number F)} {clause : Clause}
    (h : clause ∈ clausesOf contract) : clause.phase = phaseOf clause.role := by
  obtain ⟨collection, hcollection, hclause⟩ := List.mem_flatMap.mp h
  obtain ⟨n, hn, rfl⟩ := List.mem_mapIdx.mp hclause
  simp only [clauseCollections, List.mem_cons, List.not_mem_nil, or_false] at hcollection
  rcases hcollection with rfl | rfl | rfl | rfl | rfl | rfl | rfl <;> rfl

/-- A check of a contract that was accepted has the phase of its role. -/
theorem phase_of_covers {host : ContractHost F} {contract : ReplacementContract (Number F)}
    {profile : ExecutionProfile (Number F)} (h : Covers host contract profile)
    {check : CheckBinding} (hcheck : check ∈ profile.checks) : check.phase = phaseOf check.role := by
  obtain ⟨clause, hclause, hchecks⟩ := (h.bound check hcheck).1
  rw [hchecks.phase, hchecks.role, phase_of_clause hclause]

/-- A contract with a differential clause has a check of both sides together. -/
theorem exists_paired {host : ContractHost F} {contract : ReplacementContract (Number F)}
    {profile : ExecutionProfile (Number F)} (h : Covers host contract profile)
    (hdifferential : contract.verification.differential ≠ []) :
    ∃ check ∈ profile.checks, check.phase = .pair := by
  obtain ⟨text, texts, htexts⟩ := List.exists_cons_of_ne_nil hdifferential
  have hclause : ⟨clausePathOf "verification/differential" 0, .differential, .pair, text⟩ ∈
      clausesOf contract := by
    apply List.mem_flatMap.mpr
    refine ⟨("verification/differential", .differential, .pair,
      contract.verification.differential), by simp [clauseCollections], ?_⟩
    simp [collectionClauses, htexts, clausePathOf, List.mapIdx_cons]
  obtain ⟨check, ⟨hcheck, hchecks⟩, _⟩ := h.checked _ hclause
  exact ⟨check, hcheck, hchecks.phase⟩

/-- The results that a clean run added came one after the other. -/
theorem orderly_of_outcomes (hhost : R.Honest) {records' : List Record} {s s' : PairState}
    (hs : R.Clean records s) (hs' : R.Clean records' s') {results : List StageResult}
    (h : s'.outcomes = s.outcomes ++ results.map .result) : Orderly results := by
  obtain ⟨earlier, hearlier, _⟩ := hs.produced
  obtain ⟨all, hall, hproduced⟩ := hs'.produced
  have hinjective : Function.Injective Outcome.result := fun _ _ heq => Outcome.result.inj heq
  have hsame : all = earlier ++ results := by
    apply List.map_injective_iff.mpr hinjective
    rw [← hall, h, hearlier, List.map_append]
  have horderly := hhost.orderly all hproduced
  rw [hsame] at horderly
  exact horderly.sublist (List.sublist_append_right _ _)

theorem Ready.exists_initial (h : R.Ready index) : ∃ initial,
    R.service.context.initial.digestValue R.service.journal.digestBytes = some initial := by
  obtain ⟨subject, hsubject⟩ := h.subject
  obtain ⟨execution, _, hrun⟩ := Option.bind_eq_some_iff.mp hsubject
  have hsome : (runSubject R.service.journal.digestBytes execution R.service.context .pair
      0).isSome := Option.isSome_iff_exists.mpr ⟨subject, hrun⟩
  rw [runSubject, identity, Option.isSome_map, canonicalBytes_isSome] at hsome
  simp only [EvaluationContext.dump, Json.numbersAll, Json.membersAll_eq, List.all_cons,
    Bool.and_eq_true] at hsome
  exact exists_digestValue _ hsome.2.2.1.1

theorem traceBlockers_append (traces traces' : List CheckTrace) :
    traceBlockers (traces ++ traces') = traceBlockers traces ++ traceBlockers traces' := by
  simp [traceBlockers]

/-- **What the evaluator makes of an honest pair**: everything that was recorded is read, and calls
for what the observations and the change sets call for. -/
theorem trialRead_of_made (hready : R.Ready index) {host : ContractHost F}
    (hcovers : Covers host R.service.bound.request.contract R.service.bound.profile)
    (hdifferential : R.service.bound.request.contract.verification.differential ≠ [])
    (hscopes : ∀ pattern ∈ R.service.bound.request.contract.allowedScope ++
      R.service.bound.request.contract.forbiddenSpillover, WellFormed pattern)
    {initial oldFinal newFinal oldRecord newRecord : String}
    {oldResult newResult : StageResult} {oldTree newTree : FrozenTree} {oldNs newNs : ℕ}
    {c : BehaviorService.PairCaptures} {oldReference newReference reference : RecordRef}
    (hold : R.ExecutorMade .old index initial oldResult oldTree oldNs)
    (hnew : R.ExecutorMade .new index initial newResult newTree newNs)
    (hpair : R.service.PairMade ⟨.old, index, oldReference, some reference⟩
      ⟨.new, index, newReference, some reference⟩
      (sideEvidence .old index oldResult oldTree oldNs (c.oldPre ++ c.oldPost))
      (sideEvidence .new index newResult newTree newNs (c.newPre ++ c.newPost)) c initial oldFinal
      newFinal oldRecord newRecord)
    (holdRecorded : ∃ subject payload, R.service.subject .old index = some subject ∧
      R.service.HeldAs records oldReference "run" subject payload ∧
      (sideEvidence .old index oldResult oldTree oldNs (c.oldPre ++ c.oldPost)).payloadBytes =
        some payload ∧
      (sideEvidence .old index oldResult oldTree oldNs (c.oldPre ++ c.oldPost)).toRun.valid = true)
    (hnewRecorded : ∃ subject payload, R.service.subject .new index = some subject ∧
      R.service.HeldAs records newReference "run" subject payload ∧
      (sideEvidence .new index newResult newTree newNs (c.newPre ++ c.newPost)).payloadBytes =
        some payload ∧
      (sideEvidence .new index newResult newTree newNs (c.newPre ++ c.newPost)).toRun.valid = true)
    (hpairRecorded : ∃ subject payload, R.service.subject .pair index = some subject ∧
      R.service.HeldAs records reference "pair" subject payload ∧
      (⟨index, oldReference, newReference, c.paired⟩ : PairEvidence).payloadBytes = some payload ∧
      (⟨index, oldReference, newReference, c.paired⟩ : PairEvidence).valid = true) :
    ∃ t : BehaviorService.Trial, R.service.TrialRead records t ∧
      t.old = ⟨.old, index, oldReference, some reference⟩ ∧
      t.new = ⟨.new, index, newReference, some reference⟩ ∧
      t.oldEvidence = sideEvidence .old index oldResult oldTree oldNs (c.oldPre ++ c.oldPost) ∧
      t.newEvidence = sideEvidence .new index newResult newTree newNs (c.newPre ++ c.newPost) ∧
      ∀ blocker, t.Finds blocker ↔
        R.service.Calls t.oldEvidence t.newEvidence c.paired blocker := by
  have hids := hcovers.checkIds
  obtain ⟨oldSubject, oldPayload, holdSubject, holdHeld, holdPayload, holdValid⟩ := holdRecorded
  obtain ⟨newSubject, newPayload, hnewSubject, hnewHeld, hnewPayload, hnewValid⟩ := hnewRecorded
  obtain ⟨subject, payload, hsubject, hheld, hpayload, hvalid⟩ := hpairRecorded
  obtain ⟨oldTraces, holdTraces, holdCalls⟩ := BehaviorService.runTraces_of_made hpair.oldMade hids
  obtain ⟨newTraces, hnewTraces, hnewCalls⟩ := BehaviorService.runTraces_of_made hpair.newMade hids
  obtain ⟨outside, houtside, hleaves⟩ := BehaviorService.exists_outside
    (sideEvidence .old index oldResult oldTree oldNs (c.oldPre ++ c.oldPost))
    (sideEvidence .new index newResult newTree newNs (c.newPre ++ c.newPost))
    (accepted_of_validateSnapshot hready.initial) (accepted_of_validateSnapshot hold.accepted)
    (accepted_of_validateSnapshot hnew.accepted) hscopes
  -- there is a check of both sides together, and a target is checked on each of them
  obtain ⟨check, hcheck, hcheckPhase⟩ := exists_paired hcovers hdifferential
  have hcompared : R.service.phaseBindings .pair ≠ [] :=
    List.ne_nil_of_mem (BehaviorService.mem_phaseBindings.mpr ⟨hcheck, hcheckPhase⟩)
  have hsides : (c.oldPre ++ c.oldPost) ++ (c.newPre ++ c.newPost) ≠ [] := by
    obtain ⟨target, htarget, hrole⟩ := hcovers.behavioral .target rfl
    have hphase : target.phase = .post := by
      rw [phase_of_covers hcovers htarget, hrole]
      rfl
    obtain ⟨capture, hcapture, _⟩ := left_of_mem_forall₂ hpair.oldMade.postMade.flip
      (BehaviorService.mem_phaseBindings.mpr ⟨htarget, hphase⟩)
    exact List.ne_nil_of_mem (List.mem_append_left _ (List.mem_append_right _ hcapture))
  obtain ⟨B, _, hparse⟩ := hready.reader
  have hread : R.service.parsePair payload = some ⟨index, oldReference, newReference, c.paired⟩ := by
    rw [hparse, parsePairEvidence_iff B hpayload]
    exact ⟨rfl, hvalid⟩
  obtain ⟨traces, htraces, hpairCalls⟩ := BehaviorService.checkPair_of_made hpair hids hcompared
    hsides hread hpayload rfl rfl rfl rfl
  let t : BehaviorService.Trial := ⟨⟨.old, index, oldReference, some reference⟩,
    ⟨.new, index, newReference, some reference⟩,
    sideEvidence .old index oldResult oldTree oldNs (c.oldPre ++ c.oldPost),
    sideEvidence .new index newResult newTree newNs (c.newPre ++ c.newPost),
    oldTraces, newTraces, traces, outside⟩
  have hdistinct : (pairContainers t.oldEvidence t.newEvidence []).Nodup := by
    apply List.Nodup.sublist _ hpair.containers
    apply List.Sublist.append_left
    apply List.Sublist.flatMap
    apply List.Sublist.append_left
    exact List.nil_sublist _
  refine ⟨t, ⟨?_, ?_, ⟨rfl, rfl, rfl, rfl⟩, hdistinct, houtside,
    BehaviorService.crossPreconditions_of_made hpair hids, reference, subject, payload, rfl, hsubject,
    hheld, htraces⟩, rfl, rfl, rfl, rfl, ?_⟩
  · exact sideRead_of_made hready hold hpair.oldMade holdSubject holdHeld holdPayload holdValid
      holdTraces
  · exact sideRead_of_made hready hnew hpair.newMade hnewSubject hnewHeld hnewPayload hnewValid
      hnewTraces
  · intro blocker
    have hfinds : t.Finds blocker ↔ ((blocker ∈ traceBlockers oldTraces ∨
        blocker ∈ traceBlockers newTraces) ∨ blocker ∈ traceBlockers traces) ∨
          outside = true ∧ blocker = "SCOPE_VIOLATION" := by
      rw [← List.mem_append, ← List.mem_append, ← traceBlockers_append, ← traceBlockers_append]
      exact Iff.rfl
    rw [hfinds, holdCalls, hnewCalls, hpairCalls, hleaves, or_assoc, or_assoc]
    exact Iff.rfl

/-- The checks of both sides together, after two sides that are complete. -/
theorem runs_paired (hready : R.Ready index) (hhost : R.Honest)
    (hexpects : ∀ check ∈ R.service.bound.profile.checks, ExpectsByRole check)
    {initial oldFinal newFinal : String}
    (hinitial : R.service.context.initial.digestValue R.service.journal.digestBytes = some initial)
    (old new : AgentRun) {oldTree newTree : FrozenTree}
    {oldPre oldPost newPre newPost : List CheckCapture} {olds oldPosts news newPosts : List StageResult}
    (hold : oldTree.snapshot.digestValue R.service.journal.digestBytes = some oldFinal)
    (hnew : newTree.snapshot.digestValue R.service.journal.digestBytes = some newFinal)
    (holdPre : R.PhaseMade .old index .pre [initial] oldPre olds)
    (holdPost : R.PhaseMade .old index .post [initial, oldFinal] oldPost oldPosts)
    (hnewPre : R.PhaseMade .new index .pre [initial] newPre news)
    (hnewPost : R.PhaseMade .new index .post [initial, newFinal] newPost newPosts) :
    ∃ oldRecord newRecord,
      identity R.service.journal.digestBytes old.record.dump = some oldRecord ∧
      identity R.service.journal.digestBytes new.record.dump = some newRecord ∧
      R.Runs records (R.paired index (old, some oldTree, oldPre ++ oldPost)
        (new, some newTree, newPre ++ newPost)) fun captures results =>
          R.PhaseMade .pair index .pair [initial, oldFinal, newFinal, oldRecord, newRecord] captures
            results := by
  obtain ⟨oldRecord, newRecord, holdRecord, hnewRecord, hruns⟩ :=
    runs_pairChecks hready hhost hexpects hinitial old new hold hnew
  refine ⟨oldRecord, newRecord, holdRecord, hnewRecord, ?_⟩
  -- both sides are complete, so the checks of the pair are run
  have hcomplete : R.postComplete (oldPre ++ oldPost) (newPre ++ newPost) = .ok true := by
    apply allM_eq_ok_true
    simp only [List.forall_mem_cons]
    exact ⟨groupComplete_of_made hready holdPre holdPost,
      groupComplete_of_made hready hnewPre hnewPost, List.forall_mem_nil _⟩
  unfold paired
  apply runs_check_bind (a := true)
  · simp only [hcomplete, Except.mapError]
  apply runs_select_bind fun s hs => hs.certain
  simpa using hruns

/-- The evidence of a pair is recorded. -/
theorem recordPair_returns (hready : R.Ready index) {s : JournalState}
    (hs : R.service.Holds R.world records s) (old new : AgentRun) {checks : List CheckCapture}
    (hold : old.record.valid = true) (hnew : new.record.valid = true) (hchecks : Written checks) :
    ∃ reference record s',
      Returns (R.service.recordPair R.world old new ⟨index, old.record, new.record, checks⟩) s
        ({ old with pairRecord := some reference }, { new with pairRecord := some reference }) s' ∧
      R.service.Holds R.world (record :: records) s' ∧
      ∃ subject payload, R.service.subject .pair index = some subject ∧
        R.service.HeldAs [record] reference "pair" subject payload ∧
        (⟨index, old.record, new.record, checks⟩ : PairEvidence).payloadBytes = some payload ∧
        (⟨index, old.record, new.record, checks⟩ : PairEvidence).valid = true := by
  -- the references and the captures can be written, and so can the index
  have hpayload : ∃ payload,
      (⟨index, old.record, new.record, checks⟩ : PairEvidence).payloadBytes = some payload := by
    rw [← Option.isSome_iff_exists, PairEvidence.payloadBytes, canonicalBytes_isSome]
    have hindex := exact_count hready.index_le
    have hlisted := hchecks.exact
    have holdRecord := exact_recordRef old.record
    have hnewRecord := exact_recordRef new.record
    simp only [Exact] at hindex hlisted holdRecord hnewRecord
    simp [PairEvidence.dump, Json.numbersAll, hindex, hlisted, holdRecord, hnewRecord]
  obtain ⟨payload, hpayload⟩ := hpayload
  obtain ⟨scope, hscope⟩ := exists_scope R.service
  obtain ⟨subject, hsubject⟩ := hready.exists_subject .pair
  have hkind : "pair" ≠ "" := by decide
  obtain ⟨reference, record, s', happend, hs', hheld, _⟩ :=
    appendRecord_ready hready hs hkind payload hscope hsubject
  refine ⟨reference, record, s', ?_, hs', subject, payload, hsubject, hheld, hpayload, ?_⟩
  · unfold BehaviorService.recordPair
    simp only [returns_bind, returns_check, returns_pure, orRaise_eq_ok]
    exact ⟨scope, _, ⟨hscope, rfl⟩, subject, _, ⟨hsubject, rfl⟩, payload, _, ⟨hpayload, rfl⟩,
      reference, s', happend, rfl, rfl⟩
  · simp only [PairEvidence.valid, hold, hnew, hchecks.valid, Bool.and_self]

/-- **An honest pair** runs to its end. Its evidence is what the host returned, it is read, and the
report on it can be verified. -/
theorem pair_reads (hready : R.Ready index) (hhost : R.Honest) {host : ContractHost F}
    (hcovers : Covers host R.service.bound.request.contract R.service.bound.profile)
    (hdifferential : R.service.bound.request.contract.verification.differential ≠ [])
    (hscopes : ∀ pattern ∈ R.service.bound.request.contract.allowedScope ++
      R.service.bound.request.contract.forbiddenSpillover, WellFormed pattern)
    {s : PairState} (hs : R.Clean records s) :
    ∃ t evidence results oldRecord newRecord record added s',
      Returns (R.pair index) s (t.report R.service oldRecord newRecord (some record)) s' ∧
      R.Clean (added ++ records) s' ∧ s'.outcomes = s.outcomes ++ results.map .result ∧
      R.HonestPair index s'.journal.ledger.written results t evidence ∧ R.service.TrialRead (added ++ records) t ∧
      R.service.Verifiable (added ++ records)
        (t.report R.service oldRecord newRecord (some record)) := by
  have hexpects := fun check hcheck => (hcovers.bound check hcheck).2
  obtain ⟨initial, hinitial⟩ := hready.exists_initial
  -- the checks before the executors, the two sides, and the checks of both together
  obtain ⟨⟨oldPre, newPre, execute⟩, _, s₁, hpre, hs₁, houtcomes₁, hexecute, olds, news, rfl,
    holdPre, hnewPre⟩ := runs_preconditions hready hhost hexpects hinitial s hs
  obtain rfl : execute = true := hexecute
  obtain ⟨oldResult, oldTree, oldNs, oldFinal, oldPost, oldPosts, oldReference, first, s₂, hold,
    hs₂, houtcomes₂, holdMade, holdFinal, holdPost, holdValid, holdSubject, holdPayload,
    holdRecorded⟩ := role_returns hready hhost hexpects .old hinitial holdPre.written hs₁
  obtain ⟨newResult, newTree, newNs, newFinal, newPost, newPosts, newReference, second, s₃, hnew,
    hs₃, houtcomes₃, hnewMade, hnewFinal, hnewPost, hnewValid, hnewSubject, hnewPayload,
    hnewRecorded⟩ := role_returns hready hhost hexpects .new hinitial hnewPre.written hs₂
  obtain ⟨oldDigest, newDigest, holdDigest, hnewDigest, hruns⟩ :=
    runs_paired hready hhost hexpects hinitial ⟨.old, index, oldReference, none⟩
      ⟨.new, index, newReference, none⟩ holdFinal hnewFinal holdPre holdPost hnewPre hnewPost
  obtain ⟨captures, pairs, s₄, hcompared, hs₄, houtcomes₄, hpairMade⟩ := hruns s₃ hs₃
  obtain ⟨reference, third, j, hrecord, hj, hpairRecorded⟩ := recordPair_returns hready hs₄.holds
    ⟨.old, index, oldReference, none⟩ ⟨.new, index, newReference, none⟩ holdValid hnewValid
    hpairMade.written
  have hs₅ := hs₄.onJournal hj
  -- one stage after the other
  let results := olds ++ (news ++ (oldResult :: (oldPosts ++ (newResult :: (newPosts ++ pairs)))))
  have houtcomes : s₄.outcomes = s.outcomes ++ results.map .result := by
    rw [houtcomes₄, houtcomes₃, houtcomes₂, houtcomes₁]
    simp [results]
  have horderly := orderly_of_outcomes hhost hs hs₅ houtcomes
  have holdOrderly : Orderly (olds ++ oldResult :: oldPosts) := by
    apply List.Pairwise.sublist _ horderly
    apply List.Sublist.append_left
    apply List.Sublist.trans _ (List.sublist_append_right _ _)
    apply List.Sublist.cons_cons
    exact List.sublist_append_left _ _
  have hnewOrderly : Orderly (news ++ newResult :: newPosts) := by
    apply List.Pairwise.sublist _ horderly
    apply List.Sublist.trans _ (List.sublist_append_right _ _)
    apply List.Sublist.append_left
    apply List.Sublist.cons
    apply List.Sublist.trans _ (List.sublist_append_right _ _)
    apply List.Sublist.cons_cons
    exact List.sublist_append_left _ _
  let c : BehaviorService.PairCaptures := ⟨oldPre, newPre, oldPost, newPost, captures⟩
  have hprocesses : results.map StageResult.process =
      c.processes oldResult.process newResult.process := by
    simp [results, c, BehaviorService.PairCaptures.processes, holdPre.processes, hnewPre.processes,
      holdPost.processes, hnewPost.processes, hpairMade.processes]
  have hmade : R.service.PairMade ⟨.old, index, oldReference, some reference⟩
      ⟨.new, index, newReference, some reference⟩
      (sideEvidence .old index oldResult oldTree oldNs (oldPre ++ oldPost))
      (sideEvidence .new index newResult newTree newNs (newPre ++ newPost)) c initial oldFinal
      newFinal oldDigest newDigest := by
    refine ⟨runMade_of_phases hinitial holdFinal holdPre holdPost holdMade holdOrderly,
      runMade_of_phases hinitial hnewFinal hnewPre hnewPost hnewMade hnewOrderly, holdDigest,
      hnewDigest, hpairMade.made, ?_⟩
    have htimeline := horderly.timeline
    rw [hprocesses] at htimeline
    exact htimeline
  -- what was recorded is held from then on
  have hmono : ∀ {records' : List Record} {reference : RecordRef} {kind subject : String}
      {payload : Bytes}, R.service.HeldAs records' reference kind subject payload →
      records' ⊆ third :: second :: first :: records →
      R.service.HeldAs (third :: second :: first :: records) reference kind subject payload :=
    fun hheld hsub => hheld.mono hsub
  obtain ⟨holdSubject, holdHeld, holdBytes, holdFields⟩ := holdRecorded
  obtain ⟨hnewSubject, hnewHeld, hnewBytes, hnewFields⟩ := hnewRecorded
  obtain ⟨pairSubject, pairPayload, hpairSubject, hpairHeld, hpairBytes, hpairFields⟩ :=
    hpairRecorded
  obtain ⟨t, hread, htold, htnew, htoldEvidence, htnewEvidence, hfinds⟩ :=
    trialRead_of_made (c := c) hready hcovers hdifferential hscopes holdMade hnewMade hmade
      ⟨_, _, holdSubject, hmono holdHeld (by simp), holdBytes, holdFields⟩
      ⟨_, _, hnewSubject, hmono hnewHeld (by simp), hnewBytes, hnewFields⟩
      ⟨_, _, hpairSubject, hmono hpairHeld (by simp), hpairBytes, hpairFields⟩
  have hprofile := hready.profile
  simp only [ExecutionProfile.valid, Bool.and_eq_true, decide_eq_true_eq] at hprofile
  have hcount : R.service.Countable := ⟨hprofile.2.1, by omega, hready.checks⟩
  obtain ⟨oldRecord, newRecord, record, added, j', hreport, hj', hverifiable⟩ :=
    BehaviorService.compareRuns_reports hready.world
      (fun bytes => ne_empty_of_isDigest (hready.digests bytes)) hcount hs₅.holds
      (checkContract_self hcovers) hread
  have hsub : third :: second :: first :: records ⊆ j'.ledger.written := fun record hrecord =>
    hj'.held (List.mem_append_right added hrecord)
  have holdRan : R.service.Ran j'.ledger.written t.old t.oldEvidence := by
    rw [htold, htoldEvidence]
    exact ran_of_heldAs (hmono holdHeld (by simp)) hsub holdSubject holdBytes rfl rfl
  have hnewRan : R.service.Ran j'.ledger.written t.new t.newEvidence := by
    rw [htnew, htnewEvidence]
    exact ran_of_heldAs (hmono hnewHeld (by simp)) hsub hnewSubject hnewBytes rfl rfl
  have hpaired : R.service.Paired j'.ledger.written t.old t.new
      ⟨index, oldReference, newReference, captures⟩ := by
    rw [htold, htnew]
    obtain ⟨scope, hscope, hmem, _⟩ := hpairHeld
    exact ⟨⟨reference, scope, pairSubject, pairPayload, rfl, hscope, hpairSubject,
      hsub (List.mem_cons.mpr (.inl (List.mem_singleton.mp hmem))), hpairBytes⟩, ⟨rfl, rfl⟩, rfl⟩
  refine ⟨t, ⟨index, oldReference, newReference, captures⟩, results, oldRecord, newRecord, record,
    added ++ [third, second, first], { s₄ with journal := j' }, ?_, ?_, houtcomes,
    ⟨by rw [htold], holdRan, hnewRan, hpaired, ?_, hfinds⟩, ?_, ?_⟩
  · unfold pair
    simp only [returns_bind]
    refine ⟨_, s₁, hpre, ?_⟩
    simp only [Bool.true_eq_false, if_false, returns_bind, returns_select, Bool.true_and]
    rw [htold, htnew] at hreport
    exact ⟨_, s₂, hold, false, s₂, ⟨hs₂.certain, rfl⟩, _, s₃, hnew, captures, s₄, hcompared, _, _,
      returns_onJournal hrecord, returns_onJournal hreport⟩
  · rw [List.append_assoc]
    exact hs₅.onJournal hj'
  · rw [hprocesses, htoldEvidence, htnewEvidence]
    simp only [BehaviorService.PairCaptures.processes, BehaviorService.processesOf, sideEvidence, c,
      List.flatMap_append, ← Multiset.coe_eq_coe, ← Multiset.coe_add, ← Multiset.cons_coe,
      ← Multiset.singleton_add, Multiset.coe_nil, add_zero]
    abel
  · rw [List.append_assoc]
    exact hread.mono (List.subset_append_right _ _)
  · rw [List.append_assoc]
    exact hverifiable

/-- The codes of the checks that fail and of the scopes that are left. -/
def findingCodes : List String :=
  ["TARGET_FAILED", "INVARIANT_FAILED", "SPILLOVER_TRIGGERED", "GUARD_FAILED", "SCOPE_VIOLATION"]

theorem mem_findingCodes_of_calls {S : BehaviorService F ν} {old new : CompletedRunEvidence}
    {paired : List CheckCapture} {blocker : String} (h : S.Calls old new paired blocker) :
    blocker ∈ findingCodes := by
  have hcode : ∀ role, failureCode role ∈ findingCodes := by
    intro role
    unfold failureCode findingCodes
    split_ifs <;> simp
  -- side, pair and rollback findings are named after a role, and the last one after the scope
  rcases h with h | h | h | h
  · obtain ⟨_, _, _, _, _, _, _, _, _, rfl⟩ := h
    exact hcode _
  · obtain ⟨_, _, _, _, _, _, _, _, _, rfl⟩ := h
    exact hcode _
  · obtain ⟨_, _, _, _, _, _, _, rfl⟩ := h
    exact hcode _
  · obtain ⟨_, rfl⟩ := h
    simp [findingCodes]

/-- **An honest pair is judged by what it observed**: on a host whose stages end as they should, the
runner records what they returned and nothing else. The report has exactly the blockers that the
observations and the change sets call for, none that refuses the evidence, and it can be verified. -/
theorem pair_exact (R : PairRunner F ν) {index : ℕ} (hready : R.Ready index) (hhost : R.Honest)
    {host : ContractHost F} {request : ReplacementRequest F}
    (hbound : parseExecutionContract host request = .ok R.service.bound)
    (hdifferential : R.service.bound.request.contract.verification.differential ≠ [])
    (hscopes : ∀ pattern ∈ R.service.bound.request.contract.allowedScope ++
      R.service.bound.request.contract.forbiddenSpillover, WellFormed pattern)
    {records : List Record} {s : PairState} (hs : R.Clean records s) :
    ∃ report old new evidence, ∃ results : List StageResult, ∃ s' j,
      Returns (R.pair index) s report s' ∧
      Returns (R.service.verifyReport R.world (.differential report)) s'.journal () j ∧
      s'.outcomes = s.outcomes ++ results.map .result ∧ s'.blockers = [] ∧ s'.uncertain = false ∧
      (results.map StageResult.process).Perm
        (BehaviorService.processesOf (old.checks ++ new.checks ++ evidence.checks) ++
          [old.executor, new.executor]) ∧
      R.service.Ran s'.journal.ledger.written report.old old ∧
      R.service.Ran s'.journal.ledger.written report.new new ∧
      R.service.Paired s'.journal.ledger.written report.old report.new evidence ∧
      (∀ blocker, blocker ∈ report.blockers ↔ R.service.Calls old new evidence.checks blocker) ∧
      (∀ blocker ∈ report.blockers, blocker ∈ findingCodes) ∧
      (report.valid = true ↔ ∀ blocker, ¬ R.service.Calls old new evidence.checks blocker) := by
  -- a request that was parsed covers its contract, whatever else was checked
  obtain ⟨hrequest, _, _, hcoverage, _⟩ := checks_of_parseExecutionContract hbound
  have hcovers : Covers host R.service.bound.request.contract R.service.bound.profile := by
    rw [hrequest]
    exact covers_of_checkCoverage hcoverage
  -- the runner leaves a trial that is read, and reports it as the trial calls for
  obtain ⟨t, evidence, results, oldRecord, newRecord, record, added, s', hpair, hs', houtcomes,
    hmade, _, hverifiable⟩ := pair_reads hready hhost hcovers hdifferential hscopes hs
  obtain ⟨j, hverified, _⟩ :=
    BehaviorService.delivers_verifyDifferentialReport hready.world hverifiable s'.journal hs'.holds
  have hblockers : ∀ blocker,
      blocker ∈ (t.report R.service oldRecord newRecord (some record)).blockers ↔
        R.service.Calls t.oldEvidence t.newEvidence evidence.checks blocker := by
    intro blocker
    rw [BehaviorService.mem_blockers_report, hmade.finds]
  refine ⟨_, t.oldEvidence, t.newEvidence, evidence, results, s', j, hpair, hverified, houtcomes,
    hs'.blockers, hs'.certain, hmade.processes, hmade.oldRan, hmade.newRan, hmade.paired, hblockers,
    ?_, ?_⟩
  · intro blocker hblocker
    exact mem_findingCodes_of_calls ((hblockers blocker).mp hblocker)
  · rw [BehaviorService.valid_report_iff]
    simp only [hmade.finds]

end Pairs

/-! ## Section 3: An honest host -/

section Sample

/-- A digest that tells bytes with an odd sum from bytes with an even one. -/
def parityDigest (bytes : Bytes) : String :=
  "sha256:" ++ String.ofList (List.replicate 64 (Nat.digitChar ((bytes.map UInt8.toNat).sum % 2)))

theorem isDigest_parityDigest (bytes : Bytes) : isDigest (parityDigest bytes) = true := by
  have hdigits : ∀ n < 2, isDigest ("sha256:" ++ String.ofList
      (List.replicate 64 (Nat.digitChar n))) = true := by
    decide +kernel
  exact hdigits _ (Nat.mod_lt _ Nat.two_pos)

/-- An identifier for each number. -/
def serial (n : ℕ) : String := String.ofList (List.replicate (n + 1) 'x')

theorem serial_injective : Function.Injective serial := by
  intro m n h
  have hlengths := congrArg (fun text : String => text.toList.length) h
  simpa [serial] using hlengths

theorem isNonEmpty_serial (n : ℕ) : isNonEmpty (serial n) = true := by
  simp [isNonEmpty, serial, List.replicate_succ]

/-- A journal that nobody else uses. -/
def sampleWorld : JournalWorld where
  meanwhile _ ledger := ledger
  unavailable _ := false
  uuid := serial

theorem sampleWorld_friendly (J : RecordJournal) : sampleWorld.Friendly J where
  appends _ _ := .refl
  others _ _ _ hrecord := .inl hrecord
  available _ := rfl
  fresh := serial_injective

/-- A repository without files. -/
def bareTree : FrozenTree := ⟨⟨[⟨".", .directory, 0o755, none, 0⟩]⟩, []⟩

/-- The service for the sample execution. -/
def sampleService : BehaviorService IntegralFloat Unit where
  bound := sampleExecution
  context := ⟨bareTree.snapshot, parityDigest [1], parityDigest [2], parityDigest [3], true⟩
  journal := { RecordJournal.sampleJournal with digestBytes := parityDigest }
  decoder := sampleDecoder
  parseRun := parseCompletedRun .base64
  parsePair := parsePairEvidence .base64

/-- What a check prints. -/
def printed (checkId : String) (observation : Bool) : Bytes :=
  ("\x7b\"check_id\":\"" ++ checkId ++ "\",\"observation\":" ++
    (if observation = true then "true" else "false") ++ "\x7d").toList.map fun c =>
      UInt8.ofNat c.toNat

/-- What is to be observed at a stage. -/
def expectedAt (role : StageRole) (binding : CheckBinding) : Bool :=
  match viewOf role with
  | none => true
  | some side => BehaviorService.expectedOf side binding

/-- The output of a stage. -/
def sampleOutput (call : StageCall) : Bytes :=
  match call.kind with
  | .check binding => printed binding.checkId (expectedAt call.role binding)
  | _ => []

/-- Every stage ends at once in a container of its own, and leaves the repository as it is. -/
def sampleResult (outcomes : List Outcome) (call : StageCall) : StageResult where
  process := {
    subject       := call.subject
    containerId   := serial outcomes.length
    startedNs     := 0
    finishedNs    := 0
    exitCode      := some 0
    terminated    := true
    timedOut      := false
    outputLimited := false
    stdout        := sampleOutput call
    stderr        := [] }
  tree := some bareTree
  snapshotNs := some 0
  blockers := []
  retainedContainers := []
  retainedVolumes := []

/-- A pair of this host. Every check prints what is expected of it. -/
def sampleRunner : PairRunner IntegralFloat Unit where
  service := sampleService
  world := sampleWorld
  source := bareTree
  viewBytes _ := some []
  runStage outcomes call := .result (sampleResult outcomes call)
  stale _ := false

theorem bareTree_valid : validateSnapshot bareTree.snapshot
    sampleRunner.service.bound.profile.runner.toRunnerConfig = .ok () := by
  decide +kernel

/-- The containers of the sample host are numbered, and its clock stands still. -/
theorem sampleRunner_containers {results : List StageResult} (h : sampleRunner.Produced results) :
    results.map (fun r => r.process.containerId) = (List.range results.length).map serial ∧
      ∀ r ∈ results, r.process.startedNs = 0 ∧ r.process.finishedNs = 0 ∧ r.snapshotNs = some 0 := by
  -- along the stages that were run: the number of a container is how many of them there were
  induction h with
  | nil => simp
  | @snoc results call result _ _ hrun ih =>
    obtain rfl : sampleResult (results.map .result) call = result := by
      simpa [sampleRunner] using hrun
    constructor
    · rw [List.map_append, ih.1, List.length_append, List.length_singleton, List.range_succ,
        List.map_append]
      simp [sampleResult]
    · intro r hr
      rcases List.mem_append.mp hr with hold | hnew
      · exact ih.2 r hold
      · rw [List.mem_singleton.mp hnew]
        exact ⟨rfl, rfl, rfl⟩

theorem sampleRunner_orderly {results : List StageResult} (h : sampleRunner.Produced results) :
    Orderly results := by
  obtain ⟨hcontainers, htimes⟩ := sampleRunner_containers h
  have hnodup : (results.map fun r => r.process.containerId).Nodup := by
    rw [hcontainers]
    exact List.nodup_range.map serial_injective
  rw [List.Nodup, List.pairwise_map] at hnodup
  apply hnodup.imp_of_mem
  intro r q hr hq hdistinct
  obtain ⟨_, hfinished, hsnapshot⟩ := htimes r hr
  refine ⟨by rw [hfinished]; exact Nat.zero_le _, ?_, hdistinct⟩
  rw [hsnapshot]
  simp

/-- What the checks of the sample print is read as what is expected. -/
theorem observation_printed : ∀ binding ∈ sampleProfile.checks, ∀ b : Bool,
    observation sampleDecoder (printed binding.checkId b) binding.checkId = .ok b := by
  decide +kernel

/-- What is expected of the precondition is that it holds. -/
theorem expectedAt_precondition (role : StageRole) : ∀ binding ∈ sampleProfile.checks,
    binding.phase = .pre → expectedAt role binding = true := by
  cases role <;> decide

theorem sampleOutput_short : ∀ binding ∈ sampleProfile.checks, ∀ b : Bool,
    (printed binding.checkId b).length ≤ 1000 := by
  decide +kernel

theorem sampleRunner_endsWell (outcomes : List Outcome) {call : StageCall}
    (hasked : sampleRunner.Asked call.kind) :
    sampleRunner.EndsWell call (sampleResult outcomes call) where
  subject := rfl
  endedWell := by
    refine ⟨?_, ⟨rfl, rfl, rfl⟩, le_rfl, Nat.zero_le _, ⟨?_, Nat.zero_le _⟩, Nat.zero_le _, ?_⟩
    · cases isProbe call.kind <;> rfl
    · -- only checks print anything, and the limit of the profile is far from reached
      show (sampleOutput call).length ≤ 1000
      unfold sampleOutput
      cases hkind : call.kind with
      | check binding =>
        rw [hkind] at hasked
        exact sampleOutput_short binding hasked _
      | executor => exact Nat.zero_le _
      | probe probe => exact Nat.zero_le _
    · intro code hcode
      obtain rfl : 0 = code := by simpa [sampleResult] using hcode
      decide
  container := isNonEmpty_serial _
  clean := ⟨rfl, rfl⟩
  executor _ := ⟨bareTree, 0, rfl, rfl, le_rfl, Nat.zero_le _, bareTree_valid, by decide +kernel, rfl⟩
  observes := by
    intro binding hkind
    rw [hkind] at hasked
    refine ⟨expectedAt call.role binding, ?_, expectedAt_precondition _ binding hasked⟩
    show observation sampleDecoder (sampleOutput call) binding.checkId = _
    rw [sampleOutput, hkind]
    exact observation_printed binding hasked _

theorem sampleRunner_honest : sampleRunner.Honest where
  fresh _ _ := rfl
  ends results _ _ hasked := ⟨_, rfl, sampleRunner_endsWell (results.map .result) hasked⟩
  orderly _ := sampleRunner_orderly

theorem sampleRunner_ready : sampleRunner.Ready 0 where
  profile := by decide +kernel
  checks := by decide
  repetition := Nat.zero_lt_one
  initial := bareTree_valid
  source := rfl
  views _ := ⟨[], rfl⟩
  subject := by
    obtain ⟨execution, hexecution⟩ := exists_executionSubject_sample parityDigest
    exact BehaviorService.exists_subject_of_context (S := sampleService) hexecution rfl .pair
      (Nat.zero_le _)
  decoder := ⟨1000, _, rfl⟩
  reader := ⟨.base64, rfl, rfl⟩
  digests := isDigest_parityDigest
  world := sampleWorld_friendly _
  identifiers := isNonEmpty_serial

def sampleState : PairState := ⟨⟨RecordJournal.emptyLedger, 0⟩, [], [], [], false⟩

theorem sampleState_clean : sampleRunner.Clean [] sampleState where
  holds := ⟨⟨rfl, List.nodup_nil⟩, by simp [sampleState, RecordJournal.emptyLedger], List.nil_subset _⟩
  produced := ⟨[], rfl, .nil⟩
  blockers := rfl
  certain := rfl

/-- The pair of the sample host, with its precondition and its probes, is recorded, and its report is
verified. -/
theorem pair_exact_sample : ∃ report s' j,
    Returns (sampleRunner.pair 0) sampleState report s' ∧
    Returns (sampleRunner.service.verifyReport sampleWorld (.differential report)) s'.journal () j ∧
    s'.blockers = [] ∧ ∀ blocker ∈ report.blockers, blocker ∈ findingCodes := by
  have hscopes : ∀ pattern ∈ sampleRunner.service.bound.request.contract.allowedScope ++
      sampleRunner.service.bound.request.contract.forbiddenSpillover, WellFormed pattern := by
    refine List.forall_mem_singleton.mpr ?_
    exact ⟨["spillover".toList], by decide +kernel⟩
  obtain ⟨report, _, _, _, _, s', j, hpair, hverified, _, hblockers, _, _, _, _, _, _, hcodes, _⟩ :=
    pair_exact sampleRunner sampleRunner_ready sampleRunner_honest sampleContract_accepted
      (by decide) hscopes sampleState_clean
  exact ⟨report, s', j, hpair, hverified, hblockers, hcodes⟩

end Sample

end PairRunner

end ContractCapsule.Twin
