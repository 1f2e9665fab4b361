import ContractCapsule.Twin.Acceptance

/-!
# What a Valid Verdict Says

A report is valid when the service says so at the end of a call that read the journal several times
while others used it, and a report that was recorded may be verified much later. What a report on
repetitions vouches for was judged in earlier calls, on evidence that the host had recorded.

`Grows` is what every call does to a journal: records are only added, and a valid report is only
added about evidence that passed. `verdict_sound` reads off what a valid report says about the
evidence, in every run.
-/

namespace ContractCapsule.Twin

open Library Models

variable {F : Type} [FloatText F] {ν : Type}

namespace BehaviorService

variable (S : BehaviorService F ν)

/-! ## Section 1: What is on record -/

/-- The host recorded this evidence for a run. -/
structure Ran (written : List Record) (run : AgentRun) (evidence : CompletedRunEvidence) :
    Prop where
  recorded : ∃ scope subject payload, S.scope = some scope ∧
    S.subject run.role.stage run.repetition = some subject ∧
    (⟨run.record.recordId, "run", scope, subject, payload⟩ : Record) ∈ written ∧
    S.journal.digestBytes payload = run.record.digest ∧ evidence.payloadBytes = some payload
  role : evidence.role = run.role
  repetition : evidence.repetition = run.repetition

/-- The host recorded this evidence for a pair of runs. -/
structure Paired (written : List Record) (old new : AgentRun) (evidence : PairEvidence) :
    Prop where
  recorded : ∃ reference scope subject payload, new.pairRecord = some reference ∧
    S.scope = some scope ∧ S.subject .pair old.repetition = some subject ∧
    (⟨reference.recordId, "pair", scope, subject, payload⟩ : Record) ∈ written ∧
    evidence.payloadBytes = some payload
  records : evidence.oldRecord = old.record ∧ evidence.newRecord = new.record
  repetition : evidence.repetition = old.repetition

/-- The evidence of one side is on record and passed. -/
structure SidePassed (written : List Record) (run : AgentRun) (role : RunRole)
    (evidence : CompletedRunEvidence) : Prop where
  ran : S.Ran written run evidence
  role : evidence.role = role
  passed : S.RunPassed evidence
  inScope : S.StaysInScope evidence

/-- The evidence of two runs is on record and passed, on either side and together. -/
structure Vouches (written : List Record) (old new : AgentRun)
    (oldEvidence newEvidence : CompletedRunEvidence) (pair : PairEvidence) : Prop where
  oldSide : S.SidePassed written old .old oldEvidence
  newSide : S.SidePassed written new .new newEvidence
  repetition : old.repetition = new.repetition
  paired : S.Paired written old new pair
  passed : S.PairPassed oldEvidence newEvidence pair

/-- Two runs have evidence on record that passed, on either side and together. -/
def Vouched (written : List Record) (old new : AgentRun) : Prop :=
  ∃ oldEvidence newEvidence pair, S.Vouches written old new oldEvidence newEvidence pair

/-- Every repetition was made once, both sides of each passed, and all of them trace the same. -/
structure GroupPassed (written : List Record) (pairs : List DifferentialReport) : Prop where
  repetitions : (pairs.map fun pair => pair.old.repetition).Perm
    (List.range S.bound.profile.repetitions)
  vouched : ∀ pair ∈ pairs, S.Vouched written pair.old pair.new
  stable : ∀ p ∈ pairs, ∀ q ∈ pairs, SameOutcome p q

/-- What a report is about is on record and passed. -/
def Backed (written : List Record) : Report → Prop
  | .contract report => ∃ evidence, S.Ran written report.run evidence ∧ S.RunPassed evidence
  | .differential report => S.Vouched written report.old report.new
  | .repetitions report => S.GroupPassed written report.pairs

/-- The record is that of a report of this service. -/
structure Reports (record : Record) (report : Report) : Prop where
  kind : record.kind = report.kind
  scope : S.scope = some record.scope
  subject : S.reportSubject report = some record.subject
  payload : report.payloadBytes = some record.payload

/-- A record of a valid report is about evidence that passed. -/
def Honest (written : List Record) (record : Record) : Prop :=
  ∀ report, S.Reports record report → report.valid = true → S.Backed written report

/-- An authentic journal whose valid reports are about evidence that passed. -/
structure Sound (L : RecordLedger) : Prop where
  authentic : L.Authentic S.journal.sealing
  honest : ∀ record ∈ L.written, S.Honest L.written record

/-- What others do to a journal: its host appends records, and anyone may tamper with the table.
They do not write the reports of this service. -/
structure Foreign (L L' : RecordLedger) : Prop where
  run : Relation.ReflTransGen S.journal.JournalStep L L'
  foreign : ∀ record ∈ L'.written, record ∈ L.written ∨ ∀ report, ¬ S.Reports record report

/-- A world in which others do not write the reports of the service. -/
def Admissible (W : JournalWorld) : Prop := ∀ n L, S.Foreign L (W.meanwhile n L)

/-- A journal stays sound, and records are only added. -/
def Grows (s s' : JournalState) : Prop :=
  S.Sound s.ledger → S.Sound s'.ledger ∧ s.ledger.written <+: s'.ledger.written

instance : IsPreorder JournalState S.Grows where
  refl _ hs := ⟨hs, List.prefix_rfl⟩
  trans _ _ _ h h' hs := ⟨(h' (h hs).1).1, (h hs).2.trans (h' (h hs).1).2⟩

variable {S}

theorem Ran.mono {written written' : List Record} (h : written <+: written') {run : AgentRun}
    {evidence : CompletedRunEvidence} (hran : S.Ran written run evidence) :
    S.Ran written' run evidence := by
  obtain ⟨⟨scope, subject, payload, hscope, hsubject, hmem, hrest⟩, hrole, hrepetition⟩ := hran
  exact ⟨⟨scope, subject, payload, hscope, hsubject, h.subset hmem, hrest⟩, hrole, hrepetition⟩

theorem Paired.mono {written written' : List Record} (h : written <+: written')
    {old new : AgentRun} {evidence : PairEvidence} (hpair : S.Paired written old new evidence) :
    S.Paired written' old new evidence := by
  obtain ⟨⟨reference, scope, subject, payload, hreference, hscope, hsubject, hmem, hrest⟩,
    hrecords, hrepetition⟩ := hpair
  exact ⟨⟨reference, scope, subject, payload, hreference, hscope, hsubject, h.subset hmem, hrest⟩,
    hrecords, hrepetition⟩

theorem SidePassed.mono {written written' : List Record} (h : written <+: written') {run : AgentRun}
    {role : RunRole} {evidence : CompletedRunEvidence}
    (hside : S.SidePassed written run role evidence) : S.SidePassed written' run role evidence :=
  ⟨hside.ran.mono h, hside.role, hside.passed, hside.inScope⟩

theorem Vouched.mono {written written' : List Record} (h : written <+: written')
    {old new : AgentRun} (hvouched : S.Vouched written old new) : S.Vouched written' old new := by
  obtain ⟨oldEvidence, newEvidence, pair, hvouches⟩ := hvouched
  exact ⟨oldEvidence, newEvidence, pair, hvouches.oldSide.mono h, hvouches.newSide.mono h,
    hvouches.repetition, hvouches.paired.mono h, hvouches.passed⟩

theorem Backed.mono {written written' : List Record} (h : written <+: written') {report : Report}
    (hbacked : S.Backed written report) : S.Backed written' report := by
  cases report with
  | contract report =>
    obtain ⟨evidence, hran, hpassed⟩ := hbacked
    exact ⟨evidence, hran.mono h, hpassed⟩
  | differential report => exact Vouched.mono h hbacked
  | repetitions report =>
    exact ⟨hbacked.repetitions, fun pair hpair => (hbacked.vouched pair hpair).mono h,
      hbacked.stable⟩

/-- Reports of one kind with one payload say the same. -/
theorem backed_of_payload (S : BehaviorService F ν) (written : List Record)
    {report report' : Report} {payload : Bytes} (hkind : report.kind = report'.kind) (h : report.payloadBytes = some payload)
    (h' : report'.payloadBytes = some payload) :
    report.valid = report'.valid ∧ (S.Backed written report' → S.Backed written report) := by
  -- reports of different kinds have different types, and of one kind the payload is injective
  cases report with
  | contract report =>
    cases report' with
    | contract report' =>
      rw [contract_payload_injective h h']
      exact ⟨rfl, id⟩
    | differential report' => simp [Report.kind] at hkind
    | repetitions report' => simp [Report.kind] at hkind
  | differential report =>
    cases report' with
    | contract report' => simp [Report.kind] at hkind
    | differential report' =>
      rw [differential_payload_injective h h']
      exact ⟨rfl, id⟩
    | repetitions report' => simp [Report.kind] at hkind
  | repetitions report =>
    cases report' with
    | contract report' => simp [Report.kind] at hkind
    | differential report' => simp [Report.kind] at hkind
    | repetitions report' =>
      rw [repetitions_payload_injective h h']
      exact ⟨rfl, id⟩

/-- A run has one evidence on record. -/
theorem Ran.unique (hdigest : Function.Injective S.journal.digestBytes) {written : List Record}
    {run : AgentRun} {evidence evidence' : CompletedRunEvidence}
    (h : S.Ran written run evidence) (h' : S.Ran written run evidence') : evidence = evidence' := by
  obtain ⟨_, _, payload, _, _, _, hpayload, hbytes⟩ := h.recorded
  obtain ⟨_, _, payload', _, _, _, hpayload', hbytes'⟩ := h'.recorded
  obtain rfl := hdigest (hpayload.trans hpayload'.symm)
  have hrun := faithful_runEvidence _ _ (same_of_canonicalBytes hbytes hbytes')
  simp only [CompletedRunEvidence.toRun, RunEvidence.mk.injEq, Option.some.injEq] at hrun
  obtain ⟨hrole, hrepetition, hfinal, hsnapshot, hexecutor, hchecks⟩ := hrun
  cases evidence
  cases evidence'
  simp_all

theorem Sound.foreign {L L' : RecordLedger} (hL : S.Sound L) (h : S.Foreign L L') :
    S.Sound L' ∧ L.written <+: L'.written := by
  have hsteps := Relation.ReflTransGen.mono (fun _ _ => RecordJournal.JournalStep.sealed) _ _ h.run
  obtain ⟨hauthentic, hprefix⟩ := hL.authentic.run hsteps
  refine ⟨⟨hauthentic, ?_⟩, hprefix⟩
  intro record hrecord report hreports hvalid
  rcases h.foreign record hrecord with hold | hforeign
  · exact (hL.honest record hold report hreports hvalid).mono hprefix
  · exact absurd hreports (hforeign report)

/-! ## Section 2: Accesses -/

section Accesses

variable {W : JournalWorld}

theorem within_connect (hW : S.Admissible W) : Within S.Grows (connect W) := by
  apply within_bind
  · exact within_write fun s hs => hs.foreign (hW _ _)
  · exact fun _ => within_query _

theorem within_verifyRecord (hW : S.Admissible W) (reference : RecordRef)
    (kind scope subject : String) :
    Within S.Grows (S.journal.verifyRecord W reference kind scope subject) :=
  within_bind (within_connect hW) fun _ => within_query _

/-- What is resolved in a sound journal was recorded. -/
theorem mem_written_of_verifyRecord (hdigest : Function.Injective S.journal.digestBytes)
    (hW : S.Admissible W) {s s' : JournalState} (hs : S.Sound s.ledger) {reference : RecordRef}
    {kind scope subject : String} {payload : Bytes}
    (h : Returns (S.journal.verifyRecord W reference kind scope subject) s payload s') :
    (⟨reference.recordId, kind, scope, subject, payload⟩ : Record) ∈ s'.ledger.written ∧
      S.journal.digestBytes payload = reference.digest := by
  obtain ⟨_, s₁, hconnect, hverify⟩ := (returns_bind _ _ _ _ _).mp h
  obtain ⟨hresolved, rfl⟩ := (returns_query _ _ _ _).mp hverify
  have hs₁ := ((within_connect hW).returns hconnect hs).1
  refine ⟨RecordJournal.mem_written_of_verify hdigest hs₁.authentic hresolved, ?_⟩
  obtain ⟨_, _, _, hpayload, _⟩ := S.journal.verify_eq_ok.mp hresolved
  exact hpayload

/-- An append keeps a journal sound when what it appends is honest. -/
theorem leftBehind_appendRecord (hW : S.Admissible W) {s : JournalState}
    {kind scope subject : String} {payload : Bytes}
    (hhonest : ∀ written id, s.ledger.written <+: written →
      S.Honest written ⟨id, kind, scope, subject, payload⟩) :
    S.Grows s (leftBehind (S.journal.appendRecord W kind scope subject payload) s) := by
  intro hs
  have hgrows : S.Grows s
      (leftBehind (S.journal.appendRecord W kind scope subject payload) s) := by
    apply leftBehind_bind_within (within_connect hW s)
    intro _ s₁ hconnect hs₁
    have hgrown := ((within_connect hW).returns hconnect hs).2
    unfold leftBehind RecordJournal.insertRecord
    -- connecting writes no record, so only the insertion is to be looked at
    dsimp only
    cases happend : S.journal.append ⟨W.uuid s₁.accesses, kind, scope, subject, payload⟩
        s₁.ledger.rows with
    -- a refused row leaves the ledger as it is
    | error e rows => exact ⟨hs₁, List.prefix_rfl⟩
    | ok reference rows =>
      have hstep : S.journal.JournalStep s₁.ledger ⟨rows, s₁.ledger.written ++
          [⟨W.uuid s₁.accesses, kind, scope, subject, payload⟩]⟩ :=
        .append (.append s₁.ledger _ reference rows happend)
      refine ⟨⟨hs₁.authentic.step hstep.sealed, ?_⟩, List.prefix_append _ _⟩
      -- a record from before stays honest over the longer ledger
      intro record hrecord
      rcases List.mem_append.mp hrecord with hold | hnew
      · intro report hreports hvalid
        exact (hs₁.honest record hold report hreports hvalid).mono (List.prefix_append _ _)
      · rw [List.mem_singleton.mp hnew]
        exact hhonest _ _ (hgrown.trans (List.prefix_append _ _))
  exact hgrows hs

end Accesses

/-! ## Section 3: Reading runs and pairs -/

section Calls

variable {W : JournalWorld}

theorem within_readRun (hW : S.Admissible W) (run : AgentRun) :
    Within S.Grows (S.readRun W run) := by
  unfold readRun
  apply within_check_bind
  intro _
  apply within_check_bind
  intro _
  apply within_check_bind
  intro _
  exact within_bind (within_verifyRecord hW _ _ _ _) fun _ => within_check _

theorem readRun_returns (hdigest : Function.Injective S.journal.digestBytes)
    (hW : S.Admissible W) {s s' : JournalState} (hs : S.Sound s.ledger) {run : AgentRun}
    {evidence : CompletedRunEvidence} (h : Returns (S.readRun W run) s evidence s') :
    S.Ran s'.ledger.written run evidence ∧ S.context.initial.Accepted ∧ evidence.final.Accepted := by
  simp only [readRun, returns_bind, returns_check, orRaise_eq_ok] at h
  obtain ⟨_, _, ⟨_, rfl⟩, scope, _, ⟨hscope, rfl⟩, subject, _, ⟨hsubject, rfl⟩, payload, s₁,
    hverify, hcheck, rfl⟩ := h
  obtain ⟨hmem, hpayload⟩ := mem_written_of_verifyRecord hdigest hW hs hverify
  obtain ⟨hbytes, hrole, hrepetition, hinitial, hfinal⟩ := checkRun_eq_ok hcheck
  exact ⟨⟨⟨scope, subject, payload, hscope, hsubject, hmem, hpayload, hbytes⟩, hrole,
    hrepetition⟩, hinitial, hfinal⟩

theorem within_pairRuns (hW : S.Admissible W) (old new : AgentRun) :
    Within S.Grows (S.pairRuns W old new) := by
  unfold pairRuns
  apply within_check_bind
  intro _
  apply within_bind (within_readRun hW old)
  intro _
  apply within_bind (within_readRun hW new)
  intro _
  exact within_check_bind fun _ => within_pure _

/-- Two runs that were read as a pair. -/
theorem pairRuns_returns (hdigest : Function.Injective S.journal.digestBytes)
    (hW : S.Admissible W) {s s' : JournalState} (hs : S.Sound s.ledger) {old new : AgentRun}
    {runs : CompletedRunEvidence × CompletedRunEvidence}
    (h : Returns (S.pairRuns W old new) s runs s') :
    (S.Ran s'.ledger.written old runs.1 ∧ S.Ran s'.ledger.written new runs.2) ∧
      (S.context.initial.Accepted ∧ runs.1.final.Accepted ∧ runs.2.final.Accepted) ∧
      old.role = .old ∧ new.role = .new ∧ old.repetition = new.repetition := by
  simp only [pairRuns, returns_bind, returns_check, returns_pure, raiseIf_eq_ok, not_or, not_not,
    ne_eq] at h
  obtain ⟨_, _, ⟨⟨hold, hnew, hrepetition, _, _⟩, rfl⟩, oldEvidence, s₁, hfirst, newEvidence, s₂,
    hsecond, _, _, ⟨_, rfl⟩, rfl, rfl⟩ := h
  obtain ⟨hs₁, _⟩ := (within_readRun hW old).returns hfirst hs
  obtain ⟨_, hprefix⟩ := (within_readRun hW new).returns hsecond hs₁
  obtain ⟨hran, hinitial, hfinal⟩ := readRun_returns hdigest hW hs hfirst
  obtain ⟨hran', _, hfinal'⟩ := readRun_returns hdigest hW hs₁ hsecond
  exact ⟨⟨hran.mono hprefix, hran'⟩, ⟨hinitial, hfinal, hfinal'⟩, hold, hnew, hrepetition⟩

theorem within_pairTraces (hW : S.Admissible W) (old new : AgentRun)
    (oldEvidence newEvidence : CompletedRunEvidence) :
    Within S.Grows (S.pairTraces W old new oldEvidence newEvidence) := by
  unfold pairTraces
  apply within_check_bind
  intro _
  apply within_check_bind
  intro _
  apply within_check_bind
  intro _
  exact within_bind (within_verifyRecord hW _ _ _ _) fun _ => within_check _

theorem within_judgeTraces (hW : S.Admissible W) (old new : AgentRun)
    (oldEvidence newEvidence : CompletedRunEvidence) :
    Within S.Grows (S.judgeTraces W old new oldEvidence newEvidence) :=
  within_check_bind fun _ => within_pairTraces hW old new oldEvidence newEvidence

/-- Traces of a pair that block nothing. -/
theorem judgeTraces_returns (hdigest : Function.Injective S.journal.digestBytes)
    (hids : (S.bound.profile.checks.map CheckBinding.checkId).Nodup)
    (hW : S.Admissible W) {s s' : JournalState} (hs : S.Sound s.ledger) {old new : AgentRun}
    {oldEvidence newEvidence : CompletedRunEvidence} {traces : List CheckTrace}
    (h : Returns (S.judgeTraces W old new oldEvidence newEvidence) s traces s')
    (hblockers : traceBlockers traces = []) :
    ∃ pair, S.Paired s'.ledger.written old new pair ∧
      S.PairPassed oldEvidence newEvidence pair := by
  simp only [judgeTraces, pairTraces, returns_bind, returns_check, orRaise_eq_ok] at h
  obtain ⟨_, _, ⟨hcross, rfl⟩, scope, _, ⟨hscope, rfl⟩, subject, _, ⟨hsubject, rfl⟩, reference, _,
    ⟨hreference, rfl⟩, payload, s₁, hverify, hcheck, rfl⟩ := h
  obtain ⟨hmem, _⟩ := mem_written_of_verifyRecord hdigest hW hs hverify
  obtain ⟨pair, hbytes, hold, hnew, hrepetition, hpassed⟩ :=
    pairPassed_of_checkPair hids hcross hcheck hblockers
  exact ⟨pair, ⟨⟨reference, scope, subject, payload, hreference, hscope, hsubject, hmem, hbytes⟩,
    ⟨hold, hnew⟩, hrepetition⟩, hpassed⟩

/-! ## Section 4: Reports -/

/-- Persisting a report keeps a journal sound when the report is backed. -/
theorem leftBehind_persist (hW : S.Admissible W) {s : JournalState} {report : Report}
    (hbacked : report.valid = true → S.Backed s.ledger.written report) :
    S.Grows s (leftBehind (S.persist W report) s) := by
  rw [persist, leftBehind_attempt]
  apply leftBehind_bind_within (within_check _ s)
  intro scope _ hscope
  obtain ⟨_, rfl⟩ := (returns_check _ _ _ _).mp hscope
  apply leftBehind_bind_within (within_check _ s)
  intro subject _ hsubject
  obtain ⟨_, rfl⟩ := (returns_check _ _ _ _).mp hsubject
  apply leftBehind_bind_within (within_check _ s)
  intro payload _ hpayload
  obtain ⟨hbytes, rfl⟩ := (returns_check _ _ _ _).mp hpayload
  apply leftBehind_appendRecord hW
  intro written id hprefix other hreports hvalid
  -- a report with the same payload says the same
  obtain ⟨hsame, hback⟩ := backed_of_payload S written hreports.kind.symm hreports.payload
    ((orRaise_eq_ok _ _ _).mp hbytes)
  exact hback (Backed.mono hprefix (hbacked (hsame ▸ hvalid)))

theorem grows_of_persist (hW : S.Admissible W) {s s' : JournalState} {report : Report}
    {reference : Except RecordError RecordRef}
    (h : Returns (S.persist W report) s reference s')
    (hbacked : report.valid = true → S.Backed s.ledger.written report) : S.Grows s s' := by
  have hkept := leftBehind_persist hW hbacked
  rwa [Confinement.leftBehind_of_returns h] at hkept

theorem within_judgeRun (hW : S.Admissible W) (run : AgentRun)
    (contract : ReplacementContract (Number F)) : Within S.Grows (S.judgeRun W run contract) := by
  unfold judgeRun
  apply within_check_bind
  intro _
  exact within_bind (within_readRun hW run) fun _ => within_check _

/-- A report that was persisted as valid, or without blockers, has a record. -/
theorem persisted_eq {valid : Bool} {blockers : List String}
    {reference : Except RecordError RecordRef} (h : (persisted valid blockers reference).1 = true ∨
      (persisted valid blockers reference).2.1 = []) :
    ∃ record, reference = .ok record := by
  cases reference with
  | ok record => exact ⟨record, rfl⟩
  | error e => simp [persisted] at h

/-- Findings without blockers are about a run whose evidence is on record and passed. -/
theorem backed_of_judgeRun (hdigest : Function.Injective S.journal.digestBytes)
    (hW : S.Admissible W) {s s' : JournalState} (hs : S.Sound s.ledger) {run : AgentRun}
    {contract : ReplacementContract (Number F)}
    {judged : Except RecordError (List CheckTrace)}
    (h : Returns (attempt anyError (S.judgeRun W run contract)) s judged s')
    (hvalid : (contractReport run (contractFindings judged)).valid = true) :
    S.Backed s'.ledger.written (.contract (contractReport run (contractFindings judged))) := by
  have hblockers := List.isEmpty_iff.mp hvalid
  cases judged with
  | error e => simp [contractFindings] at hblockers
  | ok traces =>
    have hrun := returns_of_attempt h
    simp only [judgeRun, returns_bind, returns_check] at hrun
    obtain ⟨_, _, ⟨_, rfl⟩, evidence, _, hread, htraces, rfl⟩ := hrun
    obtain ⟨hran, hinitial, hfinal⟩ := readRun_returns hdigest hW hs hread
    exact ⟨evidence, hran, runPassed_of_runTraces ⟨hinitial, hfinal⟩ htraces hblockers⟩

/-- What is left of a contract report: it is persisted on evidence that was judged. -/
theorem within_evaluateContract (hdigest : Function.Injective S.journal.digestBytes)
    (hW : S.Admissible W) (run : AgentRun) (contract : ReplacementContract (Number F)) :
    Within S.Grows (S.evaluateContract W run contract) := by
  intro s hs
  have hgrows : S.Grows s (leftBehind (S.evaluateContract W run contract) s) := by
    apply leftBehind_bind_within (within_attempt (within_judgeRun hW run contract) s)
    intro judged s₁ hjudged
    apply leftBehind_bind_within
    · apply leftBehind_persist hW
      exact backed_of_judgeRun hdigest hW hs hjudged
    · intro _ s₂ _
      exact within_pure _ s₂
  exact hgrows hs

theorem run_of_evaluateContract {s s' : JournalState} {run : AgentRun}
    {contract : ReplacementContract (Number F)} {report : ContractReport}
    (h : Returns (S.evaluateContract W run contract) s report s') : report.run = run := by
  simp only [evaluateContract, returns_bind, returns_pure] at h
  obtain ⟨_, _, _, _, _, _, rfl, _⟩ := h
  rfl

/-- A contract report that is valid, or without blockers, is about a run that passed. -/
theorem evaluateContract_returns (hdigest : Function.Injective S.journal.digestBytes)
    (hW : S.Admissible W) {s s' : JournalState} (hs : S.Sound s.ledger) {run : AgentRun}
    {contract : ReplacementContract (Number F)} {report : ContractReport}
    (h : Returns (S.evaluateContract W run contract) s report s')
    (hclear : report.valid = true ∨ report.blockers = []) :
    ∃ evidence, S.Ran s'.ledger.written run evidence ∧ S.RunPassed evidence := by
  simp only [evaluateContract, returns_bind, returns_pure] at h
  obtain ⟨judged, s₁, hjudged, reference, s₂, hpersist, rfl, rfl⟩ := h
  obtain ⟨record, rfl⟩ := persisted_eq hclear
  have hvalid : (contractReport run (contractFindings judged)).valid = true := by
    rcases hclear with hvalid | hblockers
    · exact hvalid
    · exact List.isEmpty_iff.mpr (uniqueStrings_eq_nil.mp hblockers)
  have hbacked := backed_of_judgeRun hdigest hW hs hjudged
  have hs₁ := ((within_attempt (within_judgeRun hW run contract)).returns hjudged hs).1
  have hprefix := (grows_of_persist hW hpersist hbacked hs₁).2
  obtain ⟨evidence, hran, hpassed⟩ := hbacked hvalid
  exact ⟨evidence, hran.mono hprefix, hpassed⟩

/-! ## Section 5: Pairs -/

theorem within_judgeScopes (hW : S.Admissible W) (old new : AgentRun)
    (contract : ReplacementContract (Number F)) (oldEvidence newEvidence : CompletedRunEvidence) :
    Within S.Grows (S.judgeScopes W old new contract oldEvidence newEvidence) := by
  unfold judgeScopes
  dsimp only
  split
  · exact within_pure _
  · apply within_bind (within_attempt (within_judgeTraces hW old new oldEvidence newEvidence))
    intro judged
    cases judged <;> exact within_pure _

theorem within_judgePair (hW : S.Admissible W) (old new : AgentRun)
    (contract : ReplacementContract (Number F)) :
    Within S.Grows (S.judgePair W old new contract) := by
  unfold judgePair
  apply within_bind
  · apply within_attempt
    exact within_check_bind fun _ => within_pairRuns hW old new
  · intro runs
    cases runs with
    | error e => exact within_pure _
    | ok runs => exact within_judgeScopes hW old new contract runs.1 runs.2

/-- Findings without blockers, after the runs were read. -/
theorem judgeScopes_returns (hdigest : Function.Injective S.journal.digestBytes)
    (hids : (S.bound.profile.checks.map CheckBinding.checkId).Nodup)
    (hW : S.Admissible W) {s s' : JournalState} (hs : S.Sound s.ledger) {old new : AgentRun}
    {contract : ReplacementContract (Number F)} (hcontract : S.checkContract contract = .ok ())
    {oldEvidence newEvidence : CompletedRunEvidence}
    (haccepted : S.context.initial.Accepted ∧ oldEvidence.final.Accepted ∧
      newEvidence.final.Accepted) {findings : PairFindings}
    (h : Returns (S.judgeScopes W old new contract oldEvidence newEvidence) s findings s')
    (hblockers : findings.blockers = []) :
    S.StaysInScope oldEvidence ∧ S.StaysInScope newEvidence ∧
      ∃ pair, S.Paired s'.ledger.written old new pair ∧
        S.PairPassed oldEvidence newEvidence pair := by
  obtain ⟨hinitial, hold, hnew⟩ := haccepted
  unfold judgeScopes at h
  dsimp only at h
  split at h
  · obtain ⟨rfl, _⟩ := (returns_pure _ _ _ _).mp h
    cases hblockers
  -- a scope check that could not be made leaves a blocker, and so does evidence that is refused
  · next outside hviolated =>
    obtain ⟨judged, s₁, hjudged, h⟩ := (returns_bind _ _ _ _ _).mp h
    cases judged with
    | error e =>
      obtain ⟨rfl, _⟩ := (returns_pure _ _ _ _).mp h
      simp at hblockers
    | ok traces =>
      obtain ⟨rfl, rfl⟩ := (returns_pure _ _ _ _).mp h
      -- nothing was found out of scope, and no trace blocks
      obtain ⟨houtside, htraces⟩ := List.append_eq_nil_iff.mp hblockers
      obtain rfl : outside = false := by
        cases outside <;> simp_all
      rw [anyM_eq_ok_false] at hviolated
      refine ⟨staysInScope_of_scopeViolations hcontract ⟨hinitial, hold⟩
        (hviolated _ List.mem_cons_self), staysInScope_of_scopeViolations hcontract
        ⟨hinitial, hnew⟩ (hviolated _ (List.mem_cons_of_mem _ List.mem_cons_self)), ?_⟩
      exact judgeTraces_returns hdigest hids hW hs (returns_of_attempt hjudged) htraces

/-- **A differential report without blockers** is about two runs that passed, alone and together. -/
theorem vouched_of_compareRuns (hdigest : Function.Injective S.journal.digestBytes)
    (hids : (S.bound.profile.checks.map CheckBinding.checkId).Nodup)
    (hW : S.Admissible W) {s s₁ s₂ s₃ : JournalState} (hs : S.Sound s.ledger) {old new : AgentRun}
    {contract : ReplacementContract (Number F)} {oldReport newReport : ContractReport}
    {findings : PairFindings}
    (hold : Returns (S.evaluateContract W old contract) s oldReport s₁)
    (hnew : Returns (S.evaluateContract W new contract) s₁ newReport s₂)
    (hpair : Returns (S.judgePair W old new contract) s₂ findings s₃)
    (hvalid : (differentialReport old new oldReport newReport findings).valid = true) :
    S.Vouched s₃.ledger.written old new := by
  simp only [differentialReport, List.isEmpty_iff, List.append_eq_nil_iff] at hvalid
  obtain ⟨⟨hnoOld, hnoNew⟩, hnone⟩ := hvalid
  obtain ⟨hs₁, hprefix₁⟩ := (within_evaluateContract hdigest hW old contract).returns hold hs
  obtain ⟨hs₂, hprefix₂⟩ := (within_evaluateContract hdigest hW new contract).returns hnew hs₁
  obtain ⟨hs₃, hprefix₃⟩ := (within_judgePair hW old new contract).returns hpair hs₂
  obtain ⟨oldEvidence, hranOld, hpassedOld⟩ := evaluateContract_returns hdigest hW hs hold (.inr hnoOld)
  obtain ⟨newEvidence, hranNew, hpassedNew⟩ := evaluateContract_returns hdigest hW hs₁ hnew (.inr hnoNew)
  unfold judgePair at hpair
  obtain ⟨runs, s₄, hruns, hpair⟩ := (returns_bind _ _ _ _ _).mp hpair
  cases runs with
  | error e =>
    obtain ⟨rfl, _⟩ := (returns_pure _ _ _ _).mp hpair
    cases hnone
  | ok runs =>
    have hread := returns_of_attempt hruns
    simp only [returns_bind, returns_check] at hread
    obtain ⟨_, _, ⟨hcontract, rfl⟩, hread⟩ := hread
    obtain ⟨⟨hran, hran'⟩, haccepted, hroleOld, hroleNew, hrepetition⟩ :=
      pairRuns_returns hdigest hW hs₂ hread
    obtain ⟨hs₄, hprefix₄⟩ := (within_pairRuns hW old new).returns hread hs₂
    -- the pair was read again, and is the evidence that was judged
    have hsame := (hranOld.mono (hprefix₂.trans hprefix₄)).unique hdigest hran
    have hsame' := (hranNew.mono hprefix₄).unique hdigest hran'
    obtain ⟨hscopeOld, hscopeNew, pair, hpaired, hpassed⟩ :=
      judgeScopes_returns hdigest hids hW hs₄ hcontract haccepted hpair hnone
    have hlast := (within_judgeScopes hW old new contract runs.1 runs.2).returns hpair hs₄
    refine ⟨runs.1, runs.2, pair, ⟨hran.mono hlast.2, ?_, ?_, hscopeOld⟩,
      ⟨hran'.mono hlast.2, ?_, ?_, hscopeNew⟩, hrepetition, hpaired, hpassed⟩
    · rw [hran.role, hroleOld]
    · rwa [← hsame]
    · rw [hran'.role, hroleNew]
    · rwa [← hsame']

theorem within_compareRuns (hdigest : Function.Injective S.journal.digestBytes)
    (hids : (S.bound.profile.checks.map CheckBinding.checkId).Nodup) (hW : S.Admissible W)
    (old new : AgentRun) (contract : ReplacementContract (Number F)) :
    Within S.Grows (S.compareRuns W old new contract) := by
  intro s hs
  have hgrows : S.Grows s (leftBehind (S.compareRuns W old new contract) s) := by
    apply leftBehind_bind_within (within_evaluateContract hdigest hW old contract s)
    intro oldReport s₁ hold
    apply leftBehind_bind_within (within_evaluateContract hdigest hW new contract s₁)
    intro newReport s₂ hnew
    apply leftBehind_bind_within (within_judgePair hW old new contract s₂)
    intro findings s₃ hpair
    apply leftBehind_bind_within
    · apply leftBehind_persist hW
      exact vouched_of_compareRuns hdigest hids hW hs hold hnew hpair
    · intro _ s₄ _
      exact within_pure _ s₄
  exact hgrows hs

/-- A differential report that is returned as valid is about two runs that passed. -/
theorem compareRuns_returns (hdigest : Function.Injective S.journal.digestBytes)
    (hids : (S.bound.profile.checks.map CheckBinding.checkId).Nodup) (hW : S.Admissible W)
    {s s' : JournalState} (hs : S.Sound s.ledger) {old new : AgentRun}
    {contract : ReplacementContract (Number F)} {report : DifferentialReport}
    (h : Returns (S.compareRuns W old new contract) s report s') (hvalid : report.valid = true) :
    S.Backed s'.ledger.written (.differential report) := by
  simp only [compareRuns, returns_bind, returns_pure] at h
  obtain ⟨oldReport, s₁, hold, newReport, s₂, hnew, findings, s₃, hpair, reference, s₄, hpersist,
    rfl, rfl⟩ := h
  obtain ⟨record, rfl⟩ := persisted_eq (Or.inl hvalid)
  have hvouched := vouched_of_compareRuns hdigest hids hW hs hold hnew hpair
  have hs₁ := ((within_evaluateContract hdigest hW old contract).returns hold hs).1
  have hs₂ := ((within_evaluateContract hdigest hW new contract).returns hnew hs₁).1
  have hs₃ := ((within_judgePair hW old new contract).returns hpair hs₂).1
  exact (hvouched hvalid).mono (grows_of_persist hW hpersist hvouched hs₃).2

/-! ## Section 6: Repetitions -/

theorem within_verifyPayload (hW : S.Admissible W) (report : Report) :
    Within S.Grows (S.verifyPayload W report) := by
  unfold verifyPayload
  apply within_check_bind
  intro _
  apply within_check_bind
  intro _
  apply within_check_bind
  intro _
  exact within_bind (within_verifyRecord hW _ _ _ _) fun _ => within_check _

theorem within_verifyContractReport (hW : S.Admissible W) (report : ContractReport) :
    Within S.Grows (S.verifyContractReport W report) := by
  unfold verifyContractReport
  apply within_bind (within_verifyPayload hW _)
  intro _
  exact within_bind (within_readRun hW _) fun _ => within_pure _

theorem within_verifyMembers (hW : S.Admissible W) (report : DifferentialReport) :
    Within S.Grows (S.verifyMembers W report) := by
  unfold verifyMembers
  apply within_bind (within_verifyContractReport hW _)
  intro _
  apply within_bind (within_verifyContractReport hW _)
  intro _
  apply within_bind (within_pairRuns hW _ _)
  intro _
  exact within_bind (within_pairTraces hW _ _ _ _) fun _ => within_pure _

theorem within_verifyDifferentialReport (hW : S.Admissible W) (report : DifferentialReport) :
    Within S.Grows (S.verifyDifferentialReport W report) :=
  within_bind (within_verifyPayload hW _) fun _ => within_verifyMembers hW report

theorem within_verifyReport (hW : S.Admissible W) (report : Report) :
    Within S.Grows (S.verifyReport W report) := by
  cases report with
  | contract report => exact within_verifyContractReport hW report
  | differential report => exact within_verifyDifferentialReport hW report
  | repetitions report =>
    exact within_bind (within_verifyPayload hW _) fun _ =>
      within_runEach (within_verifyDifferentialReport hW) report.pairs

/-- A valid report whose payload is on record is about evidence that passed. -/
theorem backed_of_verifyPayload (hdigest : Function.Injective S.journal.digestBytes)
    (hW : S.Admissible W) {s s' : JournalState} (hs : S.Sound s.ledger) {report : Report}
    (h : Returns (S.verifyPayload W report) s () s') (hvalid : report.valid = true) :
    S.Backed s'.ledger.written report := by
  have hs' := ((within_verifyPayload hW _).returns h hs).1
  simp only [verifyPayload, returns_bind, returns_check, orRaise_eq_ok, raiseIf_eq_ok, not_not,
    ne_eq] at h
  obtain ⟨scope, _, ⟨hscope, rfl⟩, subject, _, ⟨hsubject, rfl⟩, reference, _, ⟨_, rfl⟩, payload,
    s₂, hverify, hbytes, rfl⟩ := h
  obtain ⟨hmem, _⟩ := mem_written_of_verifyRecord hdigest hW hs hverify
  exact hs'.honest _ hmem report ⟨rfl, hscope, hsubject, hbytes⟩ hvalid

/-- A valid report that is verified is about evidence that passed. -/
theorem verifyReport_returns (hdigest : Function.Injective S.journal.digestBytes)
    (hW : S.Admissible W) {s s' : JournalState} (hs : S.Sound s.ledger) {report : Report}
    (h : Returns (S.verifyReport W report) s () s') (hvalid : report.valid = true) :
    S.Backed s'.ledger.written report := by
  -- the payload is verified first, and what follows only reads
  have hrest : ∃ s₁, Returns (S.verifyPayload W report) s () s₁ ∧ S.Grows s₁ s' := by
    cases report with
    | contract report =>
      obtain ⟨_, s₁, hpayload, hrest⟩ := (returns_bind _ _ _ _ _).mp h
      exact ⟨s₁, hpayload, (within_bind (within_readRun hW _) fun _ =>
        within_pure _).returns hrest⟩
    | differential report =>
      obtain ⟨_, s₁, hpayload, hrest⟩ := (returns_bind _ _ _ _ _).mp h
      exact ⟨s₁, hpayload, (within_verifyMembers hW report).returns hrest⟩
    | repetitions report =>
      obtain ⟨_, s₁, hpayload, hrest⟩ := (returns_bind _ _ _ _ _).mp h
      exact ⟨s₁, hpayload,
        (within_runEach (within_verifyDifferentialReport hW) report.pairs).returns hrest⟩
  obtain ⟨s₁, hpayload, hgrows⟩ := hrest
  have hs₁ := ((within_verifyPayload hW _).returns hpayload hs).1
  exact (backed_of_verifyPayload hdigest hW hs hpayload hvalid).mono (hgrows hs₁).2

theorem within_verifyGroup (hW : S.Admissible W) (pairs : List DifferentialReport) :
    Within S.Grows (S.verifyGroup W pairs) :=
  within_bind (within_runEach (within_verifyDifferentialReport hW) pairs) fun _ => within_check _

/-- A group of pairs that was verified and has no blockers passed. -/
theorem groupPassed_of_verifyGroup (hdigest : Function.Injective S.journal.digestBytes)
    (hW : S.Admissible W) {s s' : JournalState} (hs : S.Sound s.ledger)
    {pairs : List DifferentialReport} {verified : Except RecordError Unit}
    (h : Returns (attempt anyError (S.verifyGroup W pairs)) s verified s')
    (hblockers : S.groupBlockers pairs verified = []) : S.GroupPassed s'.ledger.written pairs := by
  cases verified with
  | error e => simp [groupBlockers] at hblockers
  | ok u =>
    have hgroup := returns_of_attempt h
    unfold verifyGroup at hgroup
    obtain ⟨_, s₁, hloop, hindices⟩ := (returns_bind _ _ _ _ _).mp hgroup
    obtain ⟨hsorted, rfl⟩ := (returns_check _ _ _ _).mp hindices
    rw [raiseIf_eq_ok, not_not] at hsorted
    obtain ⟨hvalid, _, hsame⟩ := groupBlockers_eq_nil.mp hblockers
    refine ⟨?_, ?_, fun p hp q hq => SameOutcome.of_outcome hdigest (hsame p hp q hq)⟩
    · rw [← hsorted]
      exact (List.perm_insertionSort _ _).symm
    -- the pair was verified at some point of the loop, and what backed it then still does
    · intro pair hpair
      obtain ⟨s₂, s₃, hreach, hverify, hrest⟩ :=
        returns_runEach (within_verifyDifferentialReport hW) hloop hpair
      have hs₂ := (hreach hs).1
      have hs₃ := ((within_verifyDifferentialReport hW pair).returns hverify hs₂).1
      have hvouched : S.Backed s₃.ledger.written (.differential pair) :=
        @verifyReport_returns _ _ _ _ _ hdigest hW s₂ s₃ hs₂ _ hverify
          (hvalid pair hpair)
      exact Backed.mono (hrest hs₃).2 hvouched

theorem within_evaluateRepetitions (hdigest : Function.Injective S.journal.digestBytes)
    (hW : S.Admissible W) (pairs : List DifferentialReport) :
    Within S.Grows (S.evaluateRepetitions W pairs) := by
  intro s hs
  have hgrows : S.Grows s (leftBehind (S.evaluateRepetitions W pairs) s) := by
    apply leftBehind_bind_within (within_attempt (within_verifyGroup hW pairs) s)
    intro verified s₁ hverified
    apply leftBehind_bind_within
    · apply leftBehind_persist hW
      intro hvalid
      exact groupPassed_of_verifyGroup hdigest hW hs hverified (List.isEmpty_iff.mp hvalid)
    · intro _ s₂ _
      exact within_pure _ s₂
  exact hgrows hs

/-- A repetition report that is returned as valid is about a group that passed. -/
theorem evaluateRepetitions_returns (hdigest : Function.Injective S.journal.digestBytes)
    (hW : S.Admissible W) {s s' : JournalState} (hs : S.Sound s.ledger)
    {pairs : List DifferentialReport} {report : RepetitionReport}
    (h : Returns (S.evaluateRepetitions W pairs) s report s') (hvalid : report.valid = true) :
    S.Backed s'.ledger.written (.repetitions report) := by
  simp only [evaluateRepetitions, returns_bind, returns_pure] at h
  obtain ⟨verified, s₁, hverified, reference, s₂, hpersist, rfl, rfl⟩ := h
  obtain ⟨record, rfl⟩ := persisted_eq (Or.inl hvalid)
  have hs₁ := ((within_attempt (within_verifyGroup hW pairs)).returns hverified hs).1
  have hgroup : S.groupBlockers pairs verified = [] := List.isEmpty_iff.mp hvalid
  have hpassed := groupPassed_of_verifyGroup hdigest hW hs hverified hgroup
  have hbacked : S.Backed s₁.ledger.written (.repetitions ⟨(S.groupBlockers pairs
      verified).isEmpty, S.groupBlockers pairs verified, pairs, none⟩) := hpassed
  exact Backed.mono (grows_of_persist hW hpersist (fun _ => hbacked) hs₁).2 hbacked

/-! ## Section 7: Runs of the service -/

/-- A record that is no report may be appended at any time. -/
theorem within_appendRecord (hW : S.Admissible W) {kind : String}
    (h : ∀ report : Report, report.kind ≠ kind) (scope subject : String) (payload : Bytes) :
    Within S.Grows (S.journal.appendRecord W kind scope subject payload) := by
  intro s
  apply leftBehind_appendRecord hW
  intro written id _ report hreports
  exact absurd hreports.kind.symm (h report)

theorem kind_ne_run (report : Report) : report.kind ≠ "run" := by
  cases report <;> simp [Report.kind]

theorem kind_ne_pair (report : Report) : report.kind ≠ "pair" := by
  cases report <;> simp [Report.kind]

theorem within_recordRun (hW : S.Admissible W) (evidence : RunEvidence) :
    Within S.Grows (S.recordRun W evidence) := by
  unfold recordRun
  apply within_check_bind
  intro _
  apply within_check_bind
  intro _
  apply within_check_bind
  intro _
  exact within_bind (within_appendRecord hW kind_ne_run _ _ _) fun _ => within_pure _

theorem within_recordPair (hW : S.Admissible W) (old new : AgentRun) (evidence : PairEvidence) :
    Within S.Grows (S.recordPair W old new evidence) := by
  unfold recordPair
  apply within_check_bind
  intro _
  apply within_check_bind
  intro _
  apply within_check_bind
  intro _
  exact within_bind (within_appendRecord hW kind_ne_pair _ _ _) fun _ => within_pure _

variable (S) in
/-- The calls of the recorder and of the service. -/
inductive ServiceCall (W : JournalWorld) : {α : Type} → JournalTx α → Prop where
  | recordRun (evidence : RunEvidence) : ServiceCall W (S.recordRun W evidence)
  | recordPair (old new : AgentRun) (evidence : PairEvidence) :
      ServiceCall W (S.recordPair W old new evidence)
  | evaluateContract (run : AgentRun) (contract : ReplacementContract (Number F)) :
      ServiceCall W (S.evaluateContract W run contract)
  | compareRuns (old new : AgentRun) (contract : ReplacementContract (Number F)) :
      ServiceCall W (S.compareRuns W old new contract)
  | evaluateRepetitions (pairs : List DifferentialReport) :
      ServiceCall W (S.evaluateRepetitions W pairs)
  | verifyReport (report : Report) : ServiceCall W (S.verifyReport W report)

variable (S) in
/-- Others use the journal, or a call is made while they do. Whatever the call returns or raises,
and with whatever arguments it was made, what it leaves in the journal stays. -/
inductive ServiceStep : RecordLedger → RecordLedger → Prop where
  | others {L L' : RecordLedger} (foreign : S.Foreign L L') : ServiceStep L L'
  | call {W : JournalWorld} {α : Type} {call : JournalTx α} (hW : S.Admissible W)
      (made : S.ServiceCall W call) (s : JournalState) :
      ServiceStep s.ledger (leftBehind call s).ledger

/-- Every call keeps a journal sound. -/
theorem within_call (hdigest : Function.Injective S.journal.digestBytes)
    (hids : (S.bound.profile.checks.map CheckBinding.checkId).Nodup) (hW : S.Admissible W)
    {α : Type} {call : JournalTx α} (h : S.ServiceCall W call) : Within S.Grows call := by
  cases h with
  | recordRun evidence => exact within_recordRun hW evidence
  | recordPair old new evidence => exact within_recordPair hW old new evidence
  | evaluateContract run contract => exact within_evaluateContract hdigest hW run contract
  | compareRuns old new contract => exact within_compareRuns hdigest hids hW old new contract
  | evaluateRepetitions pairs => exact within_evaluateRepetitions hdigest hW pairs
  | verifyReport report => exact within_verifyReport hW report

/-- **Every run** of the service leaves a sound journal. -/
theorem sound_of_run (hdigest : Function.Injective S.journal.digestBytes)
    (hids : (S.bound.profile.checks.map CheckBinding.checkId).Nodup) {L : RecordLedger}
    (hrun : Relation.ReflTransGen S.ServiceStep RecordJournal.emptyLedger L) : S.Sound L := by
  induction hrun with
  | refl =>
    refine ⟨RecordJournal.authentic_of_run .refl, ?_⟩
    intro record hrecord
    cases hrecord
  | tail _ hstep ih =>
    cases hstep with
    | others foreign => exact (ih.foreign foreign).1
    | call hW made s => exact (within_call hdigest hids hW made s ih).1

end Calls

/-! ## Section 8: What the clauses of the contract demand -/

variable (S)

/-- What a clause demands to be observed on a side. The old side may miss a target or not. -/
def demanded (side : RunRole) : CheckRole → Option Bool
  | .target => match side with
    | .old => none
    | .new => some true
  | .spillover => some false
  | .differential => none
  | .precondition | .invariant | .static | .behavioral => some true

/-- A binding has one capture, and it observed `b`. -/
def ObservedOnce (captures : List CheckCapture) (binding : CheckBinding) (b : Bool) : Prop :=
  ∃ capture ∈ captures, (∀ other ∈ captures, other.checkId = binding.checkId ↔ other = capture) ∧
    S.observe binding capture = .ok b

/-- Every clause of the contract was checked once, and what was observed is what it demands. -/
structure ClausesMet (host : ContractHost F) (old new : CompletedRunEvidence)
    (pair : PairEvidence) : Prop where
  alone : ∀ side ∈ [old, new], ∀ clause ∈ clausesOf S.bound.request.contract,
    clause.role ≠ .differential → ∃ binding ∈ S.bound.profile.checks,
      Checks host binding clause ∧ ∃ observed, S.ObservedOnce side.checks binding observed ∧
        ∀ b ∈ demanded side.role clause.role, observed = b
  together : ∀ clause ∈ clausesOf S.bound.request.contract, clause.role = .differential →
    ∃ binding ∈ S.bound.profile.checks, Checks host binding clause ∧
      S.ObservedOnce pair.checks binding true
  /-- Some target is missed on the old side and met on the new one. -/
  changes : ∃ binding ∈ S.bound.profile.checks, binding.role = .target ∧
    S.ObservedOnce old.checks binding false ∧ S.ObservedOnce new.checks binding true

omit [FloatText F] in
/-- The clauses that are checked on both sides together are the differential ones. -/
theorem phase_of_role {contract : ReplacementContract (Number F)} {clause : Clause}
    (h : clause ∈ clausesOf contract) : clause.phase = .pair ↔ clause.role = .differential := by
  obtain ⟨collection, hcollection, hclause⟩ := List.mem_flatMap.mp h
  have hfields : clause.role = collection.2.1 ∧ clause.phase = collection.2.2.1 := by
    rw [collectionClauses, List.mem_mapIdx] at hclause
    obtain ⟨_, _, rfl⟩ := hclause
    exact ⟨rfl, rfl⟩
  rw [hfields.1, hfields.2]
  simp only [clauseCollections, List.mem_cons, List.not_mem_nil, or_false] at hcollection
  rcases hcollection with rfl | rfl | rfl | rfl | rfl | rfl | rfl <;> simp

/-- What a binding expects of a side is what its clause demands. -/
theorem expectedOf_of_demanded {binding : CheckBinding} (h : ExpectsByRole binding)
    {side : RunRole} {b : Bool} (hb : b ∈ demanded side binding.role) :
    expectedOf side binding = b := by
  cases hrole : binding.role <;> cases side <;>
    simp_all [demanded, expectedOf, h.guard, h.target, h.spillover]

variable {S}

/-- One capture for each binding, of which something holds. -/
theorem observedOnce_of_oneForEach {captures : List CheckCapture} {bindings : List CheckBinding}
    (h : OneForEach captures bindings) {binding : CheckBinding} (hmem : binding ∈ bindings) {b : Bool}
    (hobserved : ∀ capture ∈ captures, capture.checkId = binding.checkId →
      S.observe binding capture = .ok b) : S.ObservedOnce captures binding b := by
  obtain ⟨capture, ⟨hcapture, hid⟩, hunique⟩ := h.each binding hmem
  refine ⟨capture, hcapture, ?_, hobserved capture hcapture hid⟩
  intro other hother
  constructor
  · intro hotherId
    exact hunique other ⟨hother, hotherId⟩
  · intro hsame
    rw [hsame, hid]

theorem SidePassed.observedOnce {written : List Record} {run : AgentRun} {role : RunRole}
    {evidence : CompletedRunEvidence} (h : S.SidePassed written run role evidence)
    {binding : CheckBinding} (hbinding : binding ∈ S.bound.profile.checks)
    (hphase : binding.phase ≠ .pair) :
    S.ObservedOnce evidence.checks binding (expectedOf role binding) := by
  apply observedOnce_of_oneForEach h.passed.once (by simpa using ⟨hbinding, hphase⟩)
  intro capture hcapture hid
  rw [← h.role]
  exact (h.passed.checks binding hbinding hphase capture hcapture hid).observed

/-- Evidence that passed meets every clause of a contract that is covered. -/
theorem clausesMet_of_vouches {host : ContractHost F}
    (hcovers : Covers host S.bound.request.contract S.bound.profile) {written : List Record}
    {old new : AgentRun} {oldEvidence newEvidence : CompletedRunEvidence} {pair : PairEvidence}
    (h : S.Vouches written old new oldEvidence newEvidence pair) :
    S.ClausesMet host oldEvidence newEvidence pair := by
  -- a clause about one side is checked before or after its executor, one about both with the
  -- pair
  have hpair : ∀ clause ∈ clausesOf S.bound.request.contract, ∀ binding : CheckBinding,
      Checks host binding clause → (binding.phase = .pair ↔ clause.role = .differential) := by
    intro clause hclause binding hchecks
    rw [hchecks.phase]
    exact phase_of_role hclause
  constructor
  · intro side hside clause hclause hrole
    obtain ⟨binding, ⟨hbinding, hchecks⟩, _⟩ := hcovers.checked clause hclause
    have hphase : binding.phase ≠ .pair := by
      rwa [Ne, hpair clause hclause binding hchecks]
    have hobserved : S.ObservedOnce side.checks binding (expectedOf side.role binding) := by
      simp only [List.mem_cons, List.not_mem_nil, or_false] at hside
      rcases hside with rfl | rfl
      · rw [h.oldSide.role]
        exact h.oldSide.observedOnce hbinding hphase
      · rw [h.newSide.role]
        exact h.newSide.observedOnce hbinding hphase
    refine ⟨binding, hbinding, hchecks, _, hobserved, ?_⟩
    intro b hb
    rw [← hchecks.role] at hb
    exact expectedOf_of_demanded (hcovers.bound binding hbinding).2 hb
  · intro clause hclause hrole
    obtain ⟨binding, ⟨hbinding, hchecks⟩, _⟩ := hcovers.checked clause hclause
    have hphase := (hpair clause hclause binding hchecks).mpr hrole
    refine ⟨binding, hbinding, hchecks, ?_⟩
    apply observedOnce_of_oneForEach h.passed.once (by simpa using ⟨hbinding, hphase⟩)
    intro capture hcapture hid
    exact (h.passed.checks binding hbinding hphase capture hcapture hid).1
  · obtain ⟨binding, hbinding, htarget, hmissed⟩ := hcovers.changes
    obtain ⟨⟨clause, hclause, hchecks⟩, hexpects⟩ := hcovers.bound binding hbinding
    have hphase : binding.phase ≠ .pair := by
      rw [Ne, hpair clause hclause binding hchecks, ← hchecks.role, htarget]
      simp
    have hold := h.oldSide.observedOnce hbinding hphase
    have hnew := h.newSide.observedOnce hbinding hphase
    simp only [expectedOf, hmissed, hexpects.target htarget, Option.getD_some] at hold hnew
    exact ⟨binding, hbinding, htarget, hold, hnew⟩

/-! ## Section 9: The verdict -/

variable (S) in
/-- A report was returned by a call of the service, or was verified by one. -/
inductive Obtained (W : JournalWorld) (s : JournalState) : Report → JournalState → Prop where
  | evaluated {run : AgentRun} {contract : ReplacementContract (Number F)}
      {report : ContractReport} {s' : JournalState}
      (returned : Returns (S.evaluateContract W run contract) s report s') :
      Obtained W s (.contract report) s'
  | compared {old new : AgentRun} {contract : ReplacementContract (Number F)}
      {report : DifferentialReport} {s' : JournalState}
      (returned : Returns (S.compareRuns W old new contract) s report s') :
      Obtained W s (.differential report) s'
  | repeated {pairs : List DifferentialReport} {report : RepetitionReport} {s' : JournalState}
      (returned : Returns (S.evaluateRepetitions W pairs) s report s') :
      Obtained W s (.repetitions report) s'
  | verified {report : Report} {s' : JournalState}
      (returned : Returns (S.verifyReport W report) s () s') : Obtained W s report s'

/-- A report of a call to a sound journal that is valid is about evidence that passed. -/
theorem Obtained.backed (hdigest : Function.Injective S.journal.digestBytes)
    (hids : (S.bound.profile.checks.map CheckBinding.checkId).Nodup) {W : JournalWorld}
    (hW : S.Admissible W) {s s' : JournalState} (hs : S.Sound s.ledger) {report : Report}
    (h : S.Obtained W s report s') (hvalid : report.valid = true) :
    S.Backed s'.ledger.written report := by
  cases h with
  | evaluated returned =>
    obtain ⟨evidence, hran, hpassed⟩ :=
      evaluateContract_returns hdigest hW hs returned (.inl hvalid)
    rw [← run_of_evaluateContract returned] at hran
    exact ⟨evidence, hran, hpassed⟩
  | compared returned => exact compareRuns_returns hdigest hids hW hs returned hvalid
  | repeated returned => exact evaluateRepetitions_returns hdigest hW hs returned hvalid
  | verified returned => exact verifyReport_returns hdigest hW hs returned hvalid

/-- The pairs that a report is about. -/
def pairsOf : Report → List DifferentialReport
  | .contract _ => []
  | .differential report => [report]
  | .repetitions report => report.pairs

/-- **What a valid verdict says**: in every run of the service, whatever others do to the journal
without its key and whatever arguments its calls are given, a valid report that a call returns or
verifies is about evidence on record that passed. On each of its pairs every clause of the contract
was observed as it demands. -/
theorem verdict_sound (S : BehaviorService F ν) {host : ContractHost F}
    {request : ReplacementRequest F} (hbound : parseExecutionContract host request = .ok S.bound)
    (hdigest : Function.Injective S.journal.digestBytes) {L : RecordLedger}
    (hrun : Relation.ReflTransGen S.ServiceStep RecordJournal.emptyLedger L) {W : JournalWorld}
    (hW : S.Admissible W) {n : ℕ} {report : Report} {s : JournalState}
    (h : S.Obtained W ⟨L, n⟩ report s) (hvalid : report.valid = true) :
    S.Backed s.ledger.written report ∧
      ∀ pair ∈ pairsOf report, ∃ oldEvidence newEvidence pairEvidence,
        S.Vouches s.ledger.written pair.old pair.new oldEvidence newEvidence pairEvidence ∧
        S.ClausesMet host oldEvidence newEvidence pairEvidence := by
  obtain ⟨hrequest, _, _, hcoverage, _⟩ := checks_of_parseExecutionContract hbound
  have hcovers : Covers host S.bound.request.contract S.bound.profile := by
    rw [hrequest]
    exact covers_of_checkCoverage hcoverage
  -- what backs a valid report holds of every run, and the contract says what its evidence means
  have hids := hcovers.checkIds
  have hbacked := h.backed hdigest hids hW (sound_of_run hdigest hids hrun) hvalid
  refine ⟨hbacked, ?_⟩
  intro pair hpair
  have hvouched : S.Vouched s.ledger.written pair.old pair.new := by
    cases report with
    | contract report => cases hpair
    | differential report =>
      rw [List.mem_singleton.mp hpair]
      exact hbacked
    | repetitions report => exact hbacked.vouched pair hpair
  obtain ⟨oldEvidence, newEvidence, pairEvidence, hvouches⟩ := hvouched
  exact ⟨oldEvidence, newEvidence, pairEvidence, hvouches, clausesMet_of_vouches hcovers hvouches⟩

end BehaviorService

end ContractCapsule.Twin
