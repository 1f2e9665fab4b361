import ContractCapsule.Library.Within
import ContractCapsule.Resolve.Declared
import ContractCapsule.Twin.Judgement

/-!
# Evidence that is Read

The other side of a verdict: in a journal that nobody tampers with, evidence that the host recorded
and that can be read gets reports with the blockers that its observations and its change sets call
for, and no others. The service verifies every report that it issued.

`verdicts_exact` says so of a whole group of repetitions.
-/

namespace ContractCapsule.Twin

open Library Models

variable {F : Type} [FloatText F] {ν : Type}

/-- The database is there, others only append to the journal, and no identifier is drawn twice. -/
structure JournalWorld.Friendly (W : JournalWorld) (J : RecordJournal) : Prop where
  appends : ∀ n L, Relation.ReflTransGen J.Appends L (W.meanwhile n L)
  others : ∀ n L, ∀ record ∈ (W.meanwhile n L).written, record ∈ L.written ∨
    ∀ m, W.uuid m ≠ record.recordId
  available : ∀ n, W.unavailable n = false
  fresh : Function.Injective W.uuid

namespace BehaviorService

variable (S : BehaviorService F ν) (W : JournalWorld)

/-! ## Section 1: A journal among friends -/

/-- A journal that was only appended to, with some records on it. What is drawn next is new. -/
structure Holds (records : List Record) (s : JournalState) : Prop where
  kept : RecordJournal.Kept S.journal s.ledger
  drawn : ∀ record ∈ s.ledger.written, ∀ n > s.accesses, W.uuid n ≠ record.recordId
  held : records ⊆ s.ledger.written

/-- A record with this kind, subject and payload is held under a reference. -/
def HeldAs (records : List Record) (reference : RecordRef) (kind subject : String)
    (payload : Bytes) : Prop :=
  ∃ scope, S.scope = some scope ∧
    (⟨reference.recordId, kind, scope, subject, payload⟩ : Record) ∈ records ∧
    S.journal.digestBytes payload = reference.digest

variable {S W}

theorem Holds.mono {records records' : List Record} {s : JournalState} (h : S.Holds W records s)
    (hsub : records' ⊆ records) : S.Holds W records' s :=
  ⟨h.kept, h.drawn, List.Subset.trans hsub h.held⟩

theorem HeldAs.mono {records records' : List Record} {reference : RecordRef}
    {kind subject : String} {payload : Bytes}
    (h : S.HeldAs records reference kind subject payload) (hsub : records ⊆ records') :
    S.HeldAs records' reference kind subject payload := by
  obtain ⟨scope, hscope, hmem, hdigest⟩ := h
  exact ⟨scope, hscope, hsub hmem, hdigest⟩

section Accesses

variable {records : List Record}

/-- An access to the journal among friends. -/
theorem connect_returns (hW : W.Friendly S.journal) {s : JournalState} (hs : S.Holds W records s) :
    ∃ s', Returns (connect W) s () s' ∧ S.Holds W records s' ∧ s'.accesses = s.accesses + 1 ∧
      ∀ record ∈ s'.ledger.written, W.uuid s'.accesses ≠ record.recordId := by
  have hdrawn : ∀ record ∈ (W.meanwhile s.accesses s.ledger).written, ∀ n > s.accesses,
      W.uuid n ≠ record.recordId := by
    intro record hrecord n hn
    rcases hW.others _ _ record hrecord with hold | hother
    · exact hs.drawn record hold n hn
    · exact hother n
  refine ⟨⟨W.meanwhile s.accesses s.ledger, s.accesses + 1⟩, ?_, ⟨hs.kept.run (hW.appends _ _),
    fun record hrecord n hn => hdrawn record hrecord n (by dsimp only at hn; omega), ?_⟩, rfl,
    fun record hrecord => hdrawn record hrecord _ (Nat.lt_succ_self _)⟩
  · unfold connect
    rw [returns_bind]
    refine ⟨(), ⟨W.meanwhile s.accesses s.ledger, s.accesses + 1⟩, rfl, ?_⟩
    rw [returns_query, raiseIf_eq_ok, hW.available]
    exact ⟨by simp, rfl⟩
  · exact List.Subset.trans hs.held (RecordJournal.written_of_run (hW.appends _ _)).subset

/-- A record that is held is resolved. -/
theorem delivers_verifyRecord (hW : W.Friendly S.journal) {reference : RecordRef}
    {kind scope subject : String} {payload : Bytes} (hscope : S.scope = some scope)
    (h : S.HeldAs records reference kind subject payload) :
    Delivers (S.Holds W records) (S.journal.verifyRecord W reference kind scope subject)
      payload := by
  obtain ⟨found, hfound, hmem, hdigest⟩ := h
  obtain rfl : scope = found := Option.some.inj (hscope.symm.trans hfound)
  intro s hs
  obtain ⟨s', hconnect, hs', _⟩ := connect_returns hW hs
  refine ⟨s', ?_, hs'⟩
  unfold RecordJournal.verifyRecord
  rw [returns_bind]
  refine ⟨(), s', hconnect, ?_⟩
  rw [returns_query, hs'.kept.verify_iff]
  exact ⟨⟨hs'.held hmem, hdigest⟩, rfl⟩

theorem insertRecord_returns {J : RecordJournal} {kind scope subject : String} {payload : Bytes}
    {s : JournalState} {reference : RecordRef} {rows : RecordTable}
    (h : Returns (J.append ⟨W.uuid s.accesses, kind, scope, subject, payload⟩) s.ledger.rows
      reference rows) :
    Returns (J.insertRecord W kind scope subject payload) s reference
      ⟨⟨rows, s.ledger.written ++ [⟨W.uuid s.accesses, kind, scope, subject, payload⟩]⟩,
        s.accesses⟩ := by
  unfold Returns at h ⊢
  simp only [RecordJournal.insertRecord, h]

/-- An append succeeds, and what it appends is held under a new identifier. -/
theorem appendRecord_returns (hW : W.Friendly S.journal) {s : JournalState} (hs : S.Holds W records s)
    {kind scope subject : String} {payload : Bytes} (hscope : S.scope = some scope)
    (hcolumns : kind ≠ "" ∧ scope ≠ "" ∧ subject ≠ "") :
    ∃ reference record s', Returns (S.journal.appendRecord W kind scope subject payload) s
        reference s' ∧ S.Holds W (record :: records) s' ∧
      S.HeldAs [record] reference kind subject payload ∧
      ∃ n, reference.recordId = W.uuid n := by
  obtain ⟨s₁, hconnect, hs₁, _, hnew⟩ := connect_returns hW hs
  let record : Record := ⟨W.uuid s₁.accesses, kind, scope, subject, payload⟩
  -- the identifier was not drawn before, so no row holds it
  have hfresh : ∀ row ∈ s₁.ledger.rows, row.recordId ≠ record.recordId := by
    intro row hrow hid
    rw [hs₁.kept.rows] at hrow
    obtain ⟨old, hold, rfl⟩ := List.mem_map.mp hrow
    exact hnew old hold hid.symm
  have happend : Returns (S.journal.append record) s₁.ledger.rows (S.journal.refOf record)
      (s₁.ledger.rows ++ [S.journal.rowOf record]) :=
    S.journal.append_returns.mpr ⟨hcolumns, hfresh, rfl, rfl⟩
  have hstep := RecordJournal.Appends.append s₁.ledger record _ _ happend
  refine ⟨S.journal.refOf record, record,
    ⟨⟨s₁.ledger.rows ++ [S.journal.rowOf record], s₁.ledger.written ++ [record]⟩, s₁.accesses⟩,
    ?_, ⟨hs₁.kept.step hstep, ?_, ?_⟩, ⟨scope, hscope, List.mem_singleton_self _, rfl⟩,
    s₁.accesses, rfl⟩
  · unfold RecordJournal.appendRecord
    rw [returns_bind]
    exact ⟨(), s₁, hconnect, insertRecord_returns happend⟩
  · intro other hother n hn
    rcases List.mem_append.mp hother with hold | hlast
    · exact hs₁.drawn other hold n hn
    · -- the identifier of the record is drawn once
      rw [List.mem_singleton.mp hlast]
      exact hW.fresh.ne (Nat.ne_of_gt hn)
  · intro other hother
    rcases List.mem_cons.mp hother with rfl | hold
    · exact List.mem_append_right _ (List.mem_singleton_self _)
    · exact List.mem_append_left _ (hs₁.held hold)

end Accesses

/-! ## Section 2: Reading evidence -/

/-- Two runs, the evidence that is read of them, and what the checks of it find. -/
structure Trial where
  old : AgentRun
  new : AgentRun
  oldEvidence : CompletedRunEvidence
  newEvidence : CompletedRunEvidence
  oldTraces : List CheckTrace
  newTraces : List CheckTrace
  traces : List CheckTrace
  /-- whether a side leaves the scope -/
  outside : Bool

variable (S)

/-- The evidence of a run is held and read, and has these traces. -/
structure SideRead (records : List Record) (run : AgentRun) (evidence : CompletedRunEvidence)
    (traces : List CheckTrace) : Prop where
  repetition : run.repetition < S.bound.profile.repetitions
  held : ∃ subject payload, S.subject run.role.stage run.repetition = some subject ∧
    S.HeldAs records run.record "run" subject payload ∧ S.checkRun run payload = .ok evidence
  traced : S.runTraces evidence = .ok traces

/-- The evidence of a trial is held and read, on either side and together. -/
structure TrialRead (records : List Record) (t : Trial) : Prop where
  oldSide : S.SideRead records t.old t.oldEvidence t.oldTraces
  newSide : S.SideRead records t.new t.newEvidence t.newTraces
  roles : t.old.role = .old ∧ t.new.role = .new ∧ t.old.repetition = t.new.repetition ∧
    t.old.pairRecord = t.new.pairRecord
  distinct : (pairContainers t.oldEvidence t.newEvidence []).Nodup
  scopes : ([treeDelta S.context.initial t.oldEvidence.final,
    treeDelta S.context.initial t.newEvidence.final].anyM fun delta =>
      scopeViolations delta S.bound.request.contract.allowedScope
        S.bound.request.contract.forbiddenSpillover) = .ok t.outside
  cross : S.crossPreconditions t.oldEvidence t.newEvidence = .ok ()
  held : ∃ reference subject payload, t.new.pairRecord = some reference ∧
    S.subject .pair t.old.repetition = some subject ∧
    S.HeldAs records reference "pair" subject payload ∧
    S.checkPair t.old t.new t.oldEvidence t.newEvidence payload = .ok t.traces

variable {S}

section Reading

variable {records : List Record} {run : AgentRun} {evidence : CompletedRunEvidence}
  {traces : List CheckTrace} {t : Trial}

theorem SideRead.mono {records' : List Record} (h : S.SideRead records run evidence traces)
    (hsub : records ⊆ records') : S.SideRead records' run evidence traces := by
  obtain ⟨subject, payload, hsubject, hheld, hcheck⟩ := h.held
  exact ⟨h.repetition, ⟨subject, payload, hsubject, hheld.mono hsub, hcheck⟩, h.traced⟩

theorem TrialRead.mono {records' : List Record} (h : S.TrialRead records t)
    (hsub : records ⊆ records') : S.TrialRead records' t := by
  obtain ⟨reference, subject, payload, hreference, hsubject, hheld, hcheck⟩ := h.held
  exact ⟨h.oldSide.mono hsub, h.newSide.mono hsub, h.roles, h.distinct, h.scopes, h.cross,
    reference, subject, payload, hreference, hsubject, hheld.mono hsub, hcheck⟩

theorem HeldAs.scope {reference : RecordRef} {kind subject : String} {payload : Bytes}
    (h : S.HeldAs records reference kind subject payload) : ∃ scope, S.scope = some scope := by
  obtain ⟨scope, hscope, _⟩ := h
  exact ⟨scope, hscope⟩

theorem delivers_readRun (hW : W.Friendly S.journal) (h : S.SideRead records run evidence traces) :
    Delivers (S.Holds W records) (S.readRun W run) evidence := by
  obtain ⟨subject, payload, hsubject, hheld, hcheck⟩ := h.held
  obtain ⟨scope, hscope⟩ := hheld.scope
  unfold readRun
  apply delivers_check_bind (a := ()) ((raiseIf_eq_ok _ _ _).mpr (not_not.mpr h.repetition))
  apply delivers_check_bind ((orRaise_eq_ok _ _ _).mpr hscope)
  apply delivers_check_bind ((orRaise_eq_ok _ _ _).mpr hsubject)
  apply delivers_bind (delivers_verifyRecord hW hscope hheld)
  exact delivers_check hcheck

theorem delivers_pairRuns (hW : W.Friendly S.journal) (h : S.TrialRead records t) :
    Delivers (S.Holds W records) (S.pairRuns W t.old t.new) (t.oldEvidence, t.newEvidence) := by
  obtain ⟨hroleOld, hroleNew, hrepetition, hrecord⟩ := h.roles
  obtain ⟨reference, _, _, hreference, _⟩ := h.held
  unfold pairRuns
  apply delivers_check_bind (a := ())
  · rw [raiseIf_eq_ok]
    simp [hroleOld, hroleNew, hrepetition, hrecord, hreference]
  apply delivers_bind (delivers_readRun hW h.oldSide)
  apply delivers_bind (delivers_readRun hW h.newSide)
  apply delivers_check_bind (a := ()) ((raiseIf_eq_ok _ _ _).mpr (not_not.mpr h.distinct))
  exact delivers_pure _

theorem delivers_pairTraces (hW : W.Friendly S.journal) (h : S.TrialRead records t) :
    Delivers (S.Holds W records) (S.pairTraces W t.old t.new t.oldEvidence t.newEvidence)
      t.traces := by
  obtain ⟨reference, subject, payload, hreference, hsubject, hheld, hcheck⟩ := h.held
  obtain ⟨scope, hscope⟩ := hheld.scope
  unfold pairTraces
  apply delivers_check_bind ((orRaise_eq_ok _ _ _).mpr hscope)
  apply delivers_check_bind ((orRaise_eq_ok _ _ _).mpr hsubject)
  apply delivers_check_bind ((orRaise_eq_ok _ _ _).mpr hreference)
  apply delivers_bind (delivers_verifyRecord hW hscope hheld)
  exact delivers_check hcheck

theorem delivers_judgeRun (hW : W.Friendly S.journal) {contract : ReplacementContract (Number F)}
    (hcontract : S.checkContract contract = .ok ()) (h : S.SideRead records run evidence traces) :
    Delivers (S.Holds W records) (S.judgeRun W run contract) traces := by
  unfold judgeRun
  apply delivers_check_bind (a := ()) hcontract
  apply delivers_bind (delivers_readRun hW h)
  exact delivers_check h.traced

/-- What is found of a trial that is read. -/
def Trial.findings (S : BehaviorService F ν) (t : Trial) : PairFindings where
  blockers := (if t.outside then ["SCOPE_VIOLATION"] else []) ++ traceBlockers t.traces
  traces := t.traces
  initialToOld := treeDelta S.context.initial t.oldEvidence.final
  initialToNew := treeDelta S.context.initial t.newEvidence.final
  oldToNew := treeDelta t.oldEvidence.final t.newEvidence.final

theorem delivers_judgePair (hW : W.Friendly S.journal) {contract : ReplacementContract (Number F)}
    (hcontract : S.checkContract contract = .ok ()) (h : S.TrialRead records t) :
    Delivers (S.Holds W records) (S.judgePair W t.old t.new contract) (t.findings S) := by
  obtain ⟨hallowed, hforbidden⟩ := scopes_of_checkContract hcontract
  have hjudged : Delivers (S.Holds W records)
      (S.judgeTraces W t.old t.new t.oldEvidence t.newEvidence) t.traces := by
    unfold judgeTraces
    apply delivers_check_bind (a := ()) h.cross
    exact delivers_pairTraces hW h
  have hfound : Delivers (S.Holds W records)
      (S.judgeScopes W t.old t.new contract t.oldEvidence t.newEvidence) (t.findings S) := by
    unfold judgeScopes
    simp only [hallowed, hforbidden, h.scopes]
    apply delivers_bind (delivers_attempt hjudged)
    exact delivers_pure _
  unfold judgePair
  apply delivers_bind
  · apply delivers_attempt
    apply delivers_check_bind (a := ()) hcontract
    exact delivers_pairRuns hW h
  · exact hfound

end Reading

/-! ## Section 3: Reports -/

/-- A value has an identity when its integers are exact. -/
theorem exists_identity (digestBytes : Bytes → String) {v : Plain} (h : Exact v) :
    ∃ subject, identity digestBytes v = some subject := by
  rw [← Option.isSome_iff_exists, identity, Option.isSome_map, canonicalBytes_isSome]
  exact h

theorem exact_traceCount {traces : List CheckTrace} (h : traces.length ≤ 2 ^ 53 - 1)
    (role : CheckRole) : Exact (countTraces traces role).dump := by
  have hrelevant : (traces.filter fun t => t.role = role.text).length ≤ 2 ^ 53 - 1 :=
    (List.length_filter_le _ _).trans h
  have hpassed := (List.length_filter_le (fun t => decide (t.valid ∧ t.observation = some true))
    (traces.filter fun t => t.role = role.text)).trans hrelevant
  simp only [Exact, Count.dump, Json.numbersAll, Json.membersAll_eq, List.all_cons, List.all_nil,
    Bool.and_true, Bool.and_eq_true]
  exact ⟨exact_count hpassed, exact_count hrelevant⟩

/-- The report on a run that is read, under a record. -/
def tracedContract (run : AgentRun) (traces : List CheckTrace) (record : Option RecordRef) :
    ContractReport :=
  { contractReport run (traces, traceBlockers traces) with record := record }

theorem exact_tracedContract {run : AgentRun} {traces : List CheckTrace}
    (hrun : run.repetition ≤ 2 ^ 53 - 1) (htraces : traces.length ≤ 2 ^ 53 - 1)
    (record : Option RecordRef) : Exact (tracedContract run traces record).dump := by
  simp [Exact, ContractReport.dump, ContractReport.fields, tracedContract, contractReport,
    Json.numbersAll, exact_agentRun hrun, exact_traceCount htraces, exact_traces, exact_strings,
    exact_optionalRef record]

variable (S)

/-- There are repetitions, and few enough of them and of the checks to be counted in a document. -/
structure Countable : Prop where
  positive : 0 < S.bound.profile.repetitions
  repetitions : S.bound.profile.repetitions ≤ 2 ^ 53 - 1
  checks : S.bound.profile.checks.length ≤ 2 ^ 53 - 1

/-- A report has a record that is held. -/
def ReportHeld (records : List Record) (report : Report) : Prop :=
  ∃ reference subject payload, report.record = some reference ∧
    S.reportSubject report = some subject ∧ report.payloadBytes = some payload ∧
    S.HeldAs records reference report.kind subject payload

variable {S}

theorem ReportHeld.mono {records records' : List Record} {report : Report}
    (h : S.ReportHeld records report) (hsub : records ⊆ records') : S.ReportHeld records' report := by
  obtain ⟨reference, subject, payload, hreference, hsubject, hpayload, hheld⟩ := h
  exact ⟨reference, subject, payload, hreference, hsubject, hpayload, hheld.mono hsub⟩

/-- A run has a subject when its execution has one and its context can be written. -/
theorem exists_subject_of_context {execution : String}
    (hexecution : executionSubject S.journal.digestBytes S.bound = some execution)
    (hcontext : Exact S.context.dump) (role : StageRole) {repetition : ℕ}
    (hrepetition : repetition ≤ 2 ^ 53 - 1) :
    ∃ subject, S.subject role repetition = some subject := by
  have hvalue : Exact (.object
      [("domain", .string "ccs-m5-run/1"), ("execution", .string execution),
       ("context", S.context.dump), ("role", .string role.text),
       ("repetition", count repetition)]) := by
    simp [Exact, Json.numbersAll, hcontext, exact_count hrepetition]
  obtain ⟨subject, hsubject⟩ := exists_identity S.journal.digestBytes hvalue
  exact ⟨subject, Option.bind_eq_some_iff.mpr ⟨execution, hexecution, hsubject⟩⟩

/-- One subject of a run is as good as any other: its context can be written. -/
theorem exists_subject {role : StageRole} {repetition : ℕ} {subject : String}
    (h : S.subject role repetition = some subject) (role' : StageRole) {repetition' : ℕ}
    (hrepetition : repetition' ≤ 2 ^ 53 - 1) :
    ∃ subject', S.subject role' repetition' = some subject' := by
  obtain ⟨execution, hexecution, hrun⟩ := Option.bind_eq_some_iff.mp h
  have hexact : Exact S.context.dump := by
    have hsome : (runSubject S.journal.digestBytes execution S.context role repetition).isSome :=
      Option.isSome_iff_exists.mpr ⟨subject, hrun⟩
    rw [runSubject, identity, Option.isSome_map, canonicalBytes_isSome] at hsome
    simp only [Json.numbersAll, Json.membersAll_eq, List.all_cons, Bool.and_eq_true] at hsome
    exact hsome.2.2.1
  exact exists_subject_of_context hexecution hexact role' hrepetition

theorem exists_memberSubject {binding : String} (hbinding : S.subject .pair 0 = some binding)
    (kind : String) {members : List Plain} (hmembers : ∀ member ∈ members, Exact member) :
    ∃ subject, S.memberSubject kind members = some subject := by
  have hvalue : Exact (.object
      [("binding", .string binding), ("kind", .string kind), ("members", .array members)]) := by
    simp only [Exact, Json.numbersAll, Json.membersAll_eq, Json.itemsAll_eq, List.all_cons,
      List.all_nil, Bool.and_true, Bool.true_and, List.all_eq_true]
    exact hmembers
  obtain ⟨subject, hsubject⟩ := exists_identity S.journal.digestBytes hvalue
  exact ⟨subject, Option.bind_eq_some_iff.mpr ⟨binding, hbinding, hsubject⟩⟩

theorem delivers_verifyPayload (hW : W.Friendly S.journal) {records : List Record} {report : Report}
    (h : S.ReportHeld records report) :
    Delivers (S.Holds W records) (S.verifyPayload W report) () := by
  obtain ⟨reference, subject, payload, hreference, hsubject, hpayload, hheld⟩ := h
  obtain ⟨scope, hscope⟩ := hheld.scope
  unfold verifyPayload
  apply delivers_check_bind ((orRaise_eq_ok _ _ _).mpr hscope)
  apply delivers_check_bind ((orRaise_eq_ok _ _ _).mpr hsubject)
  apply delivers_check_bind ((orRaise_eq_ok _ _ _).mpr hreference)
  apply delivers_bind (delivers_verifyRecord hW hscope hheld)
  exact delivers_check ((raiseIf_eq_ok _ _ _).mpr (not_not.mpr hpayload))

section Persisting

variable {records : List Record}

/-- An identity is a digest, which is never empty. -/
theorem ne_empty_of_identity {digestBytes : Bytes → String}
    (hdigest : ∀ bytes, digestBytes bytes ≠ "") {v : Plain} {subject : String}
    (h : identity digestBytes v = some subject) : subject ≠ "" := by
  obtain ⟨bytes, _, rfl⟩ := Option.map_eq_some_iff.mp h
  exact hdigest bytes

theorem ne_empty_of_memberSubject (hdigest : ∀ bytes, S.journal.digestBytes bytes ≠ "")
    {kind : String} {members : List Plain} {subject : String}
    (h : S.memberSubject kind members = some subject) : subject ≠ "" := by
  obtain ⟨_, _, hidentity⟩ := Option.bind_eq_some_iff.mp h
  exact ne_empty_of_identity hdigest hidentity

theorem ne_empty_of_reportSubject (hdigest : ∀ bytes, S.journal.digestBytes bytes ≠ "")
    {report : Report} {subject : String} (h : S.reportSubject report = some subject) :
    subject ≠ "" := by
  cases report with
  | contract report => exact ne_empty_of_memberSubject hdigest h
  | differential report => exact ne_empty_of_memberSubject hdigest h
  | repetitions report =>
    obtain ⟨_, _, hmembers⟩ := Option.bind_eq_some_iff.mp h
    exact ne_empty_of_memberSubject hdigest hmembers

/-- A report that can be written is recorded, and the record is held. -/
theorem persist_returns (hW : W.Friendly S.journal) (hdigest : ∀ bytes, S.journal.digestBytes bytes ≠ "")
    {s : JournalState} (hs : S.Holds W records s) {report : Report} {scope subject : String}
    {payload : Bytes} (hscope : S.scope = some scope)
    (hsubject : S.reportSubject report = some subject)
    (hpayload : report.payloadBytes = some payload) :
    ∃ reference record s', Returns (S.persist W report) s (.ok reference) s' ∧
      S.Holds W (record :: records) s' ∧
      S.HeldAs [record] reference report.kind subject payload := by
  have hkind : report.kind ≠ "" := by
    cases report <;> simp [Report.kind]
  obtain ⟨reference, record, s', happend, hs', hheld, _⟩ := appendRecord_returns hW hs hscope
    ⟨hkind, ne_empty_of_identity hdigest hscope, ne_empty_of_reportSubject hdigest hsubject⟩
  refine ⟨reference, record, s', ?_, hs', hheld⟩
  unfold persist
  apply returns_attempt
  simp only [returns_bind, returns_check, orRaise_eq_ok]
  exact ⟨scope, s, ⟨hscope, rfl⟩, subject, s, ⟨hsubject, rfl⟩, payload, s, ⟨hpayload, rfl⟩, happend⟩

/-- The traces of a run are one for each of its checks. -/
theorem length_of_runTraces {evidence : CompletedRunEvidence} {traces : List CheckTrace}
    (h : S.runTraces evidence = .ok traces) : traces.length ≤ S.bound.profile.checks.length := by
  simp only [runTraces, Except.bind_eq_ok] at h
  obtain ⟨_, _, _, _, _, _, _, _, _, _, _, _, htraces⟩ := h
  rw [← (forall₂_mapM htraces).length_eq]
  exact List.length_filter_le _ _

/-- **A contract report on evidence that is read** has its traces, and its record is held. -/
theorem evaluateContract_reports (hW : W.Friendly S.journal)
    (hdigest : ∀ bytes, S.journal.digestBytes bytes ≠ "") (hcount : S.Countable)
    {s : JournalState} (hs : S.Holds W records s) {run : AgentRun}
    {contract : ReplacementContract (Number F)} {evidence : CompletedRunEvidence}
    {traces : List CheckTrace} (hcontract : S.checkContract contract = .ok ())
    (h : S.SideRead records run evidence traces) :
    ∃ reference record s',
      Returns (S.evaluateContract W run contract) s
        (tracedContract run traces (some reference)) s' ∧
      S.Holds W (record :: records) s' ∧
      S.ReportHeld [record] (.contract (tracedContract run traces (some reference))) := by
  obtain ⟨_, _, hrunSubject, hheld, _⟩ := h.held
  obtain ⟨scope, hscope⟩ := hheld.scope
  -- every count in the report is at most one of the profile's, which can be written
  have hrepetition : run.repetition ≤ 2 ^ 53 - 1 :=
    (Nat.le_of_lt h.repetition).trans hcount.repetitions
  have htraces : traces.length ≤ 2 ^ 53 - 1 := (length_of_runTraces h.traced).trans hcount.checks
  -- the report is kept under a subject of its own: the contract and the run it judged
  obtain ⟨binding, hbinding⟩ := exists_subject hrunSubject .pair (Nat.zero_le _)
  have hsubject : ∃ subject, S.reportSubject (.contract (tracedContract run traces none)) =
      some subject :=
    exists_memberSubject hbinding "contract" (List.forall_mem_singleton.mpr
      (exact_agentRun hrepetition))
  obtain ⟨subject, hsubject⟩ := hsubject
  -- without its record the report is what the payload is made of
  have hfields : Exact (.object (Report.contract (tracedContract run traces none)).fields) := by
    have hdump := exact_tracedContract hrepetition htraces none
    simp only [Exact, ContractReport.dump, Json.numbersAll, Json.membersAll_eq, List.all_append,
      Bool.and_eq_true] at hdump ⊢
    exact hdump.1
  obtain ⟨payload, hpayload⟩ := exists_payload hfields
  -- judging finds the traces, persisting holds the report, and nothing else is done
  obtain ⟨s₁, hrun, hs₁⟩ := delivers_judgeRun hW hcontract h s hs
  obtain ⟨reference, record, s₂, hpersist, hs₂, hrecord⟩ := persist_returns hW hdigest hs₁ hscope
    hsubject hpayload
  refine ⟨reference, record, s₂, ?_, hs₂, reference, subject, payload, rfl, hsubject, hpayload,
    hrecord⟩
  unfold evaluateContract
  simp only [returns_bind, returns_pure]
  exact ⟨.ok traces, s₁, returns_attempt hrun, .ok reference, s₂, hpersist, rfl, rfl⟩

end Persisting

/-! ## Section 4: Pairs and repetitions -/

/-- The report on a trial that is read, with the records of the reports on its sides and its own. -/
def Trial.report (S : BehaviorService F ν) (t : Trial) (oldRecord newRecord : RecordRef)
    (record : Option RecordRef) : DifferentialReport :=
  { differentialReport t.old t.new (tracedContract t.old t.oldTraces (some oldRecord))
      (tracedContract t.new t.newTraces (some newRecord)) (t.findings S) with record := record }

variable (S)

/-- A differential report on a trial that is read, whose record is held with those of the reports on
its sides. -/
structure Verifiable (records : List Record) (report : DifferentialReport) : Prop where
  held : S.ReportHeld records (.differential report)
  oldHeld : S.ReportHeld records (.contract report.oldReport)
  newHeld : S.ReportHeld records (.contract report.newReport)
  read : ∃ t oldRecord newRecord, S.TrialRead records t ∧
    report = t.report S oldRecord newRecord report.record

variable {S}

theorem Verifiable.mono {records records' : List Record} {report : DifferentialReport}
    (h : S.Verifiable records report) (hsub : records ⊆ records') : S.Verifiable records' report := by
  obtain ⟨t, oldRecord, newRecord, hread, hreport⟩ := h.read
  exact ⟨h.held.mono hsub, h.oldHeld.mono hsub, h.newHeld.mono hsub, t, oldRecord, newRecord,
    hread.mono hsub, hreport⟩

/-- The service verifies what it issued. -/
theorem delivers_verifyDifferentialReport (hW : W.Friendly S.journal) {records : List Record}
    {report : DifferentialReport} (h : S.Verifiable records report) :
    Delivers (S.Holds W records) (S.verifyDifferentialReport W report) () := by
  obtain ⟨t, oldRecord, newRecord, hread, hreport⟩ := h.read
  -- each side is verified by itself, as a report and as a run
  have hside : ∀ {member : ContractReport} {evidence : CompletedRunEvidence}
      {traces : List CheckTrace}, S.ReportHeld records (.contract member) →
      S.SideRead records member.run evidence traces →
      Delivers (S.Holds W records) (S.verifyContractReport W member) () := by
    intro member evidence traces hheld hside
    apply delivers_bind (delivers_verifyPayload hW hheld)
    exact delivers_bind (delivers_readRun hW hside) (delivers_pure ())
  have hold : report.old = t.old ∧ report.new = t.new ∧ report.oldReport.run = t.old ∧
      report.newReport.run = t.new := by
    rw [hreport]
    exact ⟨rfl, rfl, rfl, rfl⟩
  obtain ⟨hold, hnew, hrunOld, hrunNew⟩ := hold
  -- the report, then its sides, then the pair of runs and its traces
  apply delivers_bind (delivers_verifyPayload hW h.held)
  apply delivers_bind (hside h.oldHeld (by rw [hrunOld]; exact hread.oldSide))
  apply delivers_bind (hside h.newHeld (by rw [hrunNew]; exact hread.newSide))
  rw [hold, hnew]
  apply delivers_bind (delivers_pairRuns hW hread)
  exact delivers_bind (delivers_pairTraces hW hread) (delivers_pure ())

/-- **A differential report on a trial that is read** says what was found, and can be verified. -/
theorem compareRuns_reports (hW : W.Friendly S.journal) (hdigest : ∀ bytes, S.journal.digestBytes bytes ≠ "")
    (hcount : S.Countable) {records : List Record} {s : JournalState} (hs : S.Holds W records s)
    {t : Trial} {contract : ReplacementContract (Number F)}
    (hcontract : S.checkContract contract = .ok ()) (h : S.TrialRead records t) :
    ∃ oldRecord newRecord record added s',
      Returns (S.compareRuns W t.old t.new contract) s
        (t.report S oldRecord newRecord (some record)) s' ∧
      S.Holds W (added ++ records) s' ∧
      S.Verifiable (added ++ records) (t.report S oldRecord newRecord (some record)) := by
  obtain ⟨_, _, hrunSubject, hheld, _⟩ := h.oldSide.held
  obtain ⟨scope, hscope⟩ := hheld.scope
  have hrepetition : ∀ {run : AgentRun}, run.repetition < S.bound.profile.repetitions →
      run.repetition ≤ 2 ^ 53 - 1 :=
    fun h => (Nat.le_of_lt h).trans hcount.repetitions
  have hold := exact_agentRun (hrepetition h.oldSide.repetition)
  have hnew := exact_agentRun (hrepetition h.newSide.repetition)
  have hlength : ∀ {evidence : CompletedRunEvidence} {traces : List CheckTrace},
      S.runTraces evidence = .ok traces → traces.length ≤ 2 ^ 53 - 1 :=
    fun h => (length_of_runTraces h).trans hcount.checks
  -- the three reports are recorded one after the other
  obtain ⟨oldRecord, first, s₁, hfirst, hs₁, hfirstHeld⟩ :=
    evaluateContract_reports hW hdigest hcount hs hcontract h.oldSide
  obtain ⟨newRecord, second, s₂, hsecond, hs₂, hsecondHeld⟩ :=
    evaluateContract_reports hW hdigest hcount hs₁ hcontract
      (h.newSide.mono (List.subset_cons_self _ _))
  have hsub : records ⊆ second :: first :: records :=
    List.Subset.trans (List.subset_cons_self _ _) (List.subset_cons_self _ _)
  obtain ⟨s₃, hjudged, hs₃⟩ := delivers_judgePair hW hcontract (h.mono hsub) s₂ hs₂
  obtain ⟨binding, hbinding⟩ := exists_subject hrunSubject .pair (Nat.zero_le _)
  have hsubject : ∃ subject, S.reportSubject (.differential (t.report S oldRecord newRecord none)) =
      some subject := by
    apply exists_memberSubject hbinding
    exact List.forall_mem_cons.mpr ⟨hold, List.forall_mem_singleton.mpr hnew⟩
  obtain ⟨subject, hsubject⟩ := hsubject
  have hfields : Exact (.object (Report.differential (t.report S oldRecord newRecord
      none)).fields) := by
    simp [Exact, Report.fields, DifferentialReport.fields, Trial.report, differentialReport,
      Json.numbersAll, exact_strings, exact_traces, hold, hnew,
      exact_tracedContract (hrepetition h.oldSide.repetition) (hlength h.oldSide.traced),
      exact_tracedContract (hrepetition h.newSide.repetition) (hlength h.newSide.traced)]
  obtain ⟨payload, hpayload⟩ := exists_payload hfields
  obtain ⟨record, third, s₄, hpersist, hs₄, hthirdHeld⟩ :=
    persist_returns hW hdigest hs₃ hscope hsubject hpayload
  refine ⟨oldRecord, newRecord, record, [third, second, first], s₄, ?_, hs₄, ?_⟩
  · unfold compareRuns
    simp only [returns_bind, returns_pure]
    exact ⟨_, s₁, hfirst, _, s₂, hsecond, _, s₃, hjudged, .ok record, s₄, hpersist, rfl, rfl⟩
  · have hheldReport : S.ReportHeld [third] (.differential (t.report S oldRecord newRecord
        (some record))) :=
      ⟨record, subject, payload, rfl, hsubject, hpayload, hthirdHeld⟩
    exact ⟨hheldReport.mono (by simp), hfirstHeld.mono (by simp), hsecondHeld.mono (by simp),
      t, oldRecord, newRecord, h.mono (List.subset_append_right _ _), rfl⟩

theorem uniqueStrings_eq_nil {xs : List String} : uniqueStrings xs = [] ↔ xs = [] := by
  simp only [List.eq_nil_iff_forall_not_mem, Resolve.mem_uniqueStrings]

/-- The reports of two pairs trace the same. -/
structure SameOutcome (p q : DifferentialReport) : Prop where
  old : p.oldReport.traces = q.oldReport.traces
  new : p.newReport.traces = q.newReport.traces
  pair : p.traces = q.traces

/-- A blocker that the evidence of a trial calls for. -/
def Trial.Finds (t : Trial) (blocker : String) : Prop :=
  blocker ∈ traceBlockers (t.oldTraces ++ t.newTraces ++ t.traces) ∨
    (t.outside = true ∧ blocker = "SCOPE_VIOLATION")

/-- A report has the blockers that its trial calls for. -/
theorem mem_blockers_report {t : Trial} {oldRecord newRecord : RecordRef}
    {record : Option RecordRef} {blocker : String} :
    blocker ∈ (t.report S oldRecord newRecord record).blockers ↔ t.Finds blocker := by
  have happend : traceBlockers (t.oldTraces ++ t.newTraces ++ t.traces) =
      traceBlockers t.oldTraces ++ traceBlockers t.newTraces ++ traceBlockers t.traces := by
    simp [traceBlockers]
  simp only [Trial.report, differentialReport, tracedContract, contractReport, Trial.findings,
    Resolve.mem_uniqueStrings, Trial.Finds, happend, List.mem_append]
  cases t.outside <;> simp
  tauto

/-- A report is valid when its trial calls for no blocker. -/
theorem valid_report_iff {t : Trial} {oldRecord newRecord : RecordRef}
    {record : Option RecordRef} :
    (t.report S oldRecord newRecord record).valid = true ↔ ∀ blocker, ¬ t.Finds blocker := by
  have hblockers : (t.report S oldRecord newRecord record).valid = true ↔
      (t.report S oldRecord newRecord record).blockers = [] := by
    simp only [Trial.report, differentialReport, List.isEmpty_iff, uniqueStrings_eq_nil]
  rw [hblockers, List.eq_nil_iff_forall_not_mem]
  simp only [mem_blockers_report]

/-- A report that was recorded can be written again. -/
theorem Verifiable.exact {records : List Record} {report : DifferentialReport}
    (h : S.Verifiable records report) : Exact report.dump := by
  obtain ⟨_, _, payload, _, _, hpayload, _⟩ := h.held
  have hfields : Exact (.object (Report.differential report).fields) := by
    rw [Exact, ← canonicalBytes_isSome]
    exact Option.isSome_iff_exists.mpr ⟨payload, hpayload⟩
  simp only [Exact, DifferentialReport.dump, Report.fields, Json.numbersAll, Json.membersAll_eq,
    List.all_append, Bool.and_eq_true, List.all_cons, List.all_nil, Bool.and_true] at hfields ⊢
  exact ⟨hfields, exact_optionalRef report.record⟩

/-- Reports have an outcome, and reports without blockers have one outcome when they trace the
same. -/
theorem exists_outcome (S : BehaviorService F ν) (pair : DifferentialReport) :
    ∃ fingerprint, S.outcome pair = some fingerprint := by
  apply exists_identity
  simp [Exact, Json.numbersAll, exact_strings, exact_traces]

/-- The outcome of a trial that calls for no blocker is what it traces. -/
theorem outcome_report {t : Trial} (h : ∀ blocker, ¬ t.Finds blocker)
    {oldRecord newRecord : RecordRef} {record : Option RecordRef} :
    S.outcome (t.report S oldRecord newRecord record) = identity S.journal.digestBytes (.object
      [("valid", .bool true),
       ("blockers", listing .string []),
       ("traces", .array
         [listing CheckTrace.dump t.oldTraces, listing CheckTrace.dump t.newTraces,
          listing CheckTrace.dump t.traces])] : Plain) := by
  have hvalid : (t.report S oldRecord newRecord record).valid = true := valid_report_iff.mpr h
  have hblockers : (t.report S oldRecord newRecord record).blockers = [] := by
    rw [List.eq_nil_iff_forall_not_mem]
    intro blocker
    rw [mem_blockers_report]
    exact h blocker
  rw [outcome, hvalid, hblockers]
  rfl

theorem SameOutcome.of_outcome (hdigest : Function.Injective S.journal.digestBytes)
    {p q : DifferentialReport} (h : S.outcome p = S.outcome q) : SameOutcome p q := by
  obtain ⟨fingerprint, hp⟩ := exists_outcome S p
  have hvalues := values_of_same (same_of_identity hdigest hp (h.symm.trans hp)) rfl (by simp)
  simp only [List.map_cons, List.map_nil, List.forall₂_cons, List.forall₂_nil_left_iff, and_true,
    Json.same_array, faithful_checkTrace.listing.same_iff] at hvalues
  obtain ⟨_, _, hold, hnew, hpair⟩ := hvalues
  exact ⟨hold, hnew, hpair⟩

/-- The blockers of a group whose pairs were verified. -/
theorem groupBlockers_eq_nil {pairs : List DifferentialReport} :
    S.groupBlockers pairs (.ok ()) = [] ↔ (∀ pair ∈ pairs, pair.valid = true) ∧ pairs ≠ [] ∧
      ∀ p ∈ pairs, ∀ q ∈ pairs, S.outcome p = S.outcome q := by
  -- every outcome has a fingerprint
  have hsteps : ∀ pair ∈ pairs, ∃ fingerprint,
      orRaise (S.outcome pair) RecordError.rejected = .ok fingerprint := by
    intro pair _
    obtain ⟨fingerprint, hfingerprint⟩ := exists_outcome S pair
    exact ⟨fingerprint, (orRaise_eq_ok _ _ _).mpr hfingerprint⟩
  obtain ⟨fingerprints, hfingerprints⟩ := exists_mapM hsteps
  -- one distinct fingerprint says that all outcomes are the same
  have hone : fingerprints.dedup.length = 1 ↔
      pairs ≠ [] ∧ ∀ p ∈ pairs, ∀ q ∈ pairs, S.outcome p = S.outcome q := by
    rw [length_dedup_eq_one, ← List.length_pos_iff, ← (forall₂_mapM hfingerprints).length_eq,
      List.length_pos_iff]
    refine and_congr_right fun _ => ⟨?_, ?_⟩
    · intro hsame p hp q hq
      obtain ⟨x, hx, hpx⟩ := value_of_mem_mapM hfingerprints hp
      obtain ⟨y, hy, hqy⟩ := value_of_mem_mapM hfingerprints hq
      rw [orRaise_eq_ok] at hpx hqy
      rw [hpx, hqy, hsame x hx y hy]
    · intro hsame x hx y hy
      obtain ⟨p, hp, hpx⟩ := exists_of_mem_mapM hfingerprints hx
      obtain ⟨q, hq, hqy⟩ := exists_of_mem_mapM hfingerprints hy
      rw [orRaise_eq_ok] at hpx hqy
      exact Option.some.inj (hpx.symm.trans ((hsame p hp q hq).trans hqy))
  rw [← hone]
  simp only [groupBlockers, hfingerprints, List.append_eq_nil_iff]
  by_cases hvalid : ∀ pair ∈ pairs, pair.valid = true
  · simpa [List.all_eq_true.mpr hvalid] using fun _ => hvalid
  · simp [List.all_eq_true, hvalid]

theorem exists_mapM_option {α β : Type} {f : α → Option β} {xs : List α}
    (h : ∀ x ∈ xs, ∃ y, f x = some y) : ∃ ys, xs.mapM f = some ys := by
  induction xs with
  | nil => exact ⟨[], rfl⟩
  | cons x xs ih =>
    obtain ⟨y, hy⟩ := h x List.mem_cons_self
    obtain ⟨ys, hys⟩ := ih fun z hz => h z (List.mem_cons_of_mem x hz)
    exact ⟨y :: ys, by simp [List.mapM_cons, hy, hys]⟩

/-- **The report on a group** of differential reports that can be verified: its blockers are those
of the group, and its record is held. -/
theorem evaluateRepetitions_reports (hW : W.Friendly S.journal)
    (hdigest : ∀ bytes, S.journal.digestBytes bytes ≠ "") {records : List Record}
    {s : JournalState} (hs : S.Holds W records s) {pairs : List DifferentialReport}
    (hpairs : ∀ pair ∈ pairs, S.Verifiable records pair) (hsome : pairs ≠ [])
    (hindices : (pairs.map fun pair => pair.old.repetition).Perm
      (List.range S.bound.profile.repetitions)) :
    ∃ report record s', Returns (S.evaluateRepetitions W pairs) s report s' ∧
      (report.valid = true ↔ S.groupBlockers pairs (.ok ()) = []) ∧ report.pairs = pairs ∧
      S.Holds W (record :: records) s' ∧ S.ReportHeld [record] (.repetitions report) := by
  -- every report of the group is verified again, and together they cover the repetitions
  have hgroup : Delivers (S.Holds W records) (S.verifyGroup W pairs) () := by
    unfold verifyGroup
    apply delivers_bind (delivers_runEach fun pair hpair =>
      delivers_verifyDifferentialReport hW (hpairs pair hpair))
    apply delivers_check
    rw [raiseIf_eq_ok, not_not]
    have hsorted : (List.range S.bound.profile.repetitions).Pairwise (· ≤ ·) :=
      List.pairwise_le_range
    exact ((List.perm_insertionSort _ _).trans hindices).eq_of_pairwise'
      (List.pairwise_insertionSort _ _) hsorted
  -- any one of the reports shows that the scope and the binding have identities
  obtain ⟨pair, hpair⟩ := List.exists_mem_of_ne_nil pairs hsome
  obtain ⟨t, _, _, hread, _⟩ := (hpairs pair hpair).read
  obtain ⟨_, _, hrunSubject, hheld, _⟩ := hread.oldSide.held
  obtain ⟨scope, hscope⟩ := hheld.scope
  obtain ⟨binding, hbinding⟩ := exists_subject hrunSubject .pair (Nat.zero_le _)
  let blockers := S.groupBlockers pairs (.ok ())
  have hsubject : ∃ subject, S.reportSubject (.repetitions ⟨blockers.isEmpty, blockers, pairs,
      none⟩) = some subject := by
    -- the group is kept under the subjects of its pairs, each of which the journal holds already
    have hmembers : ∃ members, (pairs.mapM fun pair => S.pairSubject pair.old pair.new) =
        some members := by
      apply exists_mapM_option
      intro pair hpair
      obtain ⟨_, subject, _, _, hsubject, _⟩ := (hpairs pair hpair).held
      exact ⟨subject, hsubject⟩
    obtain ⟨members, hmembers⟩ := hmembers
    obtain ⟨subject, hsubject⟩ := exists_memberSubject hbinding "repetitions"
      (List.forall_mem_map.mpr fun (member : String) (_ : member ∈ members) =>
        (rfl : Exact (.string member)))
    exact ⟨subject, Option.bind_eq_some_iff.mpr ⟨members, hmembers, hsubject⟩⟩
  obtain ⟨subject, hsubject⟩ := hsubject
  have hfields : Exact (.object (Report.repetitions ⟨blockers.isEmpty, blockers, pairs,
      none⟩).fields) := by
    -- the reports on the pairs can be written, since they were
    have hall : ∀ pair ∈ pairs, Exact pair.dump := fun pair hpair => (hpairs pair hpair).exact
    simp only [Exact, Report.fields, RepetitionReport.fields, Json.numbersAll, Json.membersAll_eq,
      List.all_cons, List.all_nil, Bool.and_true, Bool.true_and, Bool.and_eq_true]
    refine ⟨exact_strings _, ?_⟩
    simpa [listing, Json.numbersAll] using hall
  obtain ⟨payload, hpayload⟩ := exists_payload hfields
  obtain ⟨s₁, hverified, hs₁⟩ := hgroup s hs
  obtain ⟨reference, record, s₂, hpersist, hs₂, hrecord⟩ :=
    persist_returns hW hdigest hs₁ hscope hsubject hpayload
  refine ⟨⟨blockers.isEmpty, blockers, pairs, some reference⟩, record, s₂, ?_,
    List.isEmpty_iff, rfl, hs₂, reference, subject, payload, rfl, hsubject, hpayload, hrecord⟩
  unfold evaluateRepetitions
  simp only [returns_bind, returns_pure]
  exact ⟨.ok (), s₁, returns_attempt hverified, .ok reference, s₂, hpersist, rfl, rfl⟩

/-- The differential reports on trials, one after the other. -/
theorem compareRuns_each (hW : W.Friendly S.journal) (hdigest : ∀ bytes, S.journal.digestBytes bytes ≠ "")
    (hcount : S.Countable) {contract : ReplacementContract (Number F)}
    (hcontract : S.checkContract contract = .ok ()) {trials : List Trial} {records : List Record}
    {s : JournalState} (hs : S.Holds W records s) (hread : ∀ t ∈ trials, S.TrialRead records t) :
    ∃ pairs added s',
      Returns (trials.mapM fun t => S.compareRuns W t.old t.new contract) s pairs s' ∧
      S.Holds W (added ++ records) s' ∧ (∀ pair ∈ pairs, S.Verifiable (added ++ records) pair) ∧
      List.Forall₂ (fun t pair => ∃ oldRecord newRecord record,
        pair = t.report S oldRecord newRecord record) trials pairs := by
  induction trials generalizing records s with
  | nil => exact ⟨[], [], s, rfl, hs, by simp, .nil⟩
  | cons t trials ih =>
    obtain ⟨oldRecord, newRecord, record, added, s₁, hfirst, hs₁, hverifiable⟩ :=
      compareRuns_reports hW hdigest hcount hs hcontract (hread t List.mem_cons_self)
    -- what the first trial added leaves the other trials as readable as before
    have hrest : ∀ other ∈ trials, S.TrialRead (added ++ records) other := by
      intro other hother
      exact (hread other (List.mem_cons_of_mem t hother)).mono (List.subset_append_right _ _)
    obtain ⟨pairs, later, s₂, hpairs, hs₂, hall, hreports⟩ := ih hs₁ hrest
    rw [← List.append_assoc] at hs₂ hall
    refine ⟨t.report S oldRecord newRecord (some record) :: pairs, later ++ added, s₂, ?_, hs₂, ?_,
      .cons ⟨oldRecord, newRecord, some record, rfl⟩ hreports⟩
    · simp only [List.mapM_cons, returns_bind, returns_pure]
      exact ⟨_, s₁, hfirst, pairs, s₂, hpairs, rfl, rfl⟩
    · rw [List.forall_mem_cons]
      refine ⟨hverifiable.mono ?_, hall⟩
      rw [List.append_assoc]
      exact List.subset_append_right _ _

/-- **Verdicts are exact**: in a journal that nobody tampers with, trials that are read get reports with
the blockers that they call for and no others. The report on all repetitions is valid exactly when
no trial calls for a blocker and all of them trace the same, and the service verifies it. -/
theorem verdicts_exact (hW : W.Friendly S.journal) (hdigest : Function.Injective S.journal.digestBytes)
    (hne : ∀ bytes, S.journal.digestBytes bytes ≠ "") (hcount : S.Countable)
    {contract : ReplacementContract (Number F)} (hcontract : S.checkContract contract = .ok ())
    {trials : List Trial} {records : List Record} {s : JournalState} (hs : S.Holds W records s)
    (hread : ∀ t ∈ trials, S.TrialRead records t)
    (hindices : (trials.map fun t => t.old.repetition).Perm
      (List.range S.bound.profile.repetitions)) :
    ∃ pairs report s₁ s₂ s₃,
      Returns (trials.mapM fun t => S.compareRuns W t.old t.new contract) s pairs s₁ ∧
      Returns (S.evaluateRepetitions W pairs) s₁ report s₂ ∧
      Returns (S.verifyReport W (.repetitions report)) s₂ () s₃ ∧
      List.Forall₂ (fun t pair => ∀ blocker, blocker ∈ pair.blockers ↔ t.Finds blocker)
        trials pairs ∧
      (report.valid = true ↔ (∀ t ∈ trials, ∀ blocker, ¬ t.Finds blocker) ∧
        ∀ t ∈ trials, ∀ t' ∈ trials, t.oldTraces = t'.oldTraces ∧ t.newTraces = t'.newTraces ∧
          t.traces = t'.traces) := by
  obtain ⟨pairs, added, s₁, hpairs, hs₁, hverifiable, hreports⟩ :=
    compareRuns_each hW hne hcount hcontract hs hread
  -- a report is about the repetition of its trial, so the indices of the reports are those asked
  -- for
  have hmaps : pairs.map (fun pair => pair.old.repetition) =
      trials.map fun t => t.old.repetition := by
    clear hpairs hverifiable hs₁ hread hindices
    induction hreports with
    | nil => rfl
    | cons hhead _ ih =>
      obtain ⟨_, _, _, rfl⟩ := hhead
      rw [List.map_cons, List.map_cons, ih]
      rfl
  have hindices' := hmaps ▸ hindices
  -- a profile has a repetition, so there is a report
  have hsome : pairs ≠ [] := by
    rintro rfl
    have hlength := hindices'.length_eq
    rw [List.map_nil, List.length_nil, List.length_range] at hlength
    exact absurd hcount.positive (by omega)
  obtain ⟨report, record, s₂, hreport, hvalid, hsame, hs₂, hheld⟩ :=
    evaluateRepetitions_reports hW hne hs₁ hverifiable hsome hindices'
  -- the report that was made is verified by the same journal, which holds one record more
  have hverify : Delivers (S.Holds W (record :: (added ++ records)))
      (S.verifyReport W (.repetitions report)) () := by
    apply delivers_bind (delivers_verifyPayload hW (hheld.mono (by simp)))
    rw [hsame]
    apply delivers_runEach
    intro pair hpair
    exact delivers_verifyDifferentialReport hW
      ((hverifiable pair hpair).mono (List.subset_cons_self _ _))
  obtain ⟨s₃, hverified, _⟩ := hverify s₂ hs₂
  -- blockers are compared trial by trial; the whole report needs the traces to agree as well
  refine ⟨pairs, report, s₁, s₂, s₃, hpairs, hreport, hverified, ?_, ?_⟩
  · apply hreports.imp
    intro t pair hpair blocker
    obtain ⟨_, _, _, rfl⟩ := hpair
    exact mem_blockers_report
  · rw [hvalid, groupBlockers_eq_nil]
    have hleft : ∀ pair ∈ pairs, ∃ t ∈ trials, ∃ oldRecord newRecord record,
        pair = t.report S oldRecord newRecord record :=
      fun pair hpair => left_of_mem_forall₂ hreports hpair
    have hright : ∀ t ∈ trials, ∃ pair ∈ pairs, ∃ oldRecord newRecord record,
        pair = t.report S oldRecord newRecord record :=
      fun t ht => left_of_mem_forall₂ hreports.flip ht
    constructor
    · intro h
      obtain ⟨hall, _, houtcomes⟩ := h
      constructor
      · intro t ht
        obtain ⟨pair, hpair, _, _, _, rfl⟩ := hright t ht
        exact valid_report_iff.mp (hall _ hpair)
      -- equal outcomes are equal digests of the traces, and digests do not collide
      · intro t ht t' ht'
        obtain ⟨pair, hpair, _, _, _, rfl⟩ := hright t ht
        obtain ⟨pair', hpair', _, _, _, rfl⟩ := hright t' ht'
        have houtcome := SameOutcome.of_outcome hdigest (houtcomes _ hpair _ hpair')
        exact ⟨houtcome.old, houtcome.new, houtcome.pair⟩
    · intro h
      obtain ⟨hclear, htraces⟩ := h
      refine ⟨?_, hsome, ?_⟩
      · intro pair hpair
        obtain ⟨t, ht, _, _, _, rfl⟩ := hleft pair hpair
        exact valid_report_iff.mpr (hclear t ht)
      · intro p hp q hq
        obtain ⟨t, ht, _, _, _, rfl⟩ := hleft p hp
        obtain ⟨t', ht', _, _, _, rfl⟩ := hleft q hq
        obtain ⟨hold, hnew, hpair⟩ := htraces t ht t' ht'
        rw [outcome_report (hclear t ht), outcome_report (hclear t' ht'), hold, hnew, hpair]

end BehaviorService

end ContractCapsule.Twin
