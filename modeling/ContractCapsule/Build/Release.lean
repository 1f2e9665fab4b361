import ContractCapsule.Build.Quarantine

/-!
# What Leaves the Quarantine

`promoted_vetted` is the safety of the quarantine over every sequence of calls: an atom that is in
the register of promoted atoms was put there by one call of `promote`, which found an approval of
the trust root for exactly the candidate and the bindings it promoted; and from then on the atom,
the content digest and the capture time that were checked stay.

A candidate is never unregistered and never replaced by another one, and the snapshot of a
registered candidate is only replaced by a capture with the same content and the same time. The
first holds by the comparison in `register_candidate`, the second by the one in `register_snapshot`.
-/

namespace ContractCapsule.Build

open Library Models

variable {host : Host} {composition : Composition} {store store' : QuarantineStore host}

/-! ## Section 1: What a call does -/

/-- A call that returns was one of the four, and it left this store. -/
theorem step_cases (store : QuarantineStore host) (call : QuarantineCall host) :
    (store.step composition call).2 = store ∨
      (∃ captured, call = .registerSnapshot captured ∧
        store.registerSnapshot captured = .ok (store.step composition call).2) ∨
      (∃ candidate issued, call = .registerCandidate candidate issued ∧
        store.registerCandidate candidate issued = .ok (store.step composition call).2) ∨
      (∃ binding, call = .registerBinding binding ∧
        store.registerBinding binding = .ok (store.step composition call).2) ∨
      ∃ around candidateId approval atom, call = .promote around candidateId approval ∧
        store.promote composition around candidateId approval =
          .ok (atom, (store.step composition call).2) := by
  -- a call that raises leaves the store as it was
  cases hrun : store.run composition call with
  | error e =>
    left
    simp [QuarantineStore.step, hrun]
  | ok result =>
    obtain ⟨answer, after⟩ := result
    have hafter : (store.step composition call).2 = after := by simp [QuarantineStore.step, hrun]
    right
    rw [hafter]
    cases call with
    | registerSnapshot captured =>
      left
      simp only [QuarantineStore.run, Except.bind_eq_ok, Except.pure_eq_ok, Prod.mk.injEq] at hrun
      obtain ⟨_, hregister, _, rfl⟩ := hrun
      exact ⟨captured, rfl, hregister⟩
    | registerCandidate candidate issued =>
      right; left
      simp only [QuarantineStore.run, Except.bind_eq_ok, Except.pure_eq_ok, Prod.mk.injEq] at hrun
      obtain ⟨_, hregister, _, rfl⟩ := hrun
      exact ⟨candidate, issued, rfl, hregister⟩
    | registerBinding binding =>
      right; right; left
      simp only [QuarantineStore.run, Except.bind_eq_ok, Except.pure_eq_ok, Prod.mk.injEq] at hrun
      obtain ⟨_, hregister, _, rfl⟩ := hrun
      exact ⟨binding, rfl, hregister⟩
    | promote around candidateId approval =>
      right; right; right
      simp only [QuarantineStore.run, Except.bind_eq_ok] at hrun
      obtain ⟨⟨atom, _⟩, hpromote, hanswer⟩ := hrun
      obtain ⟨_, rfl⟩ := Prod.mk.inj ((Except.pure_eq_ok ..).mp hanswer)
      exact ⟨around, candidateId, approval, atom, rfl, hpromote⟩

/-- A snapshot that is registered under the id of a candidate's source has the content and the
capture time of the one it replaces. -/
theorem registerSnapshot_eq_ok {captured : Captured host}
    (h : store.registerSnapshot captured = .ok store') :
    store' = { store with
      snapshots := assign Prod.fst (captured.snapshot.snapshotId, captured) store.snapshots } ∧
    ∀ existing, store.snapshots.lookup captured.snapshot.snapshotId = some existing →
      existing.snapshot.contentDigest = captured.snapshot.contentDigest ∧
      (store.hasBoundCandidates captured.snapshot.snapshotId = true →
        existing.snapshot.capturedAt = captured.snapshot.capturedAt) := by
  simp only [QuarantineStore.registerSnapshot, Except.bind_eq_ok, raiseIf_eq_ok,
    Except.pure_eq_ok] at h
  obtain ⟨_, _, _, _, _, hexisting, rfl⟩ := h
  refine ⟨rfl, ?_⟩
  intro existing hlookup
  simp only [hlookup, QuarantineStore.checkReplaced, Except.bind_eq_ok, raiseIf_eq_ok] at hexisting
  obtain ⟨_, hsame, hbound⟩ := hexisting
  refine ⟨?_, ?_⟩
  · by_contra hdigest
    exact hsame (by simp [sameTrustFields, hdigest])
  · intro hcandidates
    by_contra htime
    exact hbound ⟨hcandidates, .inr (.inr htime)⟩

/-- A candidate that is registered replaces none but itself. -/
theorem registerCandidate_eq_ok {candidate : CandidateAtom} {issued : Bool}
    (h : store.registerCandidate candidate issued = .ok store') :
    store' = { store with
      candidates := assign Prod.fst (candidate.candidateId, candidate) store.candidates } ∧
    ∀ existing, store.candidates.lookup candidate.candidateId = some existing →
      existing = candidate := by
  simp only [QuarantineStore.registerCandidate, Except.bind_eq_ok, raiseIf_eq_ok,
    Except.pure_eq_ok] at h
  obtain ⟨_, _, _, _, _, _, _, _, _, _, _, _, _, _, _, hcollision, rfl⟩ := h
  refine ⟨rfl, ?_⟩
  intro existing hlookup
  by_contra hother
  exact hcollision (by simp [hlookup, hother])

theorem registerBinding_eq_ok {binding : EvidenceBinding}
    (h : store.registerBinding binding = .ok store') :
    ∃ bindings, store' = { store with bindings := bindings } := by
  simp only [QuarantineStore.registerBinding, Except.bind_eq_ok, Except.pure_eq_ok] at h
  obtain ⟨_, _, _, _, rfl⟩ := h
  exact ⟨_, rfl⟩

/-! ## Section 2: Promotion -/

/-- A binding agrees with the snapshot and the candidate that it was checked against. -/
structure BindsTo (candidate : CandidateAtom) (snapshot : SourceSnapshot host)
    (binding : EvidenceBinding) : Prop where
  candidateId : binding.candidateId = candidate.candidateId
  snapshotId : binding.snapshotId = snapshot.snapshotId
  content : binding.contentDigest = snapshot.contentDigest
  bytes : binding.sourceBytes = snapshot.content
  lines : binding.startLine = some candidate.startLine ∧ binding.endLine = some candidate.endLine
  span : ∃ actual, snapshot.lineSpan candidate.startLine candidate.endLine = .ok actual ∧
    host.digestBytes actual = binding.spanDigest

/-- What stands behind a promoted atom at the moment it is promoted. -/
structure Vetted (composition : Composition) (store : QuarantineStore host) (candidateId : String)
    (approval : HumanApproval) (candidate : CandidateAtom) (snapshot : SourceSnapshot host)
    (atom : ValidatedAtom) : Prop where
  registered : store.candidates.lookup candidateId = some candidate
  captured : ∃ captured, store.snapshots.lookup candidate.sourceSnapshotId = some captured ∧
    captured.snapshot = snapshot
  made : atom = candidate.validated ((store.bindings.lookup candidateId).getD []) approval
  approved : approval.decision = .approve ∧ approval.candidateId = candidateId
  trusted : composition.verify approval = true
  external : approval.approverId ≠ snapshot.principalId
  candidateDigest : candidateDigestFor host candidate = .ok approval.candidateDigest
  evidenceDigests :
    atom.evidenceBindings.mapM (bindingDigestFor host) = .ok approval.evidenceDigests
  afterCapture : ∃ approvedAt capturedAt,
    composition.parseTimestamp approval.approvedAt = some approvedAt ∧
      composition.parseTimestamp snapshot.capturedAt = some capturedAt ∧ capturedAt ≤ approvedAt
  evidence : atom.evidenceBindings ≠ []
  bindings : ∀ binding ∈ atom.evidenceBindings, BindsTo candidate snapshot binding

theorem verifyBinding_eq_ok {candidate : CandidateAtom} {snapshot : SourceSnapshot host}
    {binding : EvidenceBinding} {u : Unit}
    (h : verifyBinding candidate snapshot binding = .ok u) :
    BindsTo candidate snapshot binding := by
  simp only [verifyBinding, verifyBindingIdentity, verifyBindingBytes, Except.bind_eq_ok,
    raiseIf_eq_ok, orRaise_eq_ok, not_or, not_not] at h
  obtain ⟨_, ⟨_, hcandidate, _, hsnapshot, _, _, _, hcontent, _, _, _, _, _, hlines, _⟩, _, hbytes,
    actual, hspan, _, _, _, _, _, hdigest, _⟩ := h
  exact ⟨hcandidate, hsnapshot, hcontent, hbytes, hlines, actual, hspan, hdigest⟩

theorem verifyApprovalIdentity_eq_ok {candidateId : String} {candidate : CandidateAtom}
    {bindings : List EvidenceBinding} {approval : HumanApproval} {u : Unit}
    (h : verifyApprovalIdentity host candidateId candidate bindings approval = .ok u) :
    approval.candidateId = candidateId ∧ approval.decision = .approve ∧
      candidateDigestFor host candidate = .ok approval.candidateDigest ∧
      bindings.mapM (bindingDigestFor host) = .ok approval.evidenceDigests := by
  simp only [verifyApprovalIdentity, Except.bind_eq_ok, raiseIf_eq_ok, not_not] at h
  obtain ⟨_, hid, _, happrove, digest, hdigest, _, hcovered, digests, hdigests, hevidence⟩ := h
  refine ⟨hid, happrove, ?_, ?_⟩
  · rw [hdigest, hcovered]
  · rw [hdigests, hevidence]

theorem verifyApprovalTime_eq_ok {now : ℕ} {snapshot : SourceSnapshot host}
    {approval : HumanApproval} {u : Unit}
    (h : composition.verifyApprovalTime now snapshot approval = .ok u) :
    ∃ approvedAt capturedAt, composition.parseTimestamp approval.approvedAt = some approvedAt ∧
      composition.parseTimestamp snapshot.capturedAt = some capturedAt ∧
      capturedAt ≤ approvedAt := by
  simp only [Composition.verifyApprovalTime, Composition.instant, Except.bind_eq_ok,
    orRaise_eq_ok, raiseIf_eq_ok, not_lt] at h
  obtain ⟨approvedAt, happroved, _, _, _, _, capturedAt, hcaptured, hle⟩ := h
  exact ⟨approvedAt, capturedAt, happroved, hcaptured, hle⟩

/-- Promotion adds one atom, vetted in the store it was called on, under an id not promoted yet. -/
theorem promote_eq_ok {around : Surroundings} {candidateId : String} {approval : HumanApproval}
    {atom : ValidatedAtom}
    (h : store.promote composition around candidateId approval = .ok (atom, store')) :
    store.promoted.lookup candidateId = none ∧
      store' = { store with promoted := assign Prod.fst (candidateId, atom) store.promoted } ∧
      ∃ candidate snapshot, Vetted composition store candidateId approval candidate snapshot atom := by
  -- all the checks passed: those of the inputs, of each binding and of the approval
  simp only [QuarantineStore.promote, QuarantineStore.promotionInputs, Except.bind_eq_ok,
    raiseIf_eq_ok, orRaise_eq_ok, Except.pure_eq_ok, Option.not_isSome_iff_eq_none] at h
  obtain ⟨⟨candidate, bindings, snapshot⟩, ⟨_, hcandidate, _, hfresh, _, hevidence, captured,
    hcaptured, hinputs⟩, _, _, _, hbindings, _, happroval, hresult⟩ := h
  cases hinputs
  obtain ⟨hatom, hstore⟩ := Prod.mk.inj hresult
  simp only [Composition.verifyApproval, Composition.verifyApprovalTrust, Except.bind_eq_ok,
    raiseIf_eq_ok, Bool.not_eq_false] at happroval
  obtain ⟨_, hidentity, _, htime, _, hexternal, htrusted⟩ := happroval
  obtain ⟨hid, happrove, hdigest, hdigests⟩ := verifyApprovalIdentity_eq_ok hidentity
  rw [checkAll_eq_ok] at hbindings
  subst hatom
  refine ⟨hfresh, hstore.symm, candidate, captured.snapshot, hcandidate, ⟨captured, hcaptured, rfl⟩,
    rfl, ⟨happrove, hid⟩, htrusted, hexternal, hdigest, hdigests, verifyApprovalTime_eq_ok htime,
    hevidence, ?_⟩
  intro binding hbinding
  exact verifyBinding_eq_ok (hbindings binding hbinding)

/-! ## Section 3: What stays -/

/-- The state in which a promoted atom remains: the atom, its candidate, and the content digest and
the capture time of the snapshot registered under the id of its source. -/
structure Settled (candidateId : String) (atom : ValidatedAtom)
    (contentDigest capturedAt : String) (store : QuarantineStore host) : Prop where
  promoted : store.promoted.lookup candidateId = some atom
  candidate : ∃ candidate, store.candidates.lookup candidateId = some candidate ∧
    candidate.sourceSnapshotId = atom.sourceSnapshotId
  snapshot : ∃ captured, store.snapshots.lookup atom.sourceSnapshotId = some captured ∧
    captured.snapshot.contentDigest = contentDigest ∧ captured.snapshot.capturedAt = capturedAt

theorem hasBoundCandidates_of_lookup {candidateId : String} {candidate : CandidateAtom}
    (h : store.candidates.lookup candidateId = some candidate) :
    store.hasBoundCandidates candidate.sourceSnapshotId = true := by
  obtain ⟨before, after, hsplit, _⟩ := List.lookup_eq_some_iff.mp h
  rw [QuarantineStore.hasBoundCandidates, hsplit]
  simp

/-- **Step**: no call unsettles a promoted atom. -/
theorem Settled.step {candidateId contentDigest capturedAt : String} {atom : ValidatedAtom}
    (h : Settled candidateId atom contentDigest capturedAt store) (call : QuarantineCall host) :
    Settled candidateId atom contentDigest capturedAt (store.step composition call).2 := by
  obtain ⟨candidate, hcandidate, hsource⟩ := h.candidate
  obtain ⟨existing, hexisting, hdigest, htime⟩ := h.snapshot
  rcases @step_cases _ composition store call with hsame | ⟨captured, _, hregister⟩ |
    ⟨registered, issued, _, hregister⟩ | ⟨binding, _, hregister⟩ |
    ⟨around, promotedId, approval, other, _, hpromote⟩
  · rw [hsame]
    exact h
  · obtain ⟨hstore, hkept⟩ := registerSnapshot_eq_ok hregister
    rw [hstore]
    refine ⟨h.promoted, h.candidate, ?_⟩
    show ∃ current, (assign Prod.fst (captured.snapshot.snapshotId, captured)
      store.snapshots).lookup atom.sourceSnapshotId = some current ∧ _
    rw [lookup_assign_pair]
    split
    · rename_i hid
      -- the snapshot is replaced: its candidate is registered, so nothing that was checked changes
      rw [hid] at hexisting
      have hbound : store.hasBoundCandidates captured.snapshot.snapshotId = true := by
        rw [← hid, ← hsource]
        exact hasBoundCandidates_of_lookup hcandidate
      obtain ⟨hcontent, hcapture⟩ := hkept existing hexisting
      exact ⟨captured, rfl, hcontent.symm.trans hdigest, (hcapture hbound).symm.trans htime⟩
    · exact ⟨existing, hexisting, hdigest, htime⟩
  · obtain ⟨hstore, hkept⟩ := registerCandidate_eq_ok hregister
    rw [hstore]
    refine ⟨h.promoted, ⟨candidate, ?_, hsource⟩, h.snapshot⟩
    show (assign Prod.fst (registered.candidateId, registered) store.candidates).lookup candidateId =
      some candidate
    rw [lookup_assign_pair]
    split
    · rename_i hid
      rw [hid] at hcandidate
      rw [hkept candidate hcandidate]
    · exact hcandidate
  · obtain ⟨bindings, hstore⟩ := registerBinding_eq_ok hregister
    rw [hstore]
    exact ⟨h.promoted, h.candidate, h.snapshot⟩
  · obtain ⟨hfresh, hstore, _⟩ := promote_eq_ok hpromote
    rw [hstore]
    refine ⟨?_, h.candidate, h.snapshot⟩
    show (assign Prod.fst (promotedId, other) store.promoted).lookup candidateId = some atom
    rw [lookup_assign_pair]
    split
    · rename_i hid
      -- an id that is promoted already is refused
      rw [← hid, h.promoted] at hfresh
      cases hfresh
    · exact h.promoted

/-- A settled atom stays over any number of calls. -/
theorem Settled.final {candidateId contentDigest capturedAt : String} {atom : ValidatedAtom}
    (h : Settled candidateId atom contentDigest capturedAt store)
    (calls : List (QuarantineCall host)) :
    Settled candidateId atom contentDigest capturedAt
      (final (QuarantineStore.step composition) store calls) :=
  invariant_final (Settled candidateId atom contentDigest capturedAt)
    (fun _ call hs => Settled.step hs call) h calls

/-- A candidate that is promoted is not promoted again. -/
theorem Settled.refuses {candidateId contentDigest capturedAt : String} {atom : ValidatedAtom}
    (h : Settled candidateId atom contentDigest capturedAt store) (around : Surroundings)
    (approval : HumanApproval) :
    (store.step composition (.promote around candidateId approval)).1 =
      .error "candidate has already been promoted" := by
  obtain ⟨candidate, hcandidate, _⟩ := h.candidate
  have hraise : store.promotionInputs candidateId =
      .error "candidate has already been promoted" := by
    simp [QuarantineStore.promotionInputs, hcandidate, h.promoted, orRaise, raiseIf]
  have hrun : store.run composition (.promote around candidateId approval) =
      .error "candidate has already been promoted" := by
    simp [QuarantineStore.run, QuarantineStore.promote, hraise]
  simp [QuarantineStore.step, hrun]

/-! ## Section 4: Every run -/

theorem Vetted.settled {candidateId : String} {approval : HumanApproval} {candidate : CandidateAtom}
    {snapshot : SourceSnapshot host} {atom : ValidatedAtom}
    (h : Vetted composition store candidateId approval candidate snapshot atom) :
    Settled candidateId atom snapshot.contentDigest snapshot.capturedAt
      { store with promoted := assign Prod.fst (candidateId, atom) store.promoted } := by
  have hsource : candidate.sourceSnapshotId = atom.sourceSnapshotId := by
    rw [h.made]
    rfl
  obtain ⟨captured, hcaptured, hsnapshot⟩ := h.captured
  rw [hsource] at hcaptured
  refine ⟨?_, ⟨candidate, h.registered, hsource⟩, captured, hcaptured, ?_, ?_⟩
  · show (assign Prod.fst (candidateId, atom) store.promoted).lookup candidateId = some atom
    rw [lookup_assign_pair, if_pos rfl]
  · rw [hsnapshot]
  · rw [hsnapshot]

/-- Only the promotion of a candidate puts an atom under its id. -/
theorem step_promotes {candidateId : String} {atom : ValidatedAtom} {call : QuarantineCall host}
    (hbefore : store.promoted.lookup candidateId ≠ some atom)
    (hafter : (store.step composition call).2.promoted.lookup candidateId = some atom) :
    ∃ around approval, call = .promote around candidateId approval ∧
      store.promote composition around candidateId approval =
        .ok (atom, (store.step composition call).2) := by
  rcases @step_cases _ composition store call with hsame | ⟨captured, _, hregister⟩ |
    ⟨registered, issued, _, hregister⟩ | ⟨binding, _, hregister⟩ |
    ⟨around, promotedId, approval, other, hcall, hpromote⟩
  -- the three registrations leave the promoted atoms as they are
  · rw [hsame] at hafter
    exact absurd hafter hbefore
  · rw [(registerSnapshot_eq_ok hregister).1] at hafter
    exact absurd hafter hbefore
  · rw [(registerCandidate_eq_ok hregister).1] at hafter
    exact absurd hafter hbefore
  · obtain ⟨_, hstore⟩ := registerBinding_eq_ok hregister
    rw [hstore] at hafter
    exact absurd hafter hbefore
  -- a promotion sets one entry; another id keeps its own
  · have hstore := (promote_eq_ok hpromote).2.1
    have hlookup : (assign Prod.fst (promotedId, other) store.promoted).lookup candidateId =
        some atom := by
      rw [hstore] at hafter
      exact hafter
    rw [lookup_assign_pair] at hlookup
    split at hlookup
    · rename_i hid
      cases hlookup
      rw [hid]
      exact ⟨around, approval, hcall, hpromote⟩
    · exact absurd hlookup hbefore

/-- **Nothing leaves the quarantine without a matching approval**: whatever the calls and their
order, every promoted atom was vetted by the call that promoted it; and after that call the atom
stays as it is, the snapshot under its source id keeps the content and the capture time that were
checked, and its candidate is not promoted again. -/
theorem promoted_vetted (composition : Composition) (calls : List (QuarantineCall host))
    {candidateId : String} {atom : ValidatedAtom}
    (h : (runQuarantine composition calls).promoted.lookup candidateId = some atom) :
    ∃ before around approval after candidate snapshot,
      calls = before ++ .promote around candidateId approval :: after ∧
      Vetted composition (runQuarantine composition before) candidateId approval candidate snapshot
        atom ∧
      ∀ done rest, after = done ++ rest →
        let later := runQuarantine composition
          (before ++ .promote around candidateId approval :: done)
        Settled candidateId atom snapshot.contentDigest snapshot.capturedAt later ∧
          ∀ around' approval', (later.step composition
            (.promote around' candidateId approval')).1 =
              .error "candidate has already been promoted" := by
  have hempty : ¬ (QuarantineStore.empty : QuarantineStore host).promoted.lookup candidateId =
      some atom := by
    simp [QuarantineStore.empty]
  -- the atom appears at one call, which can only be its promotion
  obtain ⟨before, call, after, hcalls, hbefore, hafter⟩ :=
    exists_switch (fun store : QuarantineStore host => store.promoted.lookup candidateId = some atom)
      hempty h
  obtain ⟨around, approval, rfl, hpromote⟩ := step_promotes hbefore hafter
  obtain ⟨_, hstore, candidate, snapshot, hvetted⟩ := promote_eq_ok hpromote
  refine ⟨before, around, approval, after, candidate, snapshot, hcalls, hvetted, ?_⟩
  -- from there on it stays, and another promotion of it is refused
  intro done rest _
  have hsettled : Settled candidateId atom snapshot.contentDigest snapshot.capturedAt
      (runQuarantine composition (before ++ .promote around candidateId approval :: done)) := by
    rw [runQuarantine, final_append, final_cons]
    refine Settled.final ?_ done
    rw [hstore]
    exact hvetted.settled
  exact ⟨hsettled, fun around' approval' => hsettled.refuses around' approval'⟩

section Sample

/-- The snapshot of the sample, of a file that is still there. -/
def releasedSnapshot : SourceSnapshot (sampleHost false) :=
  { sampleSnapshot false with path := some "/src/notes.md" }

/-- The binding of the heading of the sample. -/
def releasedBinding : EvidenceBinding :=
  bindingOf releasedSnapshot (sampleCandidate false)
    "sha256:07a7842282119e17aa18e3a9c6a380a6cf4eab89ca06f25d546647a11fa2a38b"
    "sha256:79aeaf7ba450cdab4b13e948c49101b1de4d13e9b45e10e51ee99442c982a7e8"

/-- A store with one reviewer; the one later time stamp is that of the approval. -/
def sampleComposition : Composition where
  trustRoot := some ⟨[("reviewer", [1])], "trusted-human-review"⟩
  parseTimestamp text := some (if text = "2026-01-02T00:00:00Z" then 86400000000 else 0)
  hmac _ _ := "00"

def releasedApproval : HumanApproval where
  approvalId := "approval-1"
  candidateId := (sampleCandidate false).candidateId
  approverId := "reviewer"
  approvedAt := "2026-01-02T00:00:00Z"
  decision := .approve
  candidateDigest := "sha256:ba720e4a13936d51790f7554bc5149f45ea269d5e7722d3b3877ae5e54fcbde7"
  evidenceDigests := ["sha256:07a7842282119e17aa18e3a9c6a380a6cf4eab89ca06f25d546647a11fa2a38b"]
  signature := "hmac-sha256:00"

/-- The file is unchanged, two days after it was captured. -/
def unchanged : Surroundings := ⟨fun _ => some sampleContent, fun _ _ _ => none, 172800000000⟩

/-- The heading is promoted, and its source is captured once more. -/
def releaseCalls : List (QuarantineCall (sampleHost false)) :=
  [.registerSnapshot ⟨releasedSnapshot, true, none⟩, .registerCandidate (sampleCandidate false) true,
    .registerBinding releasedBinding,
    .promote unchanged (sampleCandidate false).candidateId releasedApproval,
    .registerSnapshot ⟨releasedSnapshot, true, none⟩]

/-- The heading of the sample leaves the quarantine under the approval of the reviewer. -/
theorem promoted_vetted_heading :
    ∃ (before : List (QuarantineCall (sampleHost false))) (approval : HumanApproval)
      (candidate : CandidateAtom) (snapshot : SourceSnapshot (sampleHost false)),
      Vetted sampleComposition (runQuarantine sampleComposition before)
        (sampleCandidate false).candidateId approval candidate snapshot
        ((sampleCandidate false).validated [releasedBinding] releasedApproval) := by
  have hpromoted : (runQuarantine sampleComposition releaseCalls).promoted.lookup
      (sampleCandidate false).candidateId =
        some ((sampleCandidate false).validated [releasedBinding] releasedApproval) := by
    decide +kernel
  obtain ⟨before, _, approval, _, candidate, snapshot, _, hvetted, _⟩ :=
    promoted_vetted sampleComposition releaseCalls hpromoted
  exact ⟨before, approval, candidate, snapshot, hvetted⟩

end Sample

end ContractCapsule.Build
