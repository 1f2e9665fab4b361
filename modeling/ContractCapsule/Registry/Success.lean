import ContractCapsule.Registry.Get

/-!
# Calls that Go Through

The other direction of the gates: what a call has to meet for its capsule to be inserted as a new
version, and what a reader has to meet to get it back. Both are stated for a capsule that needs no
trust proof.
-/

namespace ContractCapsule.Registry

open Library Models

variable {F : Type} [FloatText F] {service : Service} {t : Tables}
  {candidate : Capsule (Number F)} {publicationId : ℕ}

/-! ## Section 1: New rows -/

/-- Rows whose keys are new and distinct can be inserted. -/
theorem insertRows_of_new {ρ κ : Type} [DecidableEq κ] {key : ρ → κ} {rows table : List ρ}
    (hnodup : (rows.map key).Nodup) (hnew : ∀ row ∈ rows, ∀ r ∈ table, key r ≠ key row) :
    Tables.insertRows key rows table = some (table ++ rows) := by
  induction rows generalizing table with
  | nil => simp [Tables.insertRows]
  | cons row rows ih =>
    rw [List.map_cons, List.nodup_cons] at hnodup
    have hfirst : insertRow key row table = some (table ++ [row]) :=
      insertRow_eq_some.mpr ⟨hnew row List.mem_cons_self, rfl⟩
    have hrest : Tables.insertRows key rows (table ++ [row]) =
        some (table ++ [row] ++ rows) := by
      apply ih hnodup.2
      intro r hr r' hr'
      rcases List.mem_append.mp hr' with hold | hthis
      · exact hnew r (List.mem_cons_of_mem _ hr) r' hold
      · -- two of the new rows have distinct keys
        rw [List.mem_singleton.mp hthis]
        intro heq
        exact hnodup.1 (List.mem_map.mpr ⟨r, hr, heq.symm⟩)
    unfold Tables.insertRows at hrest ⊢
    rw [List.foldlM_cons, hfirst]
    simpa using hrest

/-- The evidence rows of a capsule have their ordinals in order. -/
theorem ordinals_evidenceRows (publicationId : ℕ) (capsule : Capsule (Number F)) :
    (evidenceRows publicationId capsule).map EvidenceRow.ordinal =
      List.range capsule.evidencePlane.records.length := by
  apply List.ext_getElem
  · simp [evidenceRows]
  · intro i hi hi'
    simp [evidenceRows]

theorem evidenceIds_evidenceRows (publicationId : ℕ) (capsule : Capsule (Number F)) :
    (evidenceRows publicationId capsule).map EvidenceRow.evidenceId =
      capsule.evidencePlane.records.map EvidenceRecord.evidenceId := by
  apply List.ext_getElem
  · simp [evidenceRows]
  · intro i hi hi'
    simp [evidenceRows]

/-- Evidence rows of a new publication can be inserted under any key that tells them apart. -/
theorem insertRows_evidenceRows {κ : Type} [DecidableEq κ] {part : EvidenceRow → κ}
    (howned : ∀ row ∈ t.evidence, row.publicationId < t.nextId)
    (hnodup : ((evidenceRows t.nextId candidate).map part).Nodup) :
    Tables.insertRows (fun r => (r.publicationId, part r)) (evidenceRows t.nextId candidate)
      t.evidence = some (t.evidence ++ evidenceRows t.nextId candidate) := by
  apply insertRows_of_new
  · apply List.Nodup.of_map Prod.snd
    rw [List.map_map]
    exact hnodup
  · intro row hrow r hr heq
    rw [Prod.mk.injEq, publicationId_evidenceRows hrow] at heq
    exact (howned r hr).ne heq.1

omit [FloatText F] in
theorem insertRows_grantRows (howned : ∀ row ∈ t.grants, row.publicationId < t.nextId)
    (hnodup : (candidate.evidencePlane.records.map EvidenceRecord.evidenceId).Nodup) :
    Tables.insertRows (fun r => (r.publicationId, r.evidenceId, r.digest))
      (grantRows t.nextId candidate) t.grants =
        some (t.grants ++ grantRows t.nextId candidate) := by
  apply insertRows_of_new
  · apply List.Nodup.of_map fun key => key.2.1
    rw [List.map_map, grantRows, List.map_map]
    exact hnodup.sublist (List.filter_sublist.map _)
  · intro row hrow r hr heq
    rw [Prod.mk.injEq, publicationId_grantRows hrow] at heq
    exact (howned r hr).ne heq.1

/-- The rows of a capsule come in the order of their ordinals. -/
theorem selectEvidence_publish {publishedAt : String} {attestations : List AttestationRow}
    (howned : ∀ row ∈ t.evidence, row.publicationId < t.nextId) :
    (t.publish candidate publishedAt attestations).selectEvidence t.nextId =
      evidenceRows t.nextId candidate := by
  have hfilter : (t.evidence ++ evidenceRows t.nextId candidate).filter
      (fun row => row.publicationId = t.nextId) = evidenceRows t.nextId candidate :=
    filter_append_new howned fun row => publicationId_evidenceRows
  simp only [Tables.selectEvidence, Tables.publish, hfilter]
  apply List.Pairwise.insertionSort_eq
  have hordered : ((evidenceRows t.nextId candidate).map EvidenceRow.ordinal).Pairwise
      fun a b => a ≤ b := by
    rw [ordinals_evidenceRows]
    exact List.pairwise_le_range
  exact List.pairwise_map.mp hordered

theorem selectGrants_publish {publishedAt : String} {attestations : List AttestationRow}
    (howned : ∀ row ∈ t.grants, row.publicationId < t.nextId) :
    (t.publish candidate publishedAt attestations).selectGrants t.nextId =
      (grantRows t.nextId candidate).insertionSort Tables.grantLe := by
  have hfilter : (t.grants ++ grantRows t.nextId candidate).filter
      (fun row => row.publicationId = t.nextId) = grantRows t.nextId candidate :=
    filter_append_new howned fun row => publicationId_grantRows
  simp only [Tables.selectGrants, Tables.publish, hfilter]

/-- The row of a capsule, with the rows that refer to it, agrees with the capsule. -/
theorem verifyExisting_publicationRow {surroundings : Surroundings F} {publishedAt : String}
    (hevidence : t.selectEvidence publicationId = evidenceRows publicationId candidate)
    (hgrants : t.selectGrants publicationId =
      (grantRows publicationId candidate).insertionSort Tables.grantLe)
    (hunproved : requiresM3Gate candidate = false) :
    verifyExisting surroundings t (publicationRow publicationId candidate publishedAt) candidate =
      .ok () := by
  have hid : (publicationRow publicationId candidate publishedAt).publicationId = publicationId :=
    rfl
  have hat : (publicationRow publicationId candidate publishedAt).publishedAt = publishedAt := rfl
  simp only [verifyExisting, hid, hat, hevidence, hgrants, verifyM3Attestation, hunproved, ne_eq,
    not_true_eq_false, or_self, raiseIf, if_false, Bool.false_eq_true, Except.ok_bind]

/-! ## Section 2: Publication -/

/-- What a call for a new version has to meet, when its candidate needs no trust proof. -/
structure Publishable (service : Service) (t : Tables) (call : Call F)
    (candidate : Capsule (Number F)) : Prop where
  revalidated : revalidateCandidate call.capsule = some candidate
  authorized : ∀ inside, authorizePublish (call.surroundings.decision inside) candidate = .ok ()
  accepted : validateCandidate service call.surroundings candidate = .ok ()
  settled : candidate.settled = true
  unproved : requiresM3Gate candidate = false
  undisturbed : ∀ s, call.surroundings.fails s = false
  new : t.selectPublication candidate.controlManifest.capsuleId
    candidate.controlManifest.version = none
  evidenceIds : (candidate.evidencePlane.records.map EvidenceRecord.evidenceId).Nodup
  evidenceOwned : ∀ row ∈ t.evidence, row.publicationId < t.nextId
  grantsOwned : ∀ row ∈ t.grants, row.publicationId < t.nextId

/-- An accepted candidate is published and has the digest of its content. -/
theorem accepted_iff {surroundings : Surroundings F}
    (h : validateCandidate service surroundings candidate = .ok ()) :
    candidate.controlManifest.lifecycle = .published ∧
      canonicalDigest service.sha256 candidate = candidate.controlManifest.contentDigest := by
  simp only [validateCandidate, Except.bind_eq_ok, raiseIf_eq_ok, not_not] at h
  obtain ⟨_, hlifecycle, _, hdigest, _⟩ := h
  exact ⟨hlifecycle, hdigest⟩

/-- Such a call is carried out. -/
theorem execute_of_publishable {call : Call F} (h : Publishable service t call candidate) :
    (execute service t call).2 = t.publish candidate call.surroundings.now [] := by
  obtain ⟨hlifecycle, hdigest⟩ := accepted_iff h.accepted
  have hstatement : ∀ s, statement call.surroundings s = .ok () :=
    fun s => raiseIf_of_not _ (by simp [h.undisturbed s])
  -- the keys of the rows are new
  have hpublication : insertRow (fun r => (r.capsuleId, r.version))
      (publicationRow t.nextId candidate call.surroundings.now) t.publications =
        some (t.publications ++ [publicationRow t.nextId candidate call.surroundings.now]) := by
    apply insertRow_eq_some.mpr
    refine ⟨fun r hr heq => ?_, rfl⟩
    have hnone := List.find?_eq_none.mp h.new r hr
    simp only [publicationRow, Prod.mk.injEq] at heq
    exact hnone (by simp [heq.1, heq.2])
  have hordinals : Tables.insertRows (fun r => (r.publicationId, r.ordinal))
      (evidenceRows t.nextId candidate) t.evidence =
        some (t.evidence ++ evidenceRows t.nextId candidate) := by
    apply insertRows_evidenceRows h.evidenceOwned
    rw [ordinals_evidenceRows]
    exact List.nodup_range
  have hevidence : Tables.insertRows (fun r => (r.publicationId, r.evidenceId))
      (evidenceRows t.nextId candidate) t.evidence =
        some (t.evidence ++ evidenceRows t.nextId candidate) := by
    apply insertRows_evidenceRows h.evidenceOwned
    rw [evidenceIds_evidenceRows]
    exact h.evidenceIds
  have hgrants := insertRows_grantRows h.grantsOwned h.evidenceIds
  have hverify : verifyExisting call.surroundings
      (t.publish candidate call.surroundings.now [])
      (publicationRow t.nextId candidate call.surroundings.now) candidate = .ok () :=
    verifyExisting_publicationRow (selectEvidence_publish h.evidenceOwned)
      (selectGrants_publish h.grantsOwned) h.unproved
  have hread := rowToPublished_publicationRow (valid_of_revalidateCandidate h.revalidated)
    hlifecycle hdigest t.nextId call.surroundings.now
  rw [if_pos h.settled] at hread
  have hadmitted : validateM3Publication call.surroundings candidate call.permit = .ok none := by
    simp [validateM3Publication, h.unproved]
  let published : PublishedCapsule F := ⟨Transport.throughText.capsule (withoutSidecars candidate),
    "PUBLISHED", call.surroundings.now⟩
  have hback : readBack service call.surroundings
      (publicationRow t.nextId candidate call.surroundings.now) = .ok published := by
    simp [readBack, hread, orRaise, hstatement, pure, Except.pure, published]
  have hinsert : Returns (insertNew service call candidate) t published
      (t.publish candidate call.surroundings.now []) := by
    simp only [insertNew, insertPublication, insertEvidence, insertGrants, returns_bind,
      returns_check, returns_query, returns_select, returns_write, orRaise_eq_ok]
    refine ⟨none, t, ⟨hadmitted, rfl⟩, (), t, ⟨hstatement _, rfl⟩, _, t, ⟨rfl, rfl⟩, (), _,
      ⟨_, t, ⟨hpublication, rfl⟩, rfl⟩, (), _, ⟨hstatement _, rfl⟩, (), _,
      ⟨_, _, ⟨hordinals, rfl⟩, _, _, ⟨hevidence, rfl⟩, rfl⟩, (), _, ⟨hstatement _, rfl⟩, (), _,
      ⟨_, _, ⟨hgrants, rfl⟩, rfl⟩, ?_⟩
    -- no attestation was inserted
    have hsame : (Tables.mk (t.publications ++ [publicationRow t.nextId candidate
        call.surroundings.now]) (t.evidence ++ evidenceRows t.nextId candidate)
        (t.grants ++ grantRows t.nextId candidate) t.attestations) =
        t.publish candidate call.surroundings.now [] := by
      rw [Tables.publish, List.append_nil]
    simp only [returns_bind, returns_check, returns_query]
    exact ⟨(), _, ⟨hstatement _, rfl⟩, (), _, ⟨hsame ▸ hverify, rfl⟩, hback, hsame⟩
  have hreturns : Returns (publish service call) t published
      (t.publish candidate call.surroundings.now []) := by
    simp only [publish, returns_bind, returns_check, returns_select, orRaise_eq_ok]
    exact ⟨candidate, t, ⟨h.revalidated, rfl⟩, (), t, ⟨h.authorized false, rfl⟩, (), t,
      ⟨hstatement _, rfl⟩, (), t, ⟨h.authorized true, rfl⟩, (), t, ⟨h.accepted, rfl⟩, (), t,
      ⟨hstatement _, rfl⟩, none, t, ⟨h.new, rfl⟩, hinsert⟩
  rw [execute, (transaction_eq_ok _ _ _ _).mpr hreturns]

/-- A first publication. -/
theorem runRegistry_singleton {call : Call F}
    (h : Publishable service Tables.empty call candidate) :
    runRegistry service [call] = Tables.empty.publish candidate call.surroundings.now [] := by
  rw [runRegistry, final_cons, final_nil]
  exact execute_of_publishable h

/-! ## Section 3: Reading -/

/-- A reader that may read the row of a capsule gets the capsule, when the store has its blobs. -/
theorem get_of_row {reading : Reading F} {principalId publishedAt : String}
    (hselect : t.selectPublication candidate.controlManifest.capsuleId
      candidate.controlManifest.version = some (publicationRow publicationId candidate publishedAt))
    (hread : authorizedToRead reading t principalId
      (publicationRow publicationId candidate publishedAt) = true)
    (hvalid : candidate.valid = true)
    (haccepted : validateCandidate service reading.surroundings candidate = .ok ())
    (hsettled : candidate.settled = true)
    (hsame : Transport.throughText.capsule (withoutSidecars candidate) = candidate)
    (hevidence : t.selectEvidence publicationId = evidenceRows publicationId candidate)
    (hgrants : t.selectGrants publicationId =
      (grantRows publicationId candidate).insertionSort Tables.grantLe)
    (hunproved : requiresM3Gate candidate = false) :
    get service reading t candidate.controlManifest.capsuleId candidate.controlManifest.version
      principalId = .ok ⟨candidate, "PUBLISHED", publishedAt⟩ := by
  obtain ⟨hlifecycle, hdigest⟩ := accepted_iff haccepted
  have hpublished := rowToPublished_publicationRow hvalid hlifecycle hdigest publicationId
    publishedAt
  rw [if_pos hsettled, hsame] at hpublished
  have hverify : verifyExisting reading.surroundings t
      (publicationRow publicationId candidate publishedAt) candidate = .ok () :=
    verifyExisting_publicationRow hevidence hgrants hunproved
  -- the blobs are the ones that the gates of a publication look at
  have hblobs : checkAll (fun record => if record.mode = "CAS" then do
      let mediaType ← orRaise (reading.surroundings.readVerified record.contentDigest)
        GetError.failed
      raiseIf (mediaType ≠ record.mediaType) GetError.failed
    else .ok ()) candidate.evidencePlane.records = .ok () := by
    simp only [validateCandidate, Except.bind_eq_ok, checkAll_eq_ok] at haccepted
    obtain ⟨_, _, _, _, hrecords⟩ := haccepted
    apply (checkAll_eq_ok _ _).mpr
    intro record hrecord
    have hcheck := hrecords record hrecord
    split at hcheck
    · next hmode =>
      simp only [Except.bind_eq_ok, orRaise_eq_ok, raiseIf_eq_ok] at hcheck
      simpa only [if_pos hmode, Except.bind_eq_ok, orRaise_eq_ok, raiseIf_eq_ok] using hcheck
    · next hmode => rw [if_neg hmode]
  simp only [get, Except.bind_eq_ok, orRaise_eq_ok, raiseIf_eq_ok, Except.pure_eq_ok]
  exact ⟨_, hselect, (), by simp [hread], _, hpublished, (), by rw [hverify]; rfl, (), hblobs, rfl⟩

/-- The record that a grant of the row of a capsule is for, when its reader may read it. -/
theorem grantedRecord_of_row {reading : Reading F} {principalId publishedAt digest : String}
    {grant : GrantRow} (hvalid : candidate.valid = true)
    (haccepted : validateCandidate service reading.surroundings candidate = .ok ())
    (hsettled : candidate.settled = true)
    (hsame : Transport.throughText.capsule (withoutSidecars candidate) = candidate)
    (hevidence : t.selectEvidence publicationId = evidenceRows publicationId candidate)
    (hgrants : t.selectGrants publicationId =
      (grantRows publicationId candidate).insertionSort Tables.grantLe)
    (hunproved : requiresM3Gate candidate = false)
    (hallowed : (reading.decision principalId candidate.controlManifest.authority
      (scopeDict candidate)).allowed = true)
    (hpolicy : grant.accessPolicy ∈ (reading.decision principalId
      candidate.controlManifest.authority (scopeDict candidate)).allowedAccessPolicies) :
    grantedRecord service reading t digest principalId
        (grant, publicationRow publicationId candidate publishedAt) =
      candidate.evidencePlane.records.find? fun record =>
        record.mode = "CAS" ∧ record.evidenceId = grant.evidenceId ∧
          record.contentDigest = digest := by
  obtain ⟨hlifecycle, hdigest⟩ := accepted_iff haccepted
  -- the row gives back what was published, since the capsule is settled
  have hpublished := rowToPublished_publicationRow hvalid hlifecycle hdigest publicationId
    publishedAt
  rw [if_pos hsettled, hsame] at hpublished
  -- and passes the checks of a stored capsule
  have hverify : verifyExisting reading.surroundings t
      (publicationRow publicationId candidate publishedAt) candidate = .ok () :=
    verifyExisting_publicationRow hevidence hgrants hunproved
  simp only [grantedRecord, hpublished, Option.bind_eq_bind, Option.bind_some, hverify,
    Except.toOption, hallowed, hpolicy, and_self, guard_true]
  rfl

end ContractCapsule.Registry
