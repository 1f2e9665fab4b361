import ContractCapsule.Registry.Publish

/-!
# The Registry is Append-Only

What one publication does to the tables, the invariant that every stored version mirrors the
record it was published with, and what follows for every sequence of publications.
-/

namespace ContractCapsule.Registry

open Library Models
open Enumeration (wire)

variable {F : Type} [FloatText F] {service : Service}

/-! ## Section 1: One publication -/

/-- Rows that could be inserted stand at the end of the table. -/
theorem insertRows_eq_some {ρ κ : Type} [DecidableEq κ] {key : ρ → κ} {rows table table' : List ρ}
    (h : Tables.insertRows key rows table = some table') : table' = table ++ rows := by
  unfold Tables.insertRows at h
  induction rows generalizing table with
  | nil => simpa using h.symm
  | cons row rows ih =>
    rw [List.foldlM_cons] at h
    obtain ⟨next, hnext, hrest⟩ := Option.bind_eq_some_iff.mp h
    rw [ih hrest, (insertRow_eq_some.mp hnext).2, List.append_assoc, List.singleton_append]

/-- The attestations that a call inserts with its publication: one row with the permit of the call
when the candidate needs a trust proof, and none when it does not. -/
def AttestedBy (service : Service) (call : Call F) (candidate : Capsule (Number F))
    (publicationId : ℕ) (rows : List AttestationRow) : Prop :=
  (requiresM3Gate candidate = false ∧ rows = []) ∨
    requiresM3Gate candidate = true ∧ ∃ permit row, call.permit = some permit ∧
      call.surroundings.trustGate candidate permit = true ∧
      attestationRow service publicationId call.principalId permit = .ok row ∧ rows = [row]

/-- The tables after a new version was inserted. -/
def Tables.publish (t : Tables) (candidate : Capsule (Number F)) (publishedAt : String)
    (attestations : List AttestationRow) : Tables where
  publications := t.publications ++ [publicationRow t.nextId candidate publishedAt]
  evidence := t.evidence ++ evidenceRows t.nextId candidate
  grants := t.grants ++ grantRows t.nextId candidate
  attestations := t.attestations ++ attestations

theorem readBack_eq_ok {surroundings : Surroundings F} {row : PublicationRow}
    {published : PublishedCapsule F} (h : readBack service surroundings row = .ok published) :
    rowToPublished service.sha256 row = some published := by
  simp only [readBack, Except.bind_eq_ok, orRaise_eq_ok, Except.pure_eq_ok] at h
  obtain ⟨p, hp, _, _, rfl⟩ := h
  exact hp

omit [FloatText F] in
/-- A permit is admitted exactly when the candidate needs one. -/
theorem validateM3Publication_eq_ok {surroundings : Surroundings F}
    {candidate : Capsule (Number F)} {permit admitted : Option (Permit F)}
    (h : validateM3Publication surroundings candidate permit = .ok admitted) :
    (requiresM3Gate candidate = false ∧ admitted = none) ∨
      requiresM3Gate candidate = true ∧ ∃ p, permit = some p ∧ admitted = some p ∧
        surroundings.trustGate candidate p = true := by
  unfold validateM3Publication at h
  split at h
  · next hgate =>
    cases permit with
    | none => simp at h
    | some p =>
      by_cases htrust : surroundings.trustGate candidate p = true
      · simp only [htrust, if_true, Except.ok.injEq] at h
        exact Or.inr ⟨hgate, p, rfl, h.symm, htrust⟩
      · simp [htrust] at h
  · next hgate =>
    exact Or.inl ⟨by simpa using hgate, (Except.ok.inj h).symm⟩

/-- The row of an attestation belongs to its publication. -/
theorem publicationId_attestationRow {publicationId : ℕ} {principalId : String}
    {permit : Permit F} {row : AttestationRow}
    (h : attestationRow service publicationId principalId permit = .ok row) :
    row.publicationId = publicationId := by
  simp only [attestationRow, Except.bind_eq_ok] at h
  obtain ⟨_, _, _, _, h⟩ := h
  split at h
  · rw [← Except.ok.inj h]
  · exact absurd h (by simp)

/-- A replay writes nothing and returns the stored publication. -/
theorem returns_replay {call : Call F} {candidate : Capsule (Number F)} {row : PublicationRow}
    {t t' : Tables} {published : PublishedCapsule F}
    (h : Returns (replay service call candidate row) t published t') :
    t' = t ∧ row.contentDigest = candidate.controlManifest.contentDigest ∧
      rowToPublished service.sha256 row = some published := by
  simp only [replay, returns_bind, returns_check, returns_query, raiseIf_eq_ok, not_not] at h
  obtain ⟨_, _, ⟨_, rfl⟩, _, _, ⟨hdigest, rfl⟩, _, _, ⟨_, rfl⟩, _, _, ⟨_, rfl⟩, hread, rfl⟩ := h
  exact ⟨rfl, hdigest, readBack_eq_ok hread⟩

/-- A new version is inserted with the rows of its candidate. -/
theorem returns_insertNew {call : Call F} {candidate : Capsule (Number F)} {t t' : Tables}
    {published : PublishedCapsule F}
    (h : Returns (insertNew service call candidate) t published t') :
    ∃ attestations, AttestedBy service call candidate t.nextId attestations ∧
      t' = t.publish candidate call.surroundings.now attestations ∧
      rowToPublished service.sha256
        (publicationRow t.nextId candidate call.surroundings.now) = some published := by
  simp only [insertNew, insertPublication, insertEvidence, insertGrants, returns_bind,
    returns_check, returns_query, returns_select, returns_write, orRaise_eq_ok] at h
  obtain ⟨admitted, _, ⟨hgate, rfl⟩, h⟩ := h
  obtain ⟨_, _, ⟨_, rfl⟩, _, _, ⟨rfl, rfl⟩, h⟩ := h
  obtain ⟨_, _, ⟨_, _, ⟨hpublication, rfl⟩, rfl⟩, h⟩ := h
  obtain ⟨_, _, ⟨_, rfl⟩, _, _, ⟨_, _, ⟨_, rfl⟩, _, _, ⟨hevidence, rfl⟩, rfl⟩, h⟩ := h
  obtain ⟨_, _, ⟨_, rfl⟩, _, _, ⟨_, _, ⟨hgrants, rfl⟩, rfl⟩, h⟩ := h
  have hpublication' := (insertRow_eq_some.mp hpublication).2
  have hevidence' := insertRows_eq_some hevidence
  have hgrants' := insertRows_eq_some hgrants
  subst hpublication' hevidence' hgrants'
  rcases validateM3Publication_eq_ok hgate with ⟨hopen, rfl⟩ | ⟨hneeds, permit, hpermit, rfl, htrust⟩
  · -- no permit was needed, so no attestation is inserted
    simp only [returns_bind, returns_check, returns_query] at h
    obtain ⟨_, _, ⟨_, rfl⟩, _, _, ⟨_, rfl⟩, hread, rfl⟩ := h
    refine ⟨[], Or.inl ⟨hopen, rfl⟩, ?_, readBack_eq_ok hread⟩
    simp only [Tables.publish, List.append_nil]
  · simp only [insertAttestation, returns_bind, returns_check, returns_query, returns_write,
      orRaise_eq_ok] at h
    obtain ⟨_, _, ⟨_, rfl⟩, row, _, ⟨hrow, rfl⟩, h⟩ := h
    obtain ⟨_, _, ⟨_, _, ⟨hattestation, rfl⟩, rfl⟩, _, _, ⟨_, rfl⟩, _, _, ⟨_, rfl⟩, hread, rfl⟩ := h
    have hattestation' := (insertRow_eq_some.mp hattestation).2
    subst hattestation'
    exact ⟨[row], Or.inr ⟨hneeds, permit, row, hpermit, htrust, hrow, rfl⟩, rfl,
      readBack_eq_ok hread⟩

/-- What the gates of a publication establish of its candidate. -/
structure Admitted (service : Service) (call : Call F) (candidate : Capsule (Number F)) : Prop where
  revalidated : revalidateCandidate call.capsule = some candidate
  lifecycle : candidate.controlManifest.lifecycle = .published
  digest : canonicalDigest service.sha256 candidate = candidate.controlManifest.contentDigest

/-- A call that returns has replayed a stored version or inserted a new one. -/
theorem execute_ok {call : Call F} {t : Tables} {published : PublishedCapsule F}
    (h : (execute service t call).1 = .ok published) :
    ∃ candidate, Admitted service call candidate ∧
      ((∃ row, t.selectPublication candidate.controlManifest.capsuleId
            candidate.controlManifest.version = some row ∧ (execute service t call).2 = t ∧
          row.contentDigest = candidate.controlManifest.contentDigest ∧
          rowToPublished service.sha256 row = some published) ∨
        t.selectPublication candidate.controlManifest.capsuleId
            candidate.controlManifest.version = none ∧
          ∃ attestations, AttestedBy service call candidate t.nextId attestations ∧
            (execute service t call).2 =
              t.publish candidate call.surroundings.now attestations ∧
            rowToPublished service.sha256
              (publicationRow t.nextId candidate call.surroundings.now) = some published) := by
  have h : Returns (publish service call) t published (execute service t call).2 :=
    (transaction_eq_ok (publish service call) t _ published).mp (Prod.ext h rfl)
  -- the gates pass in their order, each of which reads the tables only
  simp only [publish, returns_bind, returns_check, returns_select, orRaise_eq_ok] at h
  obtain ⟨candidate, _, ⟨hcandidate, rfl⟩, _, _, ⟨_, rfl⟩, _, _, ⟨_, rfl⟩, h⟩ := h
  obtain ⟨_, _, ⟨_, rfl⟩, _, _, ⟨hgate, rfl⟩, _, _, ⟨_, rfl⟩, row, _, ⟨hrow, rfl⟩, h⟩ := h
  simp only [validateCandidate, Except.bind_eq_ok, raiseIf_eq_ok, not_not] at hgate
  obtain ⟨_, hlifecycle, _, hdigest, _⟩ := hgate
  refine ⟨candidate, ⟨hcandidate, hlifecycle, hdigest⟩, ?_⟩
  -- a row that exists is replayed; otherwise one is inserted
  cases row with
  | some row => exact Or.inl ⟨row, hrow, returns_replay h⟩
  | none => exact Or.inr ⟨hrow, returns_insertNew h⟩

/-! ## Section 2: Rows that mirror a record -/

/-- The rows of one publication in the three tables that refer to it. -/
def Tables.rowsOf (t : Tables) (publicationId : ℕ) :
    List EvidenceRow × List GrantRow × List AttestationRow :=
  (t.evidence.filter fun row => row.publicationId = publicationId,
    t.grants.filter fun row => row.publicationId = publicationId,
    t.attestations.filter fun row => row.publicationId = publicationId)

/-- The version that a row stores. -/
def PublicationRow.versionKey (row : PublicationRow) : String × String :=
  (row.capsuleId, row.version)

/-- The row and the rows that refer to it are those of the record which a call has published, and
the row is reconstructed to that record. -/
structure Mirrors (service : Service) (t : Tables) (row : PublicationRow) (call : Call F)
    (candidate : Capsule (Number F)) : Prop where
  admitted : Admitted service call candidate
  row_eq : row = publicationRow row.publicationId candidate call.surroundings.now
  evidence : (t.rowsOf row.publicationId).1 = evidenceRows row.publicationId candidate
  grants : (t.rowsOf row.publicationId).2.1 = grantRows row.publicationId candidate
  attestations :
    AttestedBy service call candidate row.publicationId (t.rowsOf row.publicationId).2.2
  reconstructed : ∃ published : PublishedCapsule F,
    rowToPublished service.sha256 row = some published ∧
      modulesByValue published.capsule = modulesByValue candidate ∧
      published.publishedAt = row.publishedAt

/-- What the calls made so far have left in the tables. -/
structure Kept (service : Service) (calls : List (Call F)) (t : Tables) : Prop where
  versions : (t.publications.map PublicationRow.versionKey).Nodup
  mirrored : ∀ row ∈ t.publications, ∃ call ∈ calls, ∃ candidate,
    Mirrors service t row call candidate
  evidenceOwned : ∀ row ∈ t.evidence, row.publicationId < t.nextId
  grantsOwned : ∀ row ∈ t.grants, row.publicationId < t.nextId
  attestationsOwned : ∀ row ∈ t.attestations, row.publicationId < t.nextId

/-- The identifiers in use are below the next one. -/
theorem publicationId_lt_nextId {t : Tables} {row : PublicationRow} (h : row ∈ t.publications) :
    row.publicationId < t.nextId := by
  have hle : ∀ ids : List ℕ, ∀ n ∈ ids, n ≤ ids.foldr max 0 := by
    intro ids
    induction ids with
    | nil => simp
    | cons m ids ih =>
      intro n hn
      rcases List.mem_cons.mp hn with rfl | hrest
      · exact le_max_left _ _
      · exact (ih n hrest).trans (le_max_right _ _)
  exact Nat.lt_succ_of_le (hle _ _ (List.mem_map_of_mem h))

theorem nextId_publish {t : Tables} {candidate : Capsule (Number F)} {publishedAt : String}
    {attestations : List AttestationRow} :
    t.nextId < (t.publish candidate publishedAt attestations).nextId := by
  have hrow : publicationRow t.nextId candidate publishedAt ∈
      (t.publish candidate publishedAt attestations).publications :=
    List.mem_append_right _ (List.mem_singleton_self _)
  exact publicationId_lt_nextId hrow

theorem publicationId_evidenceRows {publicationId : ℕ} {candidate : Capsule (Number F)}
    {row : EvidenceRow} (h : row ∈ evidenceRows publicationId candidate) :
    row.publicationId = publicationId := by
  obtain ⟨i, hi, rfl⟩ := List.mem_mapIdx.mp h
  rfl

omit [FloatText F] in
theorem publicationId_grantRows {publicationId : ℕ} {candidate : Capsule (Number F)}
    {row : GrantRow} (h : row ∈ grantRows publicationId candidate) :
    row.publicationId = publicationId := by
  obtain ⟨record, _, rfl⟩ := List.mem_map.mp h
  rfl

theorem publicationId_attestedBy {call : Call F} {candidate : Capsule (Number F)}
    {publicationId : ℕ} {rows : List AttestationRow}
    (h : AttestedBy service call candidate publicationId rows) :
    ∀ row ∈ rows, row.publicationId = publicationId := by
  rcases h with ⟨_, rfl⟩ | ⟨_, permit, row, _, _, hrow, rfl⟩
  · simp
  · intro r hr
    rw [List.mem_singleton.mp hr]
    exact publicationId_attestationRow hrow

/-- Appended rows of a new publication are all the rows of that publication. -/
theorem filter_append_new {ρ : Type} {owner : ρ → ℕ} {table rows : List ρ} {n : ℕ}
    (htable : ∀ row ∈ table, owner row < n) (hrows : ∀ row ∈ rows, owner row = n) :
    (table ++ rows).filter (fun row => owner row = n) = rows := by
  have hnone : table.filter (fun row => owner row = n) = [] := by
    rw [List.filter_eq_nil_iff]
    intro row hrow
    simpa using (htable row hrow).ne
  have hall : rows.filter (fun row => owner row = n) = rows := by
    rw [List.filter_eq_self]
    simpa using hrows
  rw [List.filter_append, hnone, hall, List.nil_append]

/-- Appended rows of a new publication are no rows of another one. -/
theorem filter_append_old {ρ : Type} {owner : ρ → ℕ} {table rows : List ρ} {n m : ℕ}
    (hm : m < n) (hrows : ∀ row ∈ rows, owner row = n) :
    (table ++ rows).filter (fun row => owner row = m) =
      table.filter fun row => owner row = m := by
  have hnone : rows.filter (fun row => owner row = m) = [] := by
    rw [List.filter_eq_nil_iff]
    intro row hrow
    simpa [hrows row hrow] using hm.ne'
  rw [List.filter_append, hnone, List.append_nil]

section NewVersion

variable {call : Call F} {candidate : Capsule (Number F)} {t : Tables}
  {attestations : List AttestationRow} {calls : List (Call F)}

/-- A new version leaves the rows of the stored versions alone. -/
theorem rowsOf_publish_old (hattested : AttestedBy service call candidate t.nextId attestations)
    {publicationId : ℕ} (hold : publicationId < t.nextId) (publishedAt : String) :
    (t.publish candidate publishedAt attestations).rowsOf publicationId =
      t.rowsOf publicationId := by
  unfold Tables.rowsOf Tables.publish
  rw [filter_append_old hold fun _ => publicationId_evidenceRows,
    filter_append_old hold fun _ => publicationId_grantRows,
    filter_append_old hold (publicationId_attestedBy hattested)]

/-- The rows of a new version are those of its candidate. -/
theorem rowsOf_publish_new (hkept : Kept service calls t)
    (hattested : AttestedBy service call candidate t.nextId attestations) (publishedAt : String) :
    (t.publish candidate publishedAt attestations).rowsOf t.nextId =
      (evidenceRows t.nextId candidate, grantRows t.nextId candidate, attestations) := by
  unfold Tables.rowsOf Tables.publish
  rw [filter_append_new hkept.evidenceOwned fun _ => publicationId_evidenceRows,
    filter_append_new hkept.grantsOwned fun _ => publicationId_grantRows,
    filter_append_new hkept.attestationsOwned (publicationId_attestedBy hattested)]

/-- A version that no row stores can be added. -/
theorem versionKey_ne (h : t.selectPublication candidate.controlManifest.capsuleId
      candidate.controlManifest.version = none) (publicationId : ℕ) (publishedAt : String) :
    ∀ row ∈ t.publications,
      row.versionKey ≠ (publicationRow publicationId candidate publishedAt).versionKey := by
  rw [Tables.selectPublication, List.find?_eq_none] at h
  intro row hrow hkey
  have hkey' := Prod.ext_iff.mp hkey
  exact h row hrow (by simpa using ⟨hkey'.1, hkey'.2⟩)

/-- The rows of a version are mirrored after another version was added, as before. -/
theorem Mirrors.publish_old (hattested : AttestedBy service call candidate t.nextId attestations)
    {row : PublicationRow} (hrow : row ∈ t.publications) {first : Call F}
    {record : Capsule (Number F)} (h : Mirrors service t row first record)
    (publishedAt : String) :
    Mirrors service (t.publish candidate publishedAt attestations) row first record := by
  have hrows := rowsOf_publish_old hattested (publicationId_lt_nextId hrow) publishedAt
  exact {
    admitted := h.admitted
    row_eq := h.row_eq
    evidence := by rw [hrows]; exact h.evidence
    grants := by rw [hrows]; exact h.grants
    attestations := by rw [hrows]; exact h.attestations
    reconstructed := h.reconstructed }

/-- A new version mirrors its candidate. -/
theorem Mirrors.publish_new (hkept : Kept service calls t)
    (hadmitted : Admitted service call candidate)
    (hattested : AttestedBy service call candidate t.nextId attestations)
    {published : PublishedCapsule F}
    (hread : rowToPublished service.sha256
      (publicationRow t.nextId candidate call.surroundings.now) = some published) :
    Mirrors service (t.publish candidate call.surroundings.now attestations)
      (publicationRow t.nextId candidate call.surroundings.now) call candidate := by
  have hrows := rowsOf_publish_new hkept hattested call.surroundings.now
  have hvalid := valid_of_revalidateCandidate hadmitted.revalidated
  -- a row that is read back is one of a settled candidate
  have hsettled : candidate.settled = true := by
    rw [rowToPublished_publicationRow hvalid hadmitted.lifecycle hadmitted.digest] at hread
    by_contra hsettled
    rw [if_neg hsettled] at hread
    exact absurd hread (by simp)
  refine ⟨hadmitted, rfl, ?_, ?_, ?_, ?_⟩
  · show (Tables.rowsOf _ t.nextId).1 = _
    rw [hrows]
    rfl
  · show (Tables.rowsOf _ t.nextId).2.1 = _
    rw [hrows]
    rfl
  · show AttestedBy service call candidate t.nextId (Tables.rowsOf _ t.nextId).2.2
    rw [hrows]
    exact hattested
  · rw [rowToPublished_publicationRow hvalid hadmitted.lifecycle hadmitted.digest,
      if_pos hsettled]
    refine ⟨_, rfl, ?_, rfl⟩
    rw [modulesByValue, modulesByValue, ← byValue_throughText (valid_withoutSidecars hvalid) hsettled rfl rfl]
    rfl

end NewVersion

/-! ## Section 3: Runs -/

theorem kept_empty : Kept (F := F) service [] Tables.empty where
  versions := List.nodup_nil
  mirrored := by simp [Tables.empty]
  evidenceOwned := by simp [Tables.empty]
  grantsOwned := by simp [Tables.empty]
  attestationsOwned := by simp [Tables.empty]

/-- A call that changes nothing keeps what the earlier calls have left. -/
theorem Kept.more {calls : List (Call F)} {t : Tables} (h : Kept service calls t)
    (call : Call F) : Kept service (calls ++ [call]) t := by
  refine { h with mirrored := fun row hrow => ?_ }
  obtain ⟨first, hfirst, candidate, hmirrors⟩ := h.mirrored row hrow
  exact ⟨first, List.mem_append_left _ hfirst, candidate, hmirrors⟩

/-- A call keeps the invariant. -/
theorem Kept.execute {calls : List (Call F)} {t : Tables} (h : Kept service calls t)
    (call : Call F) : Kept service (calls ++ [call]) (execute service t call).2 := by
  cases hrun : (Registry.execute service t call).1 with
  | error e =>
    rw [execute_error hrun]
    exact h.more call
  | ok published =>
    obtain ⟨candidate, hadmitted, hcases⟩ := execute_ok hrun
    -- the version was there already, and nothing is stored; or it is new, and its rows are appended
    rcases hcases with ⟨row, _, hsame, _⟩ | ⟨hfree, attestations, hattested, hnext, hread⟩
    · rw [hsame]
      exact h.more call
    · rw [hnext]
      -- the rows of the new version carry the next id, which no earlier row has
      have hlater : ∀ {n : ℕ}, n ≤ t.nextId →
          n < (t.publish candidate call.surroundings.now attestations).nextId :=
        fun hn => lt_of_le_of_lt hn nextId_publish
      refine ⟨?_, ?_, ?_, ?_, ?_⟩
      · exact nodup_append_row h.versions (versionKey_ne hfree _ _)
      · intro row hrow
        rcases List.mem_append.mp hrow with hold | hnew
        · obtain ⟨first, hfirst, record, hmirrors⟩ := h.mirrored row hold
          exact ⟨first, List.mem_append_left _ hfirst, record,
            hmirrors.publish_old hattested hold _⟩
        · rw [List.mem_singleton.mp hnew]
          exact ⟨call, List.mem_append_right _ (List.mem_singleton_self _), candidate,
            Mirrors.publish_new h hadmitted hattested hread⟩
      · intro row hrow
        rcases List.mem_append.mp hrow with hold | hnew
        · exact hlater (h.evidenceOwned row hold).le
        · exact hlater (publicationId_evidenceRows hnew).le
      · intro row hrow
        rcases List.mem_append.mp hrow with hold | hnew
        · exact hlater (h.grantsOwned row hold).le
        · exact hlater (publicationId_grantRows hnew).le
      · intro row hrow
        rcases List.mem_append.mp hrow with hold | hnew
        · exact hlater (h.attestationsOwned row hold).le
        · exact hlater (publicationId_attestedBy hattested row hnew).le

/-- Every run leaves rows that mirror its publications. -/
theorem kept_runRegistry (calls : List (Call F)) :
    Kept service calls (runRegistry service calls) := by
  induction calls using List.reverseRecOn with
  | nil => exact kept_empty
  | append_singleton calls call ih =>
    rw [runRegistry, final_append]
    exact ih.execute call

/-- `t'` has every row of `t`, with the rows that refer to it. -/
def Extends (t t' : Tables) : Prop :=
  ∀ row ∈ t.publications, row ∈ t'.publications ∧
    t'.rowsOf row.publicationId = t.rowsOf row.publicationId

/-- A call extends the tables. -/
theorem extends_execute (t : Tables) (call : Call F) :
    Extends t (execute service t call).2 := by
  cases hrun : (execute service t call).1 with
  | error e =>
    rw [execute_error hrun]
    exact fun row hrow => ⟨hrow, rfl⟩
  | ok published =>
    obtain ⟨candidate, _, hcases⟩ := execute_ok hrun
    rcases hcases with ⟨row, _, hsame, _⟩ | ⟨_, attestations, hattested, hnext, _⟩
    · rw [hsame]
      exact fun row hrow => ⟨hrow, rfl⟩
    · rw [hnext]
      intro row hrow
      exact ⟨List.mem_append_left _ hrow,
        rowsOf_publish_old hattested (publicationId_lt_nextId hrow) _⟩

/-- A run extends the tables it starts from. -/
theorem extends_run (t : Tables) (calls : List (Call F)) :
    Extends t (final (execute service) t calls) := by
  apply relates_final (fun _ => True) Extends (fun _ _ _ => trivial)
  · exact fun t row hrow => ⟨hrow, rfl⟩
  · intro a b c hab hbc row hrow
    have hb := hab row hrow
    have hc := hbc row hb.1
    exact ⟨hc.1, hc.2.trans hb.2⟩
  · exact fun t call _ => extends_execute t call
  · trivial

/-! ## Section 4: Answers -/

/-- The version that a call is for: that of its revalidated candidate. -/
def Call.versionKey (call : Call F) : Option (String × String) :=
  (revalidateCandidate call.capsule).map fun candidate =>
    (candidate.controlManifest.capsuleId, candidate.controlManifest.version)

/-- A reconstructed capsule has the digest and the timestamp of its row. -/
theorem rowToPublished_columns {row : PublicationRow} {published : PublishedCapsule F}
    (h : rowToPublished service.sha256 row = some published) :
    published.capsule.controlManifest.contentDigest = row.contentDigest ∧
      published.publishedAt = row.publishedAt := by
  simp only [rowToPublished, Option.bind_eq_bind, Option.bind_eq_some_iff] at h
  obtain ⟨_, _, members, _, h⟩ := h
  -- whichever way the signature was read, the columns are compared at the end
  have hend : ∀ signature : Value F, ((modelValidateJson (dumps asciiStyle
      (.object (setItem (setItem (setItem members "detached_signature" signature)
        "derived_artifacts" (.object [])) "runtime_sidecar" (.object []))))).bind fun capsule =>
      if canonicalDigest service.sha256 capsule = row.contentDigest ∧
          capsule.controlManifest.contentDigest = row.contentDigest ∧
          wire capsule.controlManifest.lifecycle = row.lifecycle ∧
          capsule.controlManifest.authority = row.authority ∧
          jcsText (scopeDict capsule) = row.scopeJcs then
        some (PublishedCapsule.mk capsule "PUBLISHED" row.publishedAt) else none) = some published →
      published.capsule.controlManifest.contentDigest = row.contentDigest ∧
        published.publishedAt = row.publishedAt := by
    intro signature hsignature
    obtain ⟨capsule, _, hcapsule⟩ := Option.bind_eq_some_iff.mp hsignature
    split at hcapsule
    · next hcolumns =>
      rw [← Option.some.inj hcapsule]
      exact ⟨hcolumns.2.1, rfl⟩
    · exact absurd hcapsule (by simp)
  split at h
  · exact hend .null h
  · split at h
    · exact hend .null h
    · obtain ⟨signature, _, hsignature⟩ := Option.bind_eq_some_iff.mp h
      exact hend signature hsignature

/-- A call that returns answers with the reconstruction of a row it leaves in the tables. -/
theorem answered_from_row {call : Call F} {t : Tables} {published : PublishedCapsule F}
    (h : (execute service t call).1 = .ok published) :
    ∃ row ∈ (execute service t call).2.publications, call.versionKey = some row.versionKey ∧
      rowToPublished service.sha256 row = some published := by
  obtain ⟨candidate, hadmitted, hcases⟩ := execute_ok h
  have hkey : call.versionKey = some (candidate.controlManifest.capsuleId,
      candidate.controlManifest.version) := by
    rw [Call.versionKey, hadmitted.revalidated, Option.map_some]
  rcases hcases with ⟨row, hrow, hsame, _, hread⟩ | ⟨_, _, _, hnext, hread⟩
  · have hfound : row.capsuleId = candidate.controlManifest.capsuleId ∧
        row.version = candidate.controlManifest.version := by
      simpa using List.find?_some hrow
    refine ⟨row, ?_, ?_, hread⟩
    · rw [hsame]
      exact List.mem_of_find?_eq_some hrow
    · rw [hkey, PublicationRow.versionKey, hfound.1, hfound.2]
  · refine ⟨publicationRow t.nextId candidate call.surroundings.now, ?_, hkey, hread⟩
    rw [hnext]
    exact List.mem_append_right _ (List.mem_singleton_self _)

/-- A call for a stored version that returns answers with the reconstruction of its row. -/
theorem answered_as_stored {calls : List (Call F)} {t : Tables} (hkept : Kept service calls t)
    {row : PublicationRow} (hrow : row ∈ t.publications) {call : Call F}
    (hkey : call.versionKey = some row.versionKey) {published : PublishedCapsule F}
    (h : (execute service t call).1 = .ok published) :
    rowToPublished service.sha256 row = some published := by
  obtain ⟨row', hrow', hkey', hread⟩ := answered_from_row h
  have hversion : row.versionKey = row'.versionKey := by
    apply Option.some.inj
    rw [← hkey, ← hkey']
  have hsame : row = row' :=
    eq_of_key_eq (hkept.execute call).versions (extends_execute t call row hrow).1 hrow' hversion
  rw [hsame]
  exact hread

/-- **The registry is append-only and idempotent.** After every sequence of calls each version has
one row; the row and the rows that refer to it mirror the record they were published with; no later
call changes them; a call that raises leaves the tables alone; and a later call for a version that
returns answers with what the first one answered, under the stored digest. -/
theorem registry_append_only (service : Service) (before after : List (Call F)) :
    ((runRegistry service before).publications.map PublicationRow.versionKey).Nodup ∧
      (∀ row ∈ (runRegistry service before).publications, ∃ call ∈ before, ∃ candidate,
        Mirrors service (runRegistry service before) row call candidate) ∧
      Extends (runRegistry service before) (runRegistry service (before ++ after)) ∧
      (∀ (call : Call F) (e : PublishError),
        (execute service (runRegistry service before) call).1 = .error e →
          (execute service (runRegistry service before) call).2 = runRegistry service before) ∧
      (∀ row ∈ (runRegistry service before).publications, ∀ (later : Call F)
        (published : PublishedCapsule F), later.versionKey = some row.versionKey →
          (execute service (runRegistry service (before ++ after)) later).1 = .ok published →
            rowToPublished service.sha256 row = some published ∧
              published.capsule.controlManifest.contentDigest = row.contentDigest ∧
              published.publishedAt = row.publishedAt) ∧
      ∀ (first later : Call F) (original published : PublishedCapsule F),
        later.versionKey = first.versionKey →
          (execute service (runRegistry service before) first).1 = .ok original →
          (execute service (runRegistry service (before ++ first :: after)) later).1 =
            .ok published →
          published = original := by
  have hlater : ∀ calls rest : List (Call F),
      Extends (runRegistry service calls) (runRegistry service (calls ++ rest)) := by
    intro calls rest
    rw [runRegistry, runRegistry, final_append]
    exact extends_run _ rest
  refine ⟨(kept_runRegistry before).versions, (kept_runRegistry before).mirrored,
    hlater before after, fun _ _ => execute_error, ?_, ?_⟩
  · intro row hrow later published hkey hreturns
    have hread := answered_as_stored (kept_runRegistry (before ++ after))
      (hlater before after row hrow).1 hkey hreturns
    exact ⟨hread, rowToPublished_columns hread⟩
  · intro first later original published hkey hfirst hreturns
    obtain ⟨row, hrow, hfirstKey, horiginal⟩ := answered_from_row hfirst
    -- the row of the first call is still there when the later one arrives
    have hstored : row ∈ (runRegistry service (before ++ first :: after)).publications := by
      have hextends := hlater (before ++ [first]) after
      rw [List.append_assoc, List.singleton_append] at hextends
      apply (hextends row _).1
      rw [runRegistry, final_append]
      exact hrow
    have hread := answered_as_stored (kept_runRegistry (before ++ first :: after)) hstored
      (hkey.trans hfirstKey) hreturns
    exact Option.some.inj (hread.symm.trans horiginal)

end ContractCapsule.Registry
