import ContractCapsule.Registry.AppendOnly

/-!
# Reading a Publication

`Registry.get`: a principal gets a version when the policy resolver lets it read the scope and the
evidence of the row. Whether a version is absent or kept from the principal is not told.
`Registry.get_blob`: a principal gets a blob when a publication that it may read grants its digest.
Both read the content store: a version of which a blob is missing cannot be read either.
-/

namespace ContractCapsule.Registry

open Library Models

variable {F : Type} [FloatText F]

/-! ## Section 1: Reading -/

/-- What a read meets outside the database. -/
structure Reading (F : Type) where
  /-- The decision of the policy resolver on reading an authority and a scope; a resolver that
  fails or answers something else denies. -/
  decision : (principalId : String) → (authority : String) → (scope : Value F) → PolicyDecision
  /-- What the checks of the stored rows meet. -/
  surroundings : Surroundings F

/-- What a read raises: `RegistryNotFound`, or an error of the registry or of the content store. -/
inductive GetError where
  | notFound
  | failed
deriving DecidableEq, Repr

/-- The principal may read the row: its scope, and the evidence that refers to it. -/
def authorizedToRead (reading : Reading F) (t : Tables) (principalId : String)
    (row : PublicationRow) : Bool :=
  match loads (F := F) row.scopeJcs with
  | none => false
  | some scope =>
    let decision := reading.decision principalId row.authority scope
    let policies := (t.evidence.filter fun e => e.publicationId = row.publicationId).map
      EvidenceRow.accessPolicy
    decision.allowed && policies.all fun policy => policy ∈ decision.allowedAccessPolicies

/-- `Registry.get` -/
def get (service : Service) (reading : Reading F) (t : Tables) (capsuleId version : String)
    (principalId : String) : Except GetError (PublishedCapsule F) := do
  let row ← orRaise (t.selectPublication capsuleId version) .notFound
  raiseIf (authorizedToRead reading t principalId row = false) .notFound
  let published ← orRaise (rowToPublished service.sha256 row) .failed
  (verifyExisting reading.surroundings t row published.capsule).mapError fun _ => .failed
  checkAll (fun record => if record.mode = "CAS" then do
      let mediaType ← orRaise (reading.surroundings.readVerified record.contentDigest) .failed
      raiseIf (mediaType ≠ record.mediaType) .failed
    else .ok ()) published.capsule.evidencePlane.records
  pure published

/-- The principal may read the version: it is stored, and its row may be read. -/
def readable (reading : Reading F) (t : Tables) (principalId capsuleId version : String) : Bool :=
  match t.selectPublication capsuleId version with
  | none => false
  | some row => authorizedToRead reading t principalId row

theorem readable_of_select {reading : Reading F} {t : Tables}
    {principalId capsuleId version : String} {row : PublicationRow}
    (h : t.selectPublication capsuleId version = some row) :
    readable reading t principalId capsuleId version =
      authorizedToRead reading t principalId row := by
  rw [readable, h]

theorem readable_of_select_none {reading : Reading F} {t : Tables}
    {principalId capsuleId version : String} (h : t.selectPublication capsuleId version = none) :
    readable reading t principalId capsuleId version = false := by
  rw [readable, h]

/-! ## Section 2: What a read tells -/

section Read

variable {service : Service} {reading : Reading F} {capsuleId version principalId : String}

/-- A read raises `RegistryNotFound` exactly for a version that the principal may not read, whether
it is stored or not. -/
theorem get_eq_notFound_iff {t : Tables} :
    get service reading t capsuleId version principalId = .error .notFound ↔
      readable reading t principalId capsuleId version = false := by
  unfold get readable
  cases hrow : t.selectPublication capsuleId version with
  | none => simp [orRaise]
  | some row =>
    simp only [Except.bind_eq_error, orRaise_eq_error, orRaise_eq_ok, raiseIf_eq_error,
      raiseIf_eq_ok, reduceCtorEq, false_or, Option.some.injEq, exists_eq_left', and_true,
      and_false]
    constructor
    · rintro (hdenied | ⟨_, _, published, _, hverify | ⟨_, _, hevidence | ⟨_, _, hpure⟩⟩⟩)
      · exact hdenied
      · -- every check behind the authorization raises an error of another kind
        cases hcheck : verifyExisting reading.surroundings t row published.capsule <;>
          simp [hcheck, Except.mapError] at hverify
      · obtain ⟨record, _, hraise⟩ := check_of_checkAll_eq_error hevidence
        split at hraise
        · rcases (Except.bind_eq_error _ _ _).mp hraise with hblob | ⟨_, _, hmedia⟩
          · exact absurd ((orRaise_eq_error _ _ _).mp hblob).2 (by decide)
          · exact absurd ((raiseIf_eq_error _ _ _).mp hmedia).2 (by decide)
        · exact absurd hraise (by simp)
      · exact absurd hpure (by simp [pure, Except.pure])
    · exact fun hdenied => Or.inl hdenied

/-- What a read returns is the reconstruction of the row of the version. -/
theorem row_of_get {t : Tables} {published : PublishedCapsule F}
    (h : get service reading t capsuleId version principalId = .ok published) :
    ∃ row, t.selectPublication capsuleId version = some row ∧
      rowToPublished service.sha256 row = some published := by
  simp only [get, Except.bind_eq_ok, orRaise_eq_ok, Except.pure_eq_ok] at h
  obtain ⟨row, hrow, _, _, published', hpublished, _, _, _, _, rfl⟩ := h
  exact ⟨row, hrow, hpublished⟩

/-- In a registry that was filled by publications, what is read under a version is a published
capsule of that version. -/
theorem version_of_get {calls : List (Call F)} {published : PublishedCapsule F}
    (h : get service reading (runRegistry service calls) capsuleId version principalId =
      .ok published) :
    published.capsule.controlManifest.capsuleId = capsuleId ∧
      published.capsule.controlManifest.version = version ∧
      published.registryStatus = "PUBLISHED" ∧
      published.capsule.controlManifest.lifecycle = .published := by
  obtain ⟨row, hselect, hread⟩ := row_of_get h
  have hfound : row.capsuleId = capsuleId ∧ row.version = version := by
    simpa using List.find?_some hselect
  have hrow := List.mem_of_find?_eq_some hselect
  obtain ⟨call, _, candidate, hmirrors⟩ := (kept_runRegistry calls).mirrored row hrow
  have hcolumns : row.capsuleId = candidate.controlManifest.capsuleId ∧
      row.version = candidate.controlManifest.version := by
    rw [hmirrors.row_eq]
    exact ⟨rfl, rfl⟩
  -- the row is the one of an admitted candidate, and what it is read back to is known
  rw [hmirrors.row_eq, rowToPublished_publicationRow
    (valid_of_revalidateCandidate hmirrors.admitted.revalidated) hmirrors.admitted.lifecycle
    hmirrors.admitted.digest] at hread
  split at hread
  · rw [← Option.some.inj hread]
    exact ⟨hcolumns.1.symm.trans hfound.1, hcolumns.2.symm.trans hfound.2, rfl,
      hmirrors.admitted.lifecycle⟩
  · exact absurd hread (by simp)

end Read

/-! ## Section 3: Blobs -/

/-- `SELECT p.*, ... FROM digest_grants AS g JOIN publications AS p ... WHERE g.digest = ?`, in the
order of the grants. -/
def Tables.selectGranted (t : Tables) (digest : String) : List (GrantRow × PublicationRow) :=
  (t.grants.filter fun grant => grant.digest = digest).flatMap fun grant =>
    (t.publications.filter fun row => row.publicationId = grant.publicationId).map fun row =>
      (grant, row)

/-- The record for which a grant lets a principal read a blob. A publication that cannot be
reconstructed or verified grants nothing. -/
def grantedRecord (service : Service) (reading : Reading F) (t : Tables) (digest : String)
    (principalId : String) (granted : GrantRow × PublicationRow) :
    Option (EvidenceRecord (Number F)) := do
  let published ← rowToPublished service.sha256 granted.2
  let _ ← (verifyExisting reading.surroundings t granted.2 published.capsule).toOption
  let decision := reading.decision principalId published.capsule.controlManifest.authority
    (scopeDict published.capsule)
  guard (decision.allowed = true ∧ granted.1.accessPolicy ∈ decision.allowedAccessPolicies)
  published.capsule.evidencePlane.records.find? fun record =>
    record.mode = "CAS" ∧ record.evidenceId = granted.1.evidenceId ∧ record.contentDigest = digest

/-- `Registry.can_read_blob` -/
def canReadBlob (service : Service) (reading : Reading F) (t : Tables) (digest : String)
    (principalId : String) : Except GetError Bool :=
  match (t.selectGranted digest).findSome? (grantedRecord service reading t digest principalId) with
  | none => .ok false
  | some record => do
    let mediaType ← orRaise (reading.surroundings.readVerified digest) .failed
    raiseIf (mediaType ≠ record.mediaType) .failed
    pure true

/-- `Registry.get_blob`, from a store with these blobs. -/
def getBlob (service : Service) (reading : Reading F) (t : Tables)
    (stored : String → Option (List UInt8)) (digest : String) (principalId : String) :
    Except GetError (List UInt8) := do
  let allowed ← canReadBlob service reading t digest principalId
  raiseIf (allowed = false) .failed
  orRaise (stored digest) .failed

/-- A registry that publications have filled, with the content store behind it. -/
structure OpenRegistry (F : Type) [FloatText F] where
  service : Service
  reading : Reading F
  /-- the publications -/
  calls : List (Call F)
  /-- `FilesystemCAS._read_verified`: the media type and the data of a blob -/
  stored : String → Option (String × List UInt8)
  /-- the reads of versions look at the same store -/
  stored_mediaType : ∀ digest,
    reading.surroundings.readVerified digest = (stored digest).map Prod.fst

namespace OpenRegistry

variable (R : OpenRegistry F)

def tables : Tables := runRegistry R.service R.calls

def get (capsuleId version principalId : String) : Except GetError (PublishedCapsule F) :=
  Registry.get R.service R.reading R.tables capsuleId version principalId

def getBlob (digest principalId : String) : Except GetError (List UInt8) :=
  Registry.getBlob R.service R.reading R.tables (fun d => (R.stored d).map Prod.snd) digest
    principalId

variable {R}

/-- What can be read has all its blobs in the store. -/
theorem stored_of_get {capsuleId version principalId : String} {published : PublishedCapsule F}
    (h : R.get capsuleId version principalId = .ok published)
    {record : EvidenceRecord (Number F)} (hrecord : record ∈ published.capsule.evidencePlane.records)
    (hmode : record.mode = "CAS") :
    ∃ data, R.stored record.contentDigest = some (record.mediaType, data) := by
  simp only [get, Registry.get, Except.bind_eq_ok, Except.pure_eq_ok] at h
  obtain ⟨_, _, _, _, _, _, _, _, _, hblobs, rfl⟩ := h
  have hread := (checkAll_eq_ok _ _).mp hblobs record hrecord
  rw [if_pos hmode] at hread
  simp only [Except.bind_eq_ok, orRaise_eq_ok, raiseIf_eq_ok, not_not] at hread
  obtain ⟨mediaType, hstored, hsame⟩ := hread
  -- the media type that was read is the one of the stored blob
  rw [R.stored_mediaType] at hstored
  obtain ⟨blob, hblob, rfl⟩ := Option.map_eq_some_iff.mp hstored
  exact ⟨blob.2, by rw [hblob, ← hsame]⟩

end OpenRegistry

end ContractCapsule.Registry
