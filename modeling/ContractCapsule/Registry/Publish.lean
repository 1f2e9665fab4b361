import ContractCapsule.Library.Run
import ContractCapsule.Library.Table
import ContractCapsule.Library.Transaction
import ContractCapsule.Registry.RoundTrip

/-!
# The Registry as a Machine

`Registry.publish` over the four tables of the registry database. What a call meets outside the
database (the policy resolver, the content store, the clock, the trust proofs and the faults of
the database itself) is part of the call and arbitrary. A call is one transaction: whatever it
raises, at whatever statement, the tables are left as they were.
-/

namespace ContractCapsule.Registry

open Library Models
open Enumeration (wire)

/-! ## Section 1: Tables -/

/-- The registry database. -/
structure Tables where
  publications : List PublicationRow
  evidence : List EvidenceRow
  grants : List GrantRow
  attestations : List AttestationRow
deriving DecidableEq

/-- The database `_initialize` creates. -/
def Tables.empty : Tables := ⟨[], [], [], []⟩

namespace Tables

/-- `SELECT * FROM publications WHERE capsule_id = ? AND version = ?` -/
def selectPublication (t : Tables) (capsuleId version : String) : Option PublicationRow :=
  t.publications.find? fun row => row.capsuleId = capsuleId ∧ row.version = version

/-- `SELECT ... FROM evidence_references WHERE publication_id = ? ORDER BY ordinal` -/
def selectEvidence (t : Tables) (publicationId : ℕ) : List EvidenceRow :=
  (t.evidence.filter fun row => row.publicationId = publicationId).insertionSort
    fun a b => a.ordinal ≤ b.ordinal

/-- The order of two grants by evidence and digest. -/
def grantLe (a b : GrantRow) : Prop :=
  codePoints a.evidenceId < codePoints b.evidenceId ∨
    a.evidenceId = b.evidenceId ∧ codePoints a.digest ≤ codePoints b.digest

instance (a b : GrantRow) : Decidable (grantLe a b) :=
  inferInstanceAs (Decidable (_ ∨ _ ∧ _))

/-- `SELECT ... FROM digest_grants WHERE publication_id = ? ORDER BY evidence_id, digest` -/
def selectGrants (t : Tables) (publicationId : ℕ) : List GrantRow :=
  (t.grants.filter fun row => row.publicationId = publicationId).insertionSort grantLe

/-- `SELECT ... FROM m3_trust_attestations WHERE publication_id = ?` -/
def selectAttestation (t : Tables) (publicationId : ℕ) : Option AttestationRow :=
  t.attestations.find? fun row => row.publicationId = publicationId

/-- The identifier of the next row of `publications`. -/
def nextId (t : Tables) : ℕ := (t.publications.map PublicationRow.publicationId).foldr max 0 + 1

/-- Insert rows one after another; a row whose key is in use is a conflict. -/
def insertRows {ρ κ : Type} [DecidableEq κ] (key : ρ → κ) (rows : List ρ) (table : List ρ) :
    Option (List ρ) :=
  rows.foldlM (fun table row => insertRow key row table) table

end Tables

/-! ## Section 2: What a call meets -/

/-- The errors of a publication, with their messages. -/
inductive PublishError where
  | integrity (message : String)
  | authorization (message : String)
  | versionConflict (message : String)
  | publicationConflict (message : String)
  | blob
  | database
deriving DecidableEq, Repr

/-- `PolicyDecision` -/
structure PolicyDecision where
  allowed : Bool
  allowedAccessPolicies : List String

/-- A publication permit: the payload its issuer signed, and the signature. -/
structure Permit (F : Type) where
  payload : Members (Number F)
  signature : String

/-- The statements of a publication, at each of which the database can fail. -/
inductive Statement where
  | begin
  | lookup
  | insertPublication
  | insertEvidence
  | insertGrants
  | insertAttestation
  | readBack
  | commit
deriving DecidableEq, Repr

/-- What one call meets outside the database. -/
structure Surroundings (F : Type) where
  /-- The decisions of the policy resolver, before and inside the transaction. -/
  decision : Bool → PolicyDecision
  /-- The media type of a stored blob that was read and verified. -/
  readVerified : String → Option String
  /-- Whether the checks of the trust gate admit a capsule with a permit. -/
  trustGate : Capsule (Number F) → Permit F → Bool
  /-- Whether a stored attestation passes its checks against its publication. -/
  attestationHolds : PublicationRow → AttestationRow → Capsule (Number F) → Bool
  /-- The timestamp of the clock. -/
  now : String
  /-- The statements that fail. -/
  fails : Statement → Bool

/-- One call of `publish`. -/
structure Call (F : Type) where
  capsule : Capsule (Number F)
  principalId : String
  permit : Option (Permit F)
  surroundings : Surroundings F

/-- What a registry is composed of: its digest, and its trust root with its policy version. -/
structure Service where
  sha256 : List Char → String
  trustRoot : Option (String × String)

variable {F : Type} [FloatText F]

abbrev Sql (α : Type) := Tx Tables PublishError α

/-! ## Section 3: The rows of a capsule -/

/-- The rows that `_insert_evidence` inserts. -/
def evidenceRows (publicationId : ℕ) (capsule : Capsule (Number F)) : List EvidenceRow :=
  capsule.evidencePlane.records.mapIdx fun ordinal record =>
    { publicationId := publicationId
      ordinal := ordinal
      evidenceId := record.evidenceId
      mode := record.mode
      contentDigest := record.contentDigest
      mediaType := record.mediaType
      accessPolicy := record.accessPolicy
      immutableRecordJcs := jcsText (Canonical.evidenceRecord record) }

/-- The rows that `_insert_grants` inserts. -/
def grantRows (publicationId : ℕ) (capsule : Capsule (Number F)) : List GrantRow :=
  (capsule.evidencePlane.records.filter fun record => record.mode = "CAS").map fun record =>
    { publicationId := publicationId
      evidenceId := record.evidenceId
      digest := record.contentDigest
      accessPolicy := record.accessPolicy }

/-- The row that `_insert_m3_attestation` inserts. -/
def attestationRow (service : Service) (publicationId : ℕ) (principalId : String)
    (permit : Permit F) : Except PublishError AttestationRow := do
  let (rootId, policyVersion) ← orRaise service.trustRoot
    (.integrity "M3 trust root metadata is unavailable")
  raiseIf (permit.signature = "") (.integrity "M3 trust permit signature is missing")
  match permit.payload.lookup "source_subjects" with
  | some (.array subjects) =>
    .ok {
      publicationId := publicationId
      policyVersion := policyVersion
      trustRootId := rootId
      principalId := principalId
      permitPayloadJcs := jcsText (.object permit.payload)
      permitSignature := permit.signature
      sourceSubjectsJcs := jcsText (.array subjects) }
  | _ => .error (.integrity "M3 source subjects are malformed")

/-! ## Section 4: Publication -/

/-- `Registry._authorize_publish` -/
def authorizePublish (decision : PolicyDecision) (capsule : Capsule (Number F)) :
    Except PublishError Unit :=
  raiseIf (decision.allowed = false ∨ ∃ record ∈ capsule.evidencePlane.records,
      record.accessPolicy ∉ decision.allowedAccessPolicies)
    (.authorization "publication is not authorized")

/-- `Registry._validate_candidate` -/
def validateCandidate (service : Service) (surroundings : Surroundings F)
    (capsule : Capsule (Number F)) : Except PublishError Unit := do
  raiseIf (capsule.controlManifest.lifecycle ≠ .published)
    (.integrity "publish requires PUBLISHED lifecycle")
  raiseIf (canonicalDigest service.sha256 capsule ≠ capsule.controlManifest.contentDigest)
    (.integrity "candidate content digest does not match core")
  checkAll (fun record => if record.mode = "CAS" then do
      let mediaType ← orRaise (surroundings.readVerified record.contentDigest) .blob
      raiseIf (mediaType ≠ record.mediaType) (.integrity "CAS evidence media type mismatch")
    else .ok ()) capsule.evidencePlane.records

/-- `Registry._validate_m3_publication`: the permit whose payload was admitted, when the capsule
needs one. -/
def validateM3Publication (surroundings : Surroundings F) (capsule : Capsule (Number F))
    (permit : Option (Permit F)) : Except PublishError (Option (Permit F)) :=
  if requiresM3Gate capsule then
    match permit with
    | none => .error (.integrity "M3 trust proof is required")
    | some permit =>
      if surroundings.trustGate capsule permit then .ok (some permit)
      else .error (.integrity "M3 trust proof is unavailable")
  else .ok none

/-- `Registry._verify_m3_attestation` -/
def verifyM3Attestation (surroundings : Surroundings F) (t : Tables) (row : PublicationRow)
    (capsule : Capsule (Number F)) : Except PublishError Unit :=
  if requiresM3Gate capsule then
    match t.selectAttestation row.publicationId with
    | none => raiseIf (isM3Capsule capsule = true) (.integrity "M3 trust attestation is missing")
    | some attestation =>
      raiseIf (surroundings.attestationHolds row attestation capsule = false)
        (.integrity "M3 trust attestation signature is invalid")
  else .ok ()

/-- `Registry._verify_m3_replay` -/
def verifyM3Replay (t : Tables) (row : PublicationRow) (permit : Permit F) :
    Except PublishError Unit := do
  let attestation ← orRaise (t.selectAttestation row.publicationId)
    (.integrity "M3 trust attestation is missing")
  raiseIf (attestation.permitPayloadJcs ≠ jcsText (.object permit.payload) ∨
      attestation.permitSignature ≠ permit.signature)
    (.publicationConflict "M3 replay differs in immutable trust proof")

/-- `Registry._verify_existing` -/
def verifyExisting (surroundings : Surroundings F) (t : Tables) (row : PublicationRow)
    (capsule : Capsule (Number F)) : Except PublishError Unit := do
  let expected := publicationRow row.publicationId capsule row.publishedAt
  raiseIf (row.contentDigest ≠ expected.contentDigest ∨ row.lifecycle ≠ expected.lifecycle ∨
      row.authority ≠ expected.authority ∨ row.scopeJcs ≠ expected.scopeJcs ∨
      row.immutableRecordJcs ≠ expected.immutableRecordJcs ∨
      row.detachedSignatureJcs ≠ expected.detachedSignatureJcs)
    (.publicationConflict "immutable publication fields differ")
  raiseIf (t.selectEvidence row.publicationId ≠ evidenceRows row.publicationId capsule)
    (.integrity "stored evidence references are incomplete")
  raiseIf (t.selectGrants row.publicationId ≠
      (grantRows row.publicationId capsule).insertionSort Tables.grantLe)
    (.integrity "stored digest grants are incomplete")
  verifyM3Attestation surroundings t row capsule

/-- A statement, at which the database can fail. -/
def statement (surroundings : Surroundings F) (s : Statement) : Except PublishError Unit :=
  raiseIf (surroundings.fails s = true) .database

/-- The end of every publication: the row is read back and the transaction commits. -/
def readBack (service : Service) (surroundings : Surroundings F) (row : PublicationRow) :
    Except PublishError (PublishedCapsule F) := do
  let published ← orRaise (rowToPublished service.sha256 row)
    (.integrity "stored Capsule cannot be reconstructed")
  statement surroundings .commit
  return published

/-- The branches of `publish` for a version that is stored already. A capsule that carries no
trust marker and is published without a permit passes by the trust gate. -/
def replay (service : Service) (call : Call F) (candidate : Capsule (Number F))
    (row : PublicationRow) : Sql (PublishedCapsule F) := do
  let admitted ← check
    (if call.permit.isNone = true ∧ isM3Capsule candidate = false then .ok none
      else validateM3Publication call.surroundings candidate call.permit)
  check (raiseIf (row.contentDigest ≠ candidate.controlManifest.contentDigest)
    (.versionConflict "capsule ID and version already have another digest"))
  query fun t => verifyExisting call.surroundings t row candidate
  query fun t => match admitted with
    | none => .ok ()
    | some permit => verifyM3Replay t row permit
  check (readBack service call.surroundings row)

/-- `INSERT INTO publications` -/
def insertPublication (row : PublicationRow) : Sql Unit := do
  let rows ← query fun t =>
    orRaise (insertRow (fun r => (r.capsuleId, r.version)) row t.publications) .database
  write fun t => { t with publications := rows }

/-- `Registry._insert_evidence` -/
def insertEvidence (rows : List EvidenceRow) : Sql Unit := do
  let _ ← query fun t =>
    orRaise (Tables.insertRows (fun r => (r.publicationId, r.ordinal)) rows t.evidence) .database
  let table ← query fun t =>
    orRaise (Tables.insertRows (fun r => (r.publicationId, r.evidenceId)) rows t.evidence) .database
  write fun t => { t with evidence := table }

/-- `Registry._insert_grants` -/
def insertGrants (rows : List GrantRow) : Sql Unit := do
  let table ← query fun t => orRaise
    (Tables.insertRows (fun r => (r.publicationId, r.evidenceId, r.digest)) rows t.grants) .database
  write fun t => { t with grants := table }

/-- `Registry._insert_m3_attestation` -/
def insertAttestation (row : AttestationRow) : Sql Unit := do
  let table ← query fun t =>
    orRaise (insertRow AttestationRow.publicationId row t.attestations) .database
  write fun t => { t with attestations := table }

/-- The branch of `publish` that inserts a new version. -/
def insertNew (service : Service) (call : Call F) (candidate : Capsule (Number F)) :
    Sql (PublishedCapsule F) := do
  let admitted ← check (validateM3Publication call.surroundings candidate call.permit)
  check (statement call.surroundings .insertPublication)
  let publicationId ← select Tables.nextId
  let row := publicationRow publicationId candidate call.surroundings.now
  insertPublication row
  check (statement call.surroundings .insertEvidence)
  insertEvidence (evidenceRows publicationId candidate)
  check (statement call.surroundings .insertGrants)
  insertGrants (grantRows publicationId candidate)
  match admitted with
  | none => pure ()
  | some permit =>
    check (statement call.surroundings .insertAttestation)
    let attestation ← check (attestationRow service publicationId call.principalId permit)
    insertAttestation attestation
  check (statement call.surroundings .readBack)
  query fun t => verifyExisting call.surroundings t row candidate
  check (readBack service call.surroundings row)

/-- `Registry.publish` -/
def publish (service : Service) (call : Call F) : Sql (PublishedCapsule F) := do
  let candidate ← check
    (orRaise (revalidateCandidate call.capsule) (.integrity "candidate model validation failed"))
  check (authorizePublish (call.surroundings.decision false) candidate)
  check (statement call.surroundings .begin)
  check (authorizePublish (call.surroundings.decision true) candidate)
  check (validateCandidate service call.surroundings candidate)
  check (statement call.surroundings .lookup)
  let row ← select fun t =>
    t.selectPublication candidate.controlManifest.capsuleId candidate.controlManifest.version
  match row with
  | some row => replay service call candidate row
  | none => insertNew service call candidate

/-- One call of the registry: a transaction over its tables. -/
def execute (service : Service) (t : Tables) (call : Call F) :
    Except PublishError (PublishedCapsule F) × Tables :=
  transaction (publish service call) t

/-- The tables after a sequence of calls on an empty registry. -/
def runRegistry (service : Service) (calls : List (Call F)) : Tables :=
  final (execute service) Tables.empty calls

/-- A publication that raises leaves every table as it was. -/
theorem execute_error {service : Service} {t : Tables} {call : Call F} {e : PublishError}
    (h : (execute service t call).1 = .error e) : (execute service t call).2 = t :=
  transaction_error _ _ _ h

end ContractCapsule.Registry
