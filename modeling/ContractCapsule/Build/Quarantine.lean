import ContractCapsule.Build.Promotion
import ContractCapsule.Library.Index
import ContractCapsule.Library.Run

/-!
# The Quarantine Store

`QuarantineStore` of `audit/quarantine.py`: four registries, of snapshots, of candidates, of
evidence bindings and of promoted atoms, and the calls that fill them. Anything may be registered
in any order and any number of times; `promote` joins the registries and lets an atom out.

What a call observes of its surroundings is a `Surroundings`: the files and the Git objects that a
snapshot is compared with, and the clock. Time stamps are strings; what `datetime.fromisoformat`
makes of them is a parameter, as is the HMAC of an approval.
-/

namespace ContractCapsule.Build

open Library Models

variable {host : Host}

/-! ## Section 1: Snapshots and their proofs -/

/-- `DETERMINISTIC_SOURCE_PROFILE` -/
def deterministicSourceProfile : String := "CCS-2.1-deterministic-source-v1"

/-- `DeterministicSourceProof`; `ours` says that its token is the one of this store. -/
structure DeterministicSourceProof where
  snapshotId : String
  contentDigest : String
  mode : SourceMode
  parserKind : ParserKind
  repository : String
  revision : String
  path : String
  repositoryRoot : String
  collectorProfile : String := deterministicSourceProfile
  ours : Bool
deriving DecidableEq, Repr

/-- A snapshot with the private fields that ingestion sets: whether its token is the one of this
store, and the proof of its source. -/
structure Captured (host : Host) where
  snapshot : SourceSnapshot host
  issued : Bool
  proof : Option DeterministicSourceProof
deriving DecidableEq

/-- What a call observes of its surroundings. -/
structure Surroundings where
  /-- the bytes at a path that names a regular file and no symbolic link -/
  regularFile : String → Option Bytes
  /-- `_git_show` -/
  gitShow : String → String → String → Option Bytes
  /-- `datetime.now(UTC)` -/
  now : ℕ

/-- `SourceSnapshot.assert_current` -/
def SourceSnapshot.assertCurrent (snapshot : SourceSnapshot host) (around : Surroundings) :
    Except String Unit :=
  if snapshot.mode = .externalImmutable then host.scanSecrets snapshot.content
  else do
    let path ← orRaise snapshot.path "source path is unavailable or not regular"
    let current ← orRaise (around.regularFile path) "source path is unavailable or not regular"
    raiseIf (host.digestBytes current ≠ snapshot.contentDigest ∨ current ≠ snapshot.content)
      "source drift detected"
    if snapshot.mode = .gitImmutable then do
      let root ← orRaise snapshot.repositoryRoot "verified repository root is required"
      let committed ← orRaise
        (around.gitShow root (snapshot.revision.getD "") snapshot.relativePath)
        "immutable Git source cannot be read locally"
      raiseIf (committed ≠ snapshot.content) "immutable Git source drift detected"
    else pure ()

/-- `has_deterministic_source_proof` -/
def Captured.hasDeterministicSourceProof (captured : Captured host) : Bool :=
  captured.proof.any fun proof =>
    proof.ours && proof.collectorProfile = deterministicSourceProfile &&
      proof.snapshotId = captured.snapshot.snapshotId &&
      proof.contentDigest = captured.snapshot.contentDigest &&
      (proof.mode = captured.snapshot.mode && captured.snapshot.mode = .gitImmutable) &&
      proof.parserKind = captured.snapshot.parserKind &&
      some proof.repository = captured.snapshot.repository &&
      some proof.revision = captured.snapshot.revision &&
      proof.path = captured.snapshot.relativePath &&
      some proof.repositoryRoot = captured.snapshot.repositoryRoot &&
      !captured.snapshot.generated

/-! ## Section 2: Approvals -/

/-- The decisions of an approval. -/
inductive Decision where
  | approve
  | reject
deriving DecidableEq, Repr

/-- `HumanApproval` -/
structure HumanApproval where
  approvalId : String
  candidateId : String
  approverId : String
  approvedAt : String
  decision : Decision
  candidateDigest : String
  evidenceDigests : List String
  expiresAt : Option String := none
  signature : String := ""
  issuer : String := "trusted-human-review"
deriving DecidableEq, Repr

/-- `signing_payload` -/
def HumanApproval.signingPayload (approval : HumanApproval) : Payload :=
  [("approval_id", .str approval.approvalId), ("candidate_id", .str approval.candidateId),
    ("approver_id", .str approval.approverId), ("approved_at", .str approval.approvedAt),
    ("decision", .str (match approval.decision with | .approve => "approve" | .reject => "reject")),
    ("candidate_digest", .str approval.candidateDigest),
    ("evidence_digests", .strs approval.evidenceDigests),
    ("expires_at", .ofOption approval.expiresAt), ("issuer", .str approval.issuer)]

/-- The verifier of a trust root: its approvers with their secrets, and its issuer. -/
structure TrustRoot where
  secrets : List (String × Bytes)
  issuer : String

/-- What a store is composed with: its trust root, if any, the reading of time stamps, in
microseconds, and the hexadecimal HMAC-SHA-256 of a payload under a secret. -/
structure Composition where
  trustRoot : Option TrustRoot
  parseTimestamp : String → Option ℕ
  hmac : Bytes → Payload → String

/-- `_HmacApprovalVerifier.verify`, and `_DenyAllApprovalVerifier` where there is no root. -/
def Composition.verify (composition : Composition) (approval : HumanApproval) : Bool :=
  composition.trustRoot.any fun root =>
    match root.secrets.lookup approval.approverId with
    | none => false
    | some secret =>
      approval.issuer = root.issuer &&
        approval.signature = "hmac-sha256:" ++ composition.hmac secret approval.signingPayload

/-- `_parse_timestamp` -/
def Composition.instant (composition : Composition) (value : String) : Except String ℕ :=
  orRaise (composition.parseTimestamp value) "approval timestamp is invalid"

/-- `_verify_approval_identity` -/
def verifyApprovalIdentity (host : Host) (candidateId : String) (candidate : CandidateAtom)
    (bindings : List EvidenceBinding) (approval : HumanApproval) : Except String Unit := do
  raiseIf (approval.candidateId ≠ candidateId) "approval candidate mismatch"
  raiseIf (approval.decision ≠ .approve) "approval did not approve candidate"
  let candidateDigest ← candidateDigestFor host candidate
  raiseIf (approval.candidateDigest ≠ candidateDigest) "approval candidate digest mismatch"
  let expectedEvidence ← bindings.mapM (bindingDigestFor host)
  raiseIf (approval.evidenceDigests ≠ expectedEvidence) "approval evidence digest mismatch"

/-- The part of `_verify_approval_time` about the expiry. -/
def Composition.verifyExpiry (composition : Composition) (now approvedAt : ℕ) :
    Option String → Except String Unit
  | none => pure ()
  | some text => do
    let expiresAt ← composition.instant text
    raiseIf (expiresAt ≤ now) "approval is expired"
    raiseIf (expiresAt ≤ approvedAt) "approval expiry precedes approval time"

/-- `_verify_approval_time` -/
def Composition.verifyApprovalTime (composition : Composition) (now : ℕ)
    (snapshot : SourceSnapshot host) (approval : HumanApproval) : Except String Unit := do
  let approvedAt ← composition.instant approval.approvedAt
  raiseIf (now < approvedAt) "approval timestamp is in the future"
  composition.verifyExpiry now approvedAt approval.expiresAt
  let capturedAt ← composition.instant snapshot.capturedAt
  raiseIf (approvedAt < capturedAt) "approval predates the bound source snapshot"

/-- `_verify_approval_trust` -/
def Composition.verifyApprovalTrust (composition : Composition) (snapshot : SourceSnapshot host)
    (approval : HumanApproval) : Except String Unit := do
  raiseIf (approval.approverId = snapshot.principalId)
    "approval must come from an external trusted principal"
  raiseIf (composition.verify approval = false) "approval is not from a trusted authority"

/-- `_verify_approval` -/
def Composition.verifyApproval (composition : Composition) (now : ℕ) (candidateId : String)
    (candidate : CandidateAtom) (bindings : List EvidenceBinding) (snapshot : SourceSnapshot host)
    (approval : HumanApproval) : Except String Unit := do
  verifyApprovalIdentity host candidateId candidate bindings approval
  composition.verifyApprovalTime now snapshot approval
  composition.verifyApprovalTrust snapshot approval

/-! ## Section 3: Bindings -/

/-- `_verify_binding_locator` -/
def verifyBindingLocator (snapshot : SourceSnapshot host) (binding : EvidenceBinding) :
    Except String Unit :=
  match binding.mode with
  | .gitImmutable =>
    raiseIf (binding.repository ≠ snapshot.repository ∨ binding.revision ≠ snapshot.revision)
      "evidence binding immutable Git locator mismatch"
  | .externalImmutable =>
    raiseIf (binding.uri ≠ snapshot.uri) "evidence binding external locator mismatch"
  | .cas => pure ()

/-- `_verify_binding_identity` -/
def verifyBindingIdentity (candidate : CandidateAtom) (snapshot : SourceSnapshot host)
    (binding : EvidenceBinding) : Except String Unit := do
  raiseIf (binding.candidateId ≠ candidate.candidateId) "evidence binding candidate mismatch"
  raiseIf (binding.snapshotId ≠ snapshot.snapshotId) "evidence binding snapshot mismatch"
  raiseIf (binding.mode ≠ snapshot.mode) "evidence binding mode mismatch"
  raiseIf (binding.contentDigest ≠ snapshot.contentDigest) "evidence binding content digest mismatch"
  raiseIf (binding.path ≠ some snapshot.relativePath) "evidence binding path mismatch"
  raiseIf (binding.symbolOrHeading ≠ some candidate.symbolOrHeading)
    "evidence binding symbol mismatch"
  raiseIf (binding.startLine ≠ some candidate.startLine ∨ binding.endLine ≠ some candidate.endLine)
    "evidence binding line span mismatch"
  verifyBindingLocator snapshot binding

/-- `_verify_binding` -/
def verifyBinding (candidate : CandidateAtom) (snapshot : SourceSnapshot host)
    (binding : EvidenceBinding) : Except String Unit := do
  verifyBindingIdentity candidate snapshot binding
  verifyBindingBytes candidate snapshot binding

/-- `ValidatedAtom`; its status is always `validated` and its trust level `T1`. -/
structure ValidatedAtom where
  candidateId : String
  atomId : String
  kind : AtomKind
  statement : Text
  modality : Modality
  scope : List String
  sourceSnapshotId : String
  startLine : ℕ
  endLine : ℕ
  symbolOrHeading : Text
  compressionClass : String
  evidenceBindings : List EvidenceBinding
  approval : HumanApproval
  sourceTrustLevel : TrustLevel := .t2
  generated : Bool := false
deriving DecidableEq

/-- The atom that `promote` makes of a candidate. -/
def CandidateAtom.validated (candidate : CandidateAtom) (bindings : List EvidenceBinding)
    (approval : HumanApproval) : ValidatedAtom where
  candidateId := candidate.candidateId
  atomId := candidate.atomId
  kind := candidate.kind
  statement := candidate.statement
  modality := candidate.modality
  scope := candidate.scope
  sourceSnapshotId := candidate.sourceSnapshotId
  startLine := candidate.startLine
  endLine := candidate.endLine
  symbolOrHeading := candidate.symbolOrHeading
  compressionClass := candidate.compressionClass
  evidenceBindings := bindings
  approval := approval
  sourceTrustLevel := candidate.trustLevel
  generated := candidate.generated

/-! ## Section 4: The store -/

/-- The four registries; each is a dictionary. -/
structure QuarantineStore (host : Host) where
  snapshots : List (String × Captured host)
  candidates : List (String × CandidateAtom)
  bindings : List (String × List EvidenceBinding)
  promoted : List (String × ValidatedAtom)

/-- A new store. -/
def QuarantineStore.empty : QuarantineStore host := ⟨[], [], [], []⟩

/-- `trust_fields`: a snapshot id that is captured again is captured with these unchanged. -/
def sameTrustFields (existing snapshot : SourceSnapshot host) : Bool :=
  existing.contentDigest = snapshot.contentDigest && existing.mode = snapshot.mode &&
    existing.mediaType = snapshot.mediaType && existing.principalId = snapshot.principalId &&
    existing.relativePath = snapshot.relativePath && existing.repository = snapshot.repository &&
    existing.revision = snapshot.revision && existing.uri = snapshot.uri &&
    existing.source = snapshot.source &&
    existing.verificationMethod = snapshot.verificationMethod &&
    existing.accessPolicy = snapshot.accessPolicy &&
    existing.parserKind = snapshot.parserKind && existing.generated = snapshot.generated

/-- `has_bound_candidates` -/
def QuarantineStore.hasBoundCandidates (store : QuarantineStore host) (snapshotId : String) : Bool :=
  store.candidates.any fun entry => entry.2.sourceSnapshotId = snapshotId

/-- What `register_snapshot` asks of a snapshot whose id is in use. -/
def QuarantineStore.checkReplaced (store : QuarantineStore host) (snapshot : SourceSnapshot host) :
    Option (Captured host) → Except String Unit
  | none => pure ()
  | some existing => do
    raiseIf (sameTrustFields existing.snapshot snapshot = false) "snapshot identity collision"
    raiseIf (store.hasBoundCandidates snapshot.snapshotId = true ∧
      (existing.snapshot.path ≠ snapshot.path ∨
        existing.snapshot.repositoryRoot ≠ snapshot.repositoryRoot ∨
        existing.snapshot.capturedAt ≠ snapshot.capturedAt))
      "bound snapshot cannot be replaced by a new capture"

/-- `register_snapshot` -/
def QuarantineStore.registerSnapshot (store : QuarantineStore host) (captured : Captured host) :
    Except String (QuarantineStore host) := do
  let snapshot := captured.snapshot
  raiseIf (captured.issued = false) "snapshot was not created by the ingestion boundary"
  raiseIf (captured.proof.isSome = true ∧ captured.hasDeterministicSourceProof = false)
    "deterministic source snapshot lacks a trusted parser proof"
  store.checkReplaced snapshot (store.snapshots.lookup snapshot.snapshotId)
  return { store with
    snapshots := assign Prod.fst (snapshot.snapshotId, captured) store.snapshots }

/-- The span that identifies a candidate within its snapshot. -/
def CandidateAtom.span (candidate : CandidateAtom) : ExtractedSpan :=
  ⟨candidate.statement, candidate.kind, candidate.startLine, candidate.endLine,
    candidate.symbolOrHeading⟩

/-- `register_candidate`; `issued` says that the candidate has the token of this store. -/
def QuarantineStore.registerCandidate (store : QuarantineStore host) (candidate : CandidateAtom)
    (issued : Bool) : Except String (QuarantineStore host) := do
  raiseIf (issued = false) "candidate was not created by the deterministic extractor"
  let captured ← orRaise (store.snapshots.lookup candidate.sourceSnapshotId)
    "candidate references an unknown snapshot"
  let snapshot := captured.snapshot
  let digest ← host.digestOf (candidateIdentity snapshot.snapshotId candidate.span)
  raiseIf (candidate.candidateId ≠ identifier "candidate-" digest)
    "candidate identity is not deterministic"
  raiseIf (candidate.atomId ≠ identifier "atom-" digest)
    "candidate atom identity is not deterministic"
  raiseIf (candidate.scope ≠ ["path:" ++ snapshot.relativePath])
    "candidate scope is not source-bound"
  let expectedTrust : TrustLevel :=
    if captured.hasDeterministicSourceProof && !snapshot.generated then .t2 else .t3
  raiseIf (candidate.generated ≠ snapshot.generated ∨ candidate.trustLevel ≠ expectedTrust)
    "candidate trust classification is inconsistent"
  raiseIf ((store.candidates.lookup candidate.candidateId).any (· ≠ candidate) = true)
    "candidate identity collision"
  return { store with
    candidates := assign Prod.fst (candidate.candidateId, candidate) store.candidates }

/-- `register_binding` -/
def QuarantineStore.registerBinding (store : QuarantineStore host) (binding : EvidenceBinding) :
    Except String (QuarantineStore host) := do
  let candidate ← orRaise (store.candidates.lookup binding.candidateId)
    "evidence binding references unknown candidate"
  raiseIf (candidate.sourceSnapshotId ≠ binding.snapshotId) "evidence binding snapshot mismatch"
  let current := (store.bindings.lookup binding.candidateId).getD []
  return { store with
    bindings := assign Prod.fst
      (binding.candidateId, if binding ∈ current then current else current ++ [binding])
      store.bindings }

/-- `_promotion_inputs` -/
def QuarantineStore.promotionInputs (store : QuarantineStore host) (candidateId : String) :
    Except String (CandidateAtom × List EvidenceBinding × SourceSnapshot host) := do
  let candidate ← orRaise (store.candidates.lookup candidateId) "candidate is not in quarantine"
  raiseIf ((store.promoted.lookup candidateId).isSome = true) "candidate has already been promoted"
  let bindings := (store.bindings.lookup candidateId).getD []
  raiseIf (bindings = []) "evidence binding is required before promotion"
  let captured ← orRaise (store.snapshots.lookup candidate.sourceSnapshotId)
    "source snapshot is unavailable"
  return (candidate, bindings, captured.snapshot)

/-- `_verify_snapshot` -/
def verifySnapshot (around : Surroundings) (snapshot : SourceSnapshot host) : Except String Unit := do
  (snapshot.assertCurrent around).mapError fun _ => "source drift detected"
  host.scanSecrets snapshot.content

/-- `promote` -/
def QuarantineStore.promote (composition : Composition) (around : Surroundings)
    (store : QuarantineStore host) (candidateId : String) (approval : HumanApproval) :
    Except String (ValidatedAtom × QuarantineStore host) := do
  let (candidate, bindings, snapshot) ← store.promotionInputs candidateId
  verifySnapshot around snapshot
  checkAll (verifyBinding candidate snapshot) bindings
  composition.verifyApproval around.now candidateId candidate bindings snapshot approval
  let validated := candidate.validated bindings approval
  return (validated, { store with
    promoted := assign Prod.fst (candidateId, validated) store.promoted })

/-! ## Section 5: Runs -/

/-- The calls that change a store. -/
inductive QuarantineCall (host : Host) where
  | registerSnapshot (captured : Captured host)
  | registerCandidate (candidate : CandidateAtom) (issued : Bool)
  | registerBinding (binding : EvidenceBinding)
  | promote (around : Surroundings) (candidateId : String) (approval : HumanApproval)

/-- What a call that returns gives back, with the store it leaves. -/
def QuarantineStore.run (composition : Composition) (store : QuarantineStore host) :
    QuarantineCall host → Except String (Option ValidatedAtom × QuarantineStore host)
  | .registerSnapshot captured => do return (none, ← store.registerSnapshot captured)
  | .registerCandidate candidate issued => do return (none, ← store.registerCandidate candidate issued)
  | .registerBinding binding => do return (none, ← store.registerBinding binding)
  | .promote around candidateId approval => do
    let (validated, store') ← store.promote composition around candidateId approval
    return (some validated, store')

/-- One call under the lock of the store; a call that raises changes nothing. -/
def QuarantineStore.step (composition : Composition) (store : QuarantineStore host)
    (call : QuarantineCall host) : Except String (Option ValidatedAtom) × QuarantineStore host :=
  match store.run composition call with
  | .ok (answer, store') => (.ok answer, store')
  | .error e => (.error e, store)

/-- The store after a sequence of calls. -/
def runQuarantine (composition : Composition) (calls : List (QuarantineCall host)) :
    QuarantineStore host :=
  final (QuarantineStore.step composition) QuarantineStore.empty calls

end ContractCapsule.Build
