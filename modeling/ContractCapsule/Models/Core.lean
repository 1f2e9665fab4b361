import ContractCapsule.Models.Base

/-!
# The Seven Immutable Core Modules

The models of `models/core.py`, field by field, over the type `ν` of the numbers that occur
in them: a capsule of the program has numbers of type `Number F`, and `byValue` is the same
capsule with every number replaced by what it is worth and every mapping in key order.

`valid` gathers the validators of a model, its field constraints first and its own
validators after them.
-/

namespace ContractCapsule.Models

open Library

/-! ## Section 1: Enumerations -/

/-- A type of string literals. -/
class Enumeration (α : Type) where
  values : List α
  wire : α → String
  complete : ∀ a, a ∈ values
  injective : ∀ a b, wire a = wire b → a = b

open Enumeration (wire)

inductive SpecVersion where
  | ccs21
deriving DecidableEq, Repr

instance : Enumeration SpecVersion where
  values := [.ccs21]
  wire | .ccs21 => "CCS-2.1"
  complete := by rintro ⟨⟩; decide
  injective := by rintro ⟨⟩ ⟨⟩ _; rfl

inductive CanonicalProfile where
  | canonicalV1
deriving DecidableEq, Repr

instance : Enumeration CanonicalProfile where
  values := [.canonicalV1]
  wire | .canonicalV1 => "CCS-2.1-canonical-v1"
  complete := by rintro ⟨⟩; decide
  injective := by rintro ⟨⟩ ⟨⟩ _; rfl

inductive Sensitivity where
  | public_
  | internal
  | confidential
  | restricted
deriving DecidableEq, Repr

instance : Enumeration Sensitivity where
  values := [.public_, .internal, .confidential, .restricted]
  wire
    | .public_ => "public"
    | .internal => "internal"
    | .confidential => "confidential"
    | .restricted => "restricted"
  complete := by rintro ⟨⟩ <;> decide
  injective := by rintro ⟨⟩ ⟨⟩ <;> simp

inductive Lifecycle where
  | draft
  | validated
  | published
  | active
  | deprecated
  | revoked
deriving DecidableEq, Repr

instance : Enumeration Lifecycle where
  values := [.draft, .validated, .published, .active, .deprecated, .revoked]
  wire
    | .draft => "DRAFT"
    | .validated => "VALIDATED"
    | .published => "PUBLISHED"
    | .active => "ACTIVE"
    | .deprecated => "DEPRECATED"
    | .revoked => "REVOKED"
  complete := by rintro ⟨⟩ <;> decide
  injective := by rintro ⟨⟩ ⟨⟩ <;> simp

inductive AtomKind where
  | policy
  | invariant
  | fact
  | decision
  | procedure
  | interface
  | toolContract
  | example
  | episodicObservation
deriving DecidableEq, Repr

instance : Enumeration AtomKind where
  values := [.policy, .invariant, .fact, .decision, .procedure, .interface, .toolContract,
    .example, .episodicObservation]
  wire
    | .policy => "policy"
    | .invariant => "invariant"
    | .fact => "fact"
    | .decision => "decision"
    | .procedure => "procedure"
    | .interface => "interface"
    | .toolContract => "tool_contract"
    | .example => "example"
    | .episodicObservation => "episodic_observation"
  complete := by rintro ⟨⟩ <;> decide
  injective := by rintro ⟨⟩ ⟨⟩ <;> simp

inductive Modality where
  | must
  | should
  | may
  | informative
deriving DecidableEq, Repr

instance : Enumeration Modality where
  values := [.must, .should, .may, .informative]
  wire
    | .must => "MUST"
    | .should => "SHOULD"
    | .may => "MAY"
    | .informative => "INFORMATIVE"
  complete := by rintro ⟨⟩ <;> decide
  injective := by rintro ⟨⟩ ⟨⟩ <;> simp

inductive AtomStatus where
  | candidate
  | validated
  | deprecated
  | revoked
deriving DecidableEq, Repr

instance : Enumeration AtomStatus where
  values := [.candidate, .validated, .deprecated, .revoked]
  wire
    | .candidate => "candidate"
    | .validated => "validated"
    | .deprecated => "deprecated"
    | .revoked => "revoked"
  complete := by rintro ⟨⟩ <;> decide
  injective := by rintro ⟨⟩ ⟨⟩ <;> simp

inductive CompressionClass where
  | p0Exact
  | p1Structured
  | p2Evidence
  | p3Summary
  | p4Transient
deriving DecidableEq, Repr

instance : Enumeration CompressionClass where
  values := [.p0Exact, .p1Structured, .p2Evidence, .p3Summary, .p4Transient]
  wire
    | .p0Exact => "P0_EXACT"
    | .p1Structured => "P1_STRUCTURED"
    | .p2Evidence => "P2_EVIDENCE"
    | .p3Summary => "P3_SUMMARY"
    | .p4Transient => "P4_TRANSIENT"
  complete := by rintro ⟨⟩ <;> decide
  injective := by rintro ⟨⟩ ⟨⟩ <;> simp

inductive EvidenceValidation where
  | verified
  | stale
  | unavailable
  | revoked
deriving DecidableEq, Repr

instance : Enumeration EvidenceValidation where
  values := [.verified, .stale, .unavailable, .revoked]
  wire
    | .verified => "verified"
    | .stale => "stale"
    | .unavailable => "unavailable"
    | .revoked => "revoked"
  complete := by rintro ⟨⟩ <;> decide
  injective := by rintro ⟨⟩ ⟨⟩ <;> simp

inductive EdgeType where
  | requires
  | provides
  | conflicts
  | replaces
  | optional
deriving DecidableEq, Repr

instance : Enumeration EdgeType where
  values := [.requires, .provides, .conflicts, .replaces, .optional]
  wire
    | .requires => "requires"
    | .provides => "provides"
    | .conflicts => "conflicts"
    | .replaces => "replaces"
    | .optional => "optional"
  complete := by rintro ⟨⟩ <;> decide
  injective := by rintro ⟨⟩ ⟨⟩ <;> simp

inductive Risk where
  | low
  | medium
  | high
  | critical
deriving DecidableEq, Repr

instance : Enumeration Risk where
  values := [.low, .medium, .high, .critical]
  wire
    | .low => "low"
    | .medium => "medium"
    | .high => "high"
    | .critical => "critical"
  complete := by rintro ⟨⟩ <;> decide
  injective := by rintro ⟨⟩ ⟨⟩ <;> simp

inductive SafeBoundary where
  | beforeNextAgentAction
deriving DecidableEq, Repr

instance : Enumeration SafeBoundary where
  values := [.beforeNextAgentAction]
  wire | .beforeNextAgentAction => "before-next-agent-action"
  complete := by rintro ⟨⟩; decide
  injective := by rintro ⟨⟩ ⟨⟩ _; rfl

inductive LossyCompression where
  | forbidden
  | validatedOnly
  | excerptOnly
  | allowed
deriving DecidableEq, Repr

instance : Enumeration LossyCompression where
  values := [.forbidden, .validatedOnly, .excerptOnly, .allowed]
  wire
    | .forbidden => "forbidden"
    | .validatedOnly => "validated_only"
    | .excerptOnly => "excerpt_only"
    | .allowed => "allowed"
  complete := by rintro ⟨⟩ <;> decide
  injective := by rintro ⟨⟩ ⟨⟩ <;> simp

inductive TestKind where
  | static
  | evidence
  | compression
  | behavioral
deriving DecidableEq, Repr

instance : Enumeration TestKind where
  values := [.static, .evidence, .compression, .behavioral]
  wire
    | .static => "static"
    | .evidence => "evidence"
    | .compression => "compression"
    | .behavioral => "behavioral"
  complete := by rintro ⟨⟩ <;> decide
  injective := by rintro ⟨⟩ ⟨⟩ <;> simp

inductive InputProfile where
  | signatureV1
deriving DecidableEq, Repr

instance : Enumeration InputProfile where
  values := [.signatureV1]
  wire | .signatureV1 => "CCS-2.1-signature-v1"
  complete := by rintro ⟨⟩; decide
  injective := by rintro ⟨⟩ ⟨⟩ _; rfl

/-! ## Section 2: Models -/

structure Scope where
  repositories : List String
  paths : List String
  environments : List String
deriving DecidableEq, Repr

structure IntegrityReferences where
  lock : String
  signature : Option String
deriving DecidableEq, Repr

structure ControlManifest (ν : Type) where
  specVersion : SpecVersion
  canonicalProfile : CanonicalProfile
  capsuleId : String
  version : String
  contentDigest : String
  owner : String
  tenant : String
  scope : Scope
  authority : String
  sensitivity : Sensitivity
  provides : List String
  requires : List String
  conflicts : List String
  lifecycle : Lifecycle
  createdFrom : List String
  integrity : IntegrityReferences
  extensions : Members ν
deriving DecidableEq

structure Validity where
  from_ : String
  until_ : Option String
deriving DecidableEq, Repr

/-- An atom; its confidence is a float. -/
structure Atom (ν : Type) where
  atomId : String
  kind : AtomKind
  statement : String
  modality : Modality
  scope : List String
  exceptions : List String
  validity : Validity
  authority : String
  status : AtomStatus
  confidence : ν
  evidenceRefs : List String
  requiresAtoms : List String
  conflictsWith : List String
  sensitivity : Sensitivity
  compressionClass : CompressionClass
  refreshPolicy : String
  extensions : Members ν
deriving DecidableEq

structure SemanticPayload (ν : Type) where
  atoms : List (Atom ν)
  extensions : Members ν
deriving DecidableEq

structure GitLocator where
  symbolOrHeading : String
  startLine : ℤ
  endLine : ℤ
  spanDigest : String
deriving DecidableEq, Repr

/-- What an evidence record says beyond the fields all records share, by its mode. -/
inductive EvidenceSource where
  | cas
  | gitImmutable (repository revision path : String) (locator : GitLocator)
  | externalImmutable (uri source verificationMethod : String)
deriving DecidableEq, Repr

/-- `mode`. -/
def EvidenceSource.mode : EvidenceSource → String
  | .cas => "CAS"
  | .gitImmutable .. => "GIT_IMMUTABLE"
  | .externalImmutable .. => "EXTERNAL_IMMUTABLE"

structure EvidenceRecord (ν : Type) where
  evidenceId : String
  atomIds : List String
  contentDigest : String
  mediaType : String
  capturedAt : String
  retention : String
  accessPolicy : String
  validation : EvidenceValidation
  extensions : Members ν
  source : EvidenceSource
deriving DecidableEq

/-- `mode`. -/
def EvidenceRecord.mode {ν : Type} (record : EvidenceRecord ν) : String := record.source.mode

structure EvidencePlane (ν : Type) where
  records : List (EvidenceRecord ν)
  extensions : Members ν
deriving DecidableEq

structure DependencyEdge (ν : Type) where
  source : String
  target : String
  edgeType : EdgeType
  versionConstraint : Option String
  mandatory : Bool
  extensions : Members ν
deriving DecidableEq

structure DependencyGraph (ν : Type) where
  edges : List (DependencyEdge ν)
  extensions : Members ν
deriving DecidableEq

structure VerificationCommands where
  static : List String
  behavioral : List String
  differential : List String
deriving DecidableEq, Repr

structure ActivationPolicy where
  risk : Risk
  approvalRequired : Bool
  safeBoundary : SafeBoundary
deriving DecidableEq, Repr

structure RollbackPolicy where
  pointer : String
  compensatingAction : Option String
deriving DecidableEq, Repr

structure ReplacementContract (ν : Type) where
  contractId : String
  replaces : Option String
  preconditions : List String
  targetEffects : List String
  protectedInvariants : List String
  allowedScope : List String
  forbiddenSpillover : List String
  verification : VerificationCommands
  activation : ActivationPolicy
  rollback : RollbackPolicy
  extensions : Members ν
deriving DecidableEq

structure CompressionClassPolicy where
  name : CompressionClass
  rendering : String
  lossyCompression : LossyCompression
  expansionTriggers : List String
  ttl : Option String
deriving DecidableEq, Repr

structure CompressionPolicy (ν : Type) where
  policyVersion : String
  classes : List CompressionClassPolicy
  extensions : Members ν
deriving DecidableEq

structure TestDefinition where
  testId : String
  kind : TestKind
  path : String
  digest : String
deriving DecidableEq, Repr

structure CapsuleDependency where
  capsuleId : String
  version : String
  digest : String
deriving DecidableEq, Repr

structure IntegrityLock (ν : Type) where
  capsuleDependencies : List CapsuleDependency
  sourceCommits : List String
  compilerVersion : String
  adapterVersions : List String
  compressionPolicyVersion : String
  testSetVersion : String
  modelSeries : List String
  parameters : List String
  runtimeConfigDigest : String
  extensions : Members ν
deriving DecidableEq

structure ArtifactChecksum where
  path : String
  digest : String
deriving DecidableEq, Repr

structure SignaturePolicy where
  algorithm : String
  keyId : String
  inputProfile : InputProfile
deriving DecidableEq, Repr

structure TestsIntegrity (ν : Type) where
  tests : List TestDefinition
  lock : IntegrityLock ν
  artifactChecksums : List ArtifactChecksum
  signaturePolicy : SignaturePolicy
  extensions : Members ν
deriving DecidableEq

structure DetachedSignature (ν : Type) where
  algorithm : String
  keyId : String
  value : String
  envelope : Members ν
deriving DecidableEq

/-- The seven modules, the signature envelope and the sidecars. -/
structure Capsule (ν : Type) where
  controlManifest : ControlManifest ν
  semanticPayload : SemanticPayload ν
  evidencePlane : EvidencePlane ν
  dependencyGraph : DependencyGraph ν
  replacementContract : ReplacementContract ν
  compressionPolicy : CompressionPolicy ν
  testsIntegrity : TestsIntegrity ν
  detachedSignature : Option (DetachedSignature ν)
  derivedArtifacts : Members ν
  runtimeSidecar : Members ν
deriving DecidableEq

/-! ## Section 3: Equality by value -/

section ByValue

variable {F : Type} [FloatText F]

/-- A mapping with its numbers by value and its members in key order. -/
def membersByValue (members : Members (Number F)) : Members ℚ :=
  Json.sortMembers utf16 (members.map fun m => (m.1, byValue m.2))

namespace Capsule

/-- The manifest, by value. -/
def manifestByValue (m : ControlManifest (Number F)) : ControlManifest ℚ :=
  { m with extensions := membersByValue m.extensions }

/-- An atom, by value. -/
def atomByValue (a : Atom (Number F)) : Atom ℚ :=
  { a with confidence := a.confidence.value, extensions := membersByValue a.extensions }

/-- The payload, by value. -/
def payloadByValue (p : SemanticPayload (Number F)) : SemanticPayload ℚ :=
  { atoms := p.atoms.map atomByValue, extensions := membersByValue p.extensions }

/-- An evidence record, by value. -/
def recordByValue (r : EvidenceRecord (Number F)) : EvidenceRecord ℚ :=
  { r with extensions := membersByValue r.extensions }

/-- The evidence plane, by value. -/
def planeByValue (p : EvidencePlane (Number F)) : EvidencePlane ℚ :=
  { records := p.records.map recordByValue, extensions := membersByValue p.extensions }

/-- An edge, by value. -/
def edgeByValue (e : DependencyEdge (Number F)) : DependencyEdge ℚ :=
  { e with extensions := membersByValue e.extensions }

/-- The graph, by value. -/
def graphByValue (g : DependencyGraph (Number F)) : DependencyGraph ℚ :=
  { edges := g.edges.map edgeByValue, extensions := membersByValue g.extensions }

/-- The contract, by value. -/
def contractByValue (c : ReplacementContract (Number F)) : ReplacementContract ℚ :=
  { c with extensions := membersByValue c.extensions }

/-- The policy, by value. -/
def policyByValue (p : CompressionPolicy (Number F)) : CompressionPolicy ℚ :=
  { p with extensions := membersByValue p.extensions }

/-- The lock, by value. -/
def lockByValue (l : IntegrityLock (Number F)) : IntegrityLock ℚ :=
  { l with extensions := membersByValue l.extensions }

/-- The tests and integrity module, by value. -/
def testsByValue (t : TestsIntegrity (Number F)) : TestsIntegrity ℚ :=
  { t with lock := lockByValue t.lock, extensions := membersByValue t.extensions }

/-- The signature, by value. -/
def signatureByValue (s : DetachedSignature (Number F)) : DetachedSignature ℚ :=
  { s with envelope := membersByValue s.envelope }

/-- A capsule with its numbers by value and its mappings in key order. Two capsules are equal, as
Python compares them, when they are equal by value. -/
def byValue (c : Capsule (Number F)) : Capsule ℚ where
  controlManifest := manifestByValue c.controlManifest
  semanticPayload := payloadByValue c.semanticPayload
  evidencePlane := planeByValue c.evidencePlane
  dependencyGraph := graphByValue c.dependencyGraph
  replacementContract := contractByValue c.replacementContract
  compressionPolicy := policyByValue c.compressionPolicy
  testsIntegrity := testsByValue c.testsIntegrity
  detachedSignature := c.detachedSignature.map signatureByValue
  derivedArtifacts := membersByValue c.derivedArtifacts
  runtimeSidecar := membersByValue c.runtimeSidecar

end Capsule

end ByValue

/-! ## Section 4: Validators -/

section Validators

variable {F : Type}

/-- `validate_extensions`. -/
def validExtensions (extensions : Members (Number F)) : Bool :=
  extensions.all (fun m => fullmatch extensionPattern m.1) && freezable (.object extensions)

/-- A tuple of `NonEmptyString`. -/
def nonEmptyStrings (values : List String) : Bool := values.all isNonEmpty

/-- A tuple of literal repository-relative patterns. -/
def literalPaths (values : List String) : Bool := values.all fun v => isSafeRelativePath v ""

def Scope.valid (s : Scope) : Bool :=
  nonEmptyStrings s.repositories && !s.repositories.isEmpty &&
    nonEmptyStrings s.paths && !s.paths.isEmpty && literalPaths s.paths &&
    nonEmptyStrings s.environments && !s.environments.isEmpty

def IntegrityReferences.valid (i : IntegrityReferences) : Bool :=
  i.lock == "integrity/capsule.lock" &&
    (match i.signature with
      | none => true
      | some path => path == "integrity/signature.json")

def ControlManifest.valid (m : ControlManifest (Number F)) : Bool :=
  fullmatch capsuleIdPattern m.capsuleId && isSemVer m.version && isDigest m.contentDigest &&
    isNonEmpty m.owner && isNonEmpty m.tenant && m.scope.valid && isNonEmpty m.authority &&
    nonEmptyStrings m.provides && nonEmptyStrings m.requires && nonEmptyStrings m.conflicts &&
    nonEmptyStrings m.createdFrom && m.integrity.valid && validExtensions m.extensions

def Validity.valid (v : Validity) : Bool := isDateString v.from_ && v.until_.all isDateString

/-- A confidence is a float between 0 and 1. -/
def validConfidence [FloatText F] : Number F → Bool
  | .int _ => false
  | .float x => decide (0 ≤ FloatText.value x) && decide (FloatText.value x ≤ 1)

def Atom.valid [FloatText F] (a : Atom (Number F)) : Bool :=
  isNonEmpty a.atomId && isNonEmpty a.statement && nonEmptyStrings a.scope && !a.scope.isEmpty &&
    nonEmptyStrings a.exceptions && a.validity.valid && isNonEmpty a.authority &&
    validConfidence a.confidence && nonEmptyStrings a.evidenceRefs &&
    nonEmptyStrings a.requiresAtoms && nonEmptyStrings a.conflictsWith &&
    isNonEmpty a.refreshPolicy && validExtensions a.extensions &&
    (decide (a.status ≠ .validated) || !a.evidenceRefs.isEmpty)

def SemanticPayload.valid [FloatText F] (p : SemanticPayload (Number F)) : Bool :=
  p.atoms.all Atom.valid && !p.atoms.isEmpty && validExtensions p.extensions &&
    decide (p.atoms.map Atom.atomId).Nodup

def GitLocator.valid (l : GitLocator) : Bool :=
  isNonEmpty l.symbolOrHeading && decide (1 ≤ l.startLine) && decide (l.startLine ≤ 2 ^ 53 - 1) &&
    decide (1 ≤ l.endLine) && decide (l.endLine ≤ 2 ^ 53 - 1) && isDigest l.spanDigest &&
    decide (l.startLine ≤ l.endLine)

def EvidenceSource.valid : EvidenceSource → Bool
  | .cas => true
  | .gitImmutable repository revision path locator =>
    isNonEmpty repository && fullmatch revisionPattern revision && isNonEmpty path &&
      locator.valid && isCanonicalHttpsUri repository && isSafeRelativePath path ""
  | .externalImmutable uri source verificationMethod =>
    isNonEmpty uri && isNonEmpty source && isNonEmpty verificationMethod &&
      (fullmatch persistentPattern uri || isCanonicalHttpsUri uri)

def EvidenceRecord.valid (r : EvidenceRecord (Number F)) : Bool :=
  isNonEmpty r.evidenceId && nonEmptyStrings r.atomIds && !r.atomIds.isEmpty &&
    isDigest r.contentDigest && isMediaType r.mediaType && isTimestampString r.capturedAt &&
    isNonEmpty r.retention && isNonEmpty r.accessPolicy && validExtensions r.extensions &&
    r.source.valid

def EvidencePlane.valid (p : EvidencePlane (Number F)) : Bool :=
  p.records.all EvidenceRecord.valid && !p.records.isEmpty && validExtensions p.extensions &&
    decide (p.records.map EvidenceRecord.evidenceId).Nodup

def DependencyEdge.valid (e : DependencyEdge (Number F)) : Bool :=
  isNonEmpty e.source && isNonEmpty e.target && e.versionConstraint.all isNonEmpty &&
    validExtensions e.extensions

/-- The key of an edge. -/
def DependencyEdge.key {ν : Type} (e : DependencyEdge ν) : String × String × EdgeType :=
  (e.source, e.target, e.edgeType)

def DependencyGraph.valid (g : DependencyGraph (Number F)) : Bool :=
  g.edges.all DependencyEdge.valid && validExtensions g.extensions &&
    decide (g.edges.map DependencyEdge.key).Nodup

def VerificationCommands.valid (v : VerificationCommands) : Bool :=
  nonEmptyStrings v.static && nonEmptyStrings v.behavioral && nonEmptyStrings v.differential

def RollbackPolicy.valid (r : RollbackPolicy) : Bool :=
  isNonEmpty r.pointer && r.compensatingAction.all isNonEmpty

def ReplacementContract.valid (c : ReplacementContract (Number F)) : Bool :=
  isNonEmpty c.contractId && c.replaces.all isNonEmpty && nonEmptyStrings c.preconditions &&
    nonEmptyStrings c.targetEffects && !c.targetEffects.isEmpty &&
    nonEmptyStrings c.protectedInvariants && !c.protectedInvariants.isEmpty &&
    nonEmptyStrings c.allowedScope && literalPaths c.allowedScope &&
    nonEmptyStrings c.forbiddenSpillover && literalPaths c.forbiddenSpillover &&
    c.verification.valid && c.rollback.valid && validExtensions c.extensions

def CompressionClassPolicy.valid (c : CompressionClassPolicy) : Bool :=
  isNonEmpty c.rendering && nonEmptyStrings c.expansionTriggers && c.ttl.all (fullmatch ttlPattern) &&
    (decide (c.name ≠ .p0Exact) ||
      (c.rendering == "exact" && decide (c.lossyCompression = .forbidden)))

def CompressionPolicy.valid (p : CompressionPolicy (Number F)) : Bool :=
  isSemVer p.policyVersion && p.classes.all CompressionClassPolicy.valid &&
    decide (p.classes.length = 5) && validExtensions p.extensions &&
    decide (p.classes.map CompressionClassPolicy.name).Nodup

def TestDefinition.valid (t : TestDefinition) : Bool :=
  isNonEmpty t.testId && isNonEmpty t.path && isDigest t.digest &&
    ["tests/static/", "tests/behavioral/", "tests/compression/"].any (isSafeRelativePath t.path)

def CapsuleDependency.valid (d : CapsuleDependency) : Bool :=
  isNonEmpty d.capsuleId && isSemVer d.version && isDigest d.digest

def IntegrityLock.valid (l : IntegrityLock (Number F)) : Bool :=
  l.capsuleDependencies.all CapsuleDependency.valid && nonEmptyStrings l.sourceCommits &&
    isSemVer l.compilerVersion && nonEmptyStrings l.adapterVersions &&
    isSemVer l.compressionPolicyVersion && isSemVer l.testSetVersion &&
    nonEmptyStrings l.modelSeries && nonEmptyStrings l.parameters &&
    isDigest l.runtimeConfigDigest && validExtensions l.extensions

def ArtifactChecksum.valid (c : ArtifactChecksum) : Bool :=
  isNonEmpty c.path && isDigest c.digest && isSafeRelativePath c.path "tests/"

def SignaturePolicy.valid (p : SignaturePolicy) : Bool :=
  isNonEmpty p.algorithm && isNonEmpty p.keyId

def TestsIntegrity.valid (t : TestsIntegrity (Number F)) : Bool :=
  t.tests.all TestDefinition.valid && !t.tests.isEmpty && t.lock.valid &&
    t.artifactChecksums.all ArtifactChecksum.valid && t.signaturePolicy.valid &&
    validExtensions t.extensions &&
    decide (t.tests.map fun item => (item.path, item.digest)).Nodup &&
    decide (t.artifactChecksums.map (fun item => (item.path, item.digest)) =
      t.tests.map fun item => (item.path, item.digest))

def DetachedSignature.valid (s : DetachedSignature (Number F)) : Bool :=
  isNonEmpty s.algorithm && isNonEmpty s.keyId && isNonEmpty s.value &&
    freezable (.object s.envelope)

/-- The pairs of an atom and the evidence it refers to. -/
def SemanticPayload.bindings {ν : Type} (p : SemanticPayload ν) : List (String × String) :=
  p.atoms.flatMap fun atom => atom.evidenceRefs.map fun evidenceId => (atom.atomId, evidenceId)

/-- The pairs of an atom and the evidence that maps it. -/
def EvidencePlane.bindings {ν : Type} (p : EvidencePlane ν) : List (String × String) :=
  p.records.flatMap fun record => record.atomIds.map fun atomId => (atomId, record.evidenceId)

/-- `_references_are_closed`. -/
def Capsule.referencesClosed {ν : Type} (c : Capsule ν) : Bool :=
  let atomIds := c.semanticPayload.atoms.map Atom.atomId
  let evidenceIds := c.evidencePlane.records.map EvidenceRecord.evidenceId
  let declared := c.controlManifest.integrity.signature.isSome
  c.semanticPayload.atoms.all (fun atom => atom.evidenceRefs.all (evidenceIds.contains ·)) &&
    c.evidencePlane.records.all (fun record => record.atomIds.all (atomIds.contains ·)) &&
    c.semanticPayload.bindings.all (c.evidencePlane.bindings.contains ·) &&
    c.evidencePlane.bindings.all (c.semanticPayload.bindings.contains ·) &&
    declared == c.detachedSignature.isSome &&
    (decide (c.controlManifest.lifecycle ≠ .published) || c.detachedSignature.isSome) &&
    c.detachedSignature.all fun signature =>
      signature.algorithm == c.testsIntegrity.signaturePolicy.algorithm &&
        signature.keyId == c.testsIntegrity.signaturePolicy.keyId

/-- A capsule the model admits. -/
def Capsule.valid [FloatText F] (c : Capsule (Number F)) : Bool :=
  c.controlManifest.valid && c.semanticPayload.valid && c.evidencePlane.valid &&
    c.dependencyGraph.valid && c.replacementContract.valid && c.compressionPolicy.valid &&
    c.testsIntegrity.valid && c.detachedSignature.all DetachedSignature.valid &&
    freezable (.object c.derivedArtifacts) && freezable (.object c.runtimeSidecar) &&
    c.referencesClosed

end Validators

end ContractCapsule.Models
