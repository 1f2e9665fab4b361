import Mathlib.Data.String.Basic
import ContractCapsule.Registry.Rows

/-!
# Runtime Contracts

The values of `models/view.py` that a compilation reads and returns, and the codes of
`CompileError`. A value that the program puts under a digest or sorts by its canonical bytes has
its JSON dump beside it.
-/

namespace ContractCapsule.Models

open Library
open Enumeration (wire)
open Registry (PublishedCapsule)

/-! ## Section 1: Errors -/

/-- The codes of `CompileError`, and the faults of other kinds that end a compilation. -/
inductive CompileError where
  | invalidRequest
  | invalidConfiguration
  | secretDetected
  | compilationFailed
  | invalidPolicySnapshot
  | policySnapshotChanged
  | missingAtom
  | missingDependency
  | missingInterface
  | ambiguousProvider
  | invalidVersionConstraint
  | invalidGraph
  | duplicateAtom
  | ambiguousGraphNode
  | conflict
  | rankingFailed
  | rankingUnavailable
  | evidenceUnavailable
  | evidenceUnauthorized
  | evidenceIntegrity
  | tokenizerUnavailable
  | tokenizerIntegrity
  | renderingFailed
  | p0Overflow
  | p1Overflow
  | expansionOverflow
  | replayMismatch
  | serviceSnapshotChanged
  | finalPreservationFailed
  | interfaceIncompatible
  | invalidScope
  | registryIntegrity
  | conflictingPublication
  | lifecycleDenied
  | tenantDenied
  | authorizationDenied
  | sensitivityDenied
  | repositoryDenied
  | pathDenied
  | environmentDenied
  | freshnessDenied
  | atomStatusDenied
  | atomScopeDenied
  | validityDenied
  | refreshPolicyDenied
  | ttlExpired
  | invalidRenderSections
  | invalidRenderAtoms
  | invalidView
  | membershipInvalid
  | mandatoryMembership
  | closureInvalid
  | tokenAccountingInvalid
  | manifestInvalid
  /-- An exception that is no `CompileError`. -/
  | unexpected
deriving DecidableEq, Repr

/-- The text of a code. -/
def CompileError.code : CompileError → String
  | invalidRequest => "INVALID_REQUEST"
  | invalidConfiguration => "INVALID_CONFIGURATION"
  | secretDetected => "SECRET_DETECTED"
  | compilationFailed => "COMPILATION_FAILED"
  | invalidPolicySnapshot => "INVALID_POLICY_SNAPSHOT"
  | policySnapshotChanged => "POLICY_SNAPSHOT_CHANGED"
  | missingAtom => "MISSING_ATOM"
  | missingDependency => "MISSING_DEPENDENCY"
  | missingInterface => "MISSING_INTERFACE"
  | ambiguousProvider => "AMBIGUOUS_PROVIDER"
  | invalidVersionConstraint => "INVALID_VERSION_CONSTRAINT"
  | invalidGraph => "INVALID_GRAPH"
  | duplicateAtom => "DUPLICATE_ATOM"
  | ambiguousGraphNode => "AMBIGUOUS_GRAPH_NODE"
  | conflict => "CONFLICT"
  | rankingFailed => "RANKING_FAILED"
  | rankingUnavailable => "RANKING_UNAVAILABLE"
  | evidenceUnavailable => "EVIDENCE_UNAVAILABLE"
  | evidenceUnauthorized => "EVIDENCE_UNAUTHORIZED"
  | evidenceIntegrity => "EVIDENCE_INTEGRITY"
  | tokenizerUnavailable => "TOKENIZER_UNAVAILABLE"
  | tokenizerIntegrity => "TOKENIZER_INTEGRITY"
  | renderingFailed => "RENDERING_FAILED"
  | p0Overflow => "P0_OVERFLOW"
  | p1Overflow => "P1_OVERFLOW"
  | expansionOverflow => "EXPANSION_OVERFLOW"
  | replayMismatch => "REPLAY_MISMATCH"
  | serviceSnapshotChanged => "SERVICE_SNAPSHOT_CHANGED"
  | finalPreservationFailed => "FINAL_PRESERVATION_FAILED"
  | interfaceIncompatible => "INTERFACE_INCOMPATIBLE"
  | invalidScope => "INVALID_SCOPE"
  | registryIntegrity => "REGISTRY_INTEGRITY"
  | conflictingPublication => "CONFLICTING_PUBLICATION"
  | lifecycleDenied => "LIFECYCLE_DENIED"
  | tenantDenied => "TENANT_DENIED"
  | authorizationDenied => "AUTHORIZATION_DENIED"
  | sensitivityDenied => "SENSITIVITY_DENIED"
  | repositoryDenied => "REPOSITORY_DENIED"
  | pathDenied => "PATH_DENIED"
  | environmentDenied => "ENVIRONMENT_DENIED"
  | freshnessDenied => "FRESHNESS_DENIED"
  | atomStatusDenied => "ATOM_STATUS_DENIED"
  | atomScopeDenied => "ATOM_SCOPE_DENIED"
  | validityDenied => "VALIDITY_DENIED"
  | refreshPolicyDenied => "REFRESH_POLICY_DENIED"
  | ttlExpired => "TTL_EXPIRED"
  | invalidRenderSections => "INVALID_RENDER_SECTIONS"
  | invalidRenderAtoms => "INVALID_RENDER_ATOMS"
  | invalidView => "INVALID_VIEW"
  | membershipInvalid => "MEMBERSHIP_INVALID"
  | mandatoryMembership => "MANDATORY_MEMBERSHIP"
  | closureInvalid => "CLOSURE_INVALID"
  | tokenAccountingInvalid => "TOKEN_ACCOUNTING_INVALID"
  | manifestInvalid => "MANIFEST_INVALID"
  | unexpected => "COMPILATION_FAILED"

/-! ## Section 2: Digests and orders -/

section Digests

variable {F : Type} [FloatText F]

/-- `snapshot_digest`. -/
def snapshotDigest (sha256 : List Char → String) (v : Value F) : String := sha256 (canonicalText v)

/-- `sorted(set(value))`, as the validator of `StringSet` makes it. -/
def uniqueStrings (values : List String) : List String := values.dedup.insertionSort (· ≤ ·)

end Digests

/-- The greatest value of `Count`. -/
def maxCount : ℕ := 2 ^ 53 - 1

/-! ## Section 3: Requests -/

structure CapsuleRef where
  capsuleId : String
  version : String
  digest : String
deriving DecidableEq, Repr

/-- `key` -/
def CapsuleRef.key (r : CapsuleRef) : String :=
  r.capsuleId ++ "@" ++ r.version ++ "#" ++ r.digest

/-- The constraints of the fields of a reference. -/
def CapsuleRef.valid (r : CapsuleRef) : Bool :=
  isNonEmpty r.capsuleId && isSemVer r.version && isDigest r.digest

structure TaskContext where
  taskId : String
  tenant : String
  repository : String
  paths : List String
  environment : String
  text : String
  risk : Risk
  requiredInterfaces : List String
  requiredAtomIds : List String
deriving DecidableEq, Repr

/-- The budget of a view. The reserved tokens are within the tokens of the model's input. -/
structure ViewBudget where
  modelInputTokens : ℕ
  systemTokens : ℕ
  conversationTokens : ℕ
  toolsTokens : ℕ
  safetyHeadroomTokens : ℕ
  bounded : modelInputTokens ≤ maxCount
  nonnegativeAvailable :
    systemTokens + conversationTokens + toolsTokens + safetyHeadroomTokens ≤ modelInputTokens

/-- `available` -/
def ViewBudget.available (b : ViewBudget) : ℕ :=
  b.modelInputTokens - b.systemTokens - b.conversationTokens - b.toolsTokens -
    b.safetyHeadroomTokens

/-- `Principal` -/
structure Principal where
  principalId : String
deriving DecidableEq, Repr

/-- A publication with a valid capsule: the only ones the models can build. -/
abbrev Publication (F : Type) [FloatText F] :=
  { p : PublishedCapsule F // p.capsule.valid = true }

structure CompileRequest (F : Type) [FloatText F] where
  capsules : List (Publication F)
  task : TaskContext
  principal : Principal
  budget : ViewBudget
  asOf : String
  modelId : String
  tokenizerProfile : String
  rendererVersion : String
  runtimeConfig : Members (Number F)
  expectedManifestDigest : Option String
  frozen : freezable (.object runtimeConfig) = true

/-! ## Section 4: Atoms, evidence and views -/

/-- An atom with its rank; a score that is no finite number has no value. -/
structure RankedAtom (F : Type) where
  atom : Atom (Number F)
  score : Option F
  isMatched : Bool

structure Conflict where
  source : String
  target : String
  reason : String
deriving DecidableEq, Repr

structure EvidenceHandle where
  capsule : CapsuleRef
  evidenceId : String
  atomIds : List String
  mode : String
  contentDigest : String
  spanDigest : Option String
  resolverVersion : String
deriving DecidableEq, Repr

structure EvidenceMaterial where
  handle : EvidenceHandle
  excerpt : String
  fullText : String
deriving DecidableEq, Repr

inductive Outcome where
  | selected
  | excluded
deriving DecidableEq, Repr

instance : Enumeration Outcome where
  values := [.selected, .excluded]
  wire
    | .selected => "selected"
    | .excluded => "excluded"
  complete := by rintro ⟨⟩ <;> decide
  injective := by rintro ⟨⟩ ⟨⟩ <;> simp

structure DecisionRecord where
  capsule : CapsuleRef
  atomId : String
  outcome : Outcome
  reason : String
deriving DecidableEq, Repr

structure ServiceStamp where
  name : String
  version : String
  configDigest : String
deriving DecidableEq, Repr

structure ProviderWitness where
  consumer : Option CapsuleRef
  requirement : String
  provider : CapsuleRef
  atomIds : List String
deriving DecidableEq, Repr

structure ClosureLink where
  source : String
  target : String
deriving DecidableEq, Repr

structure TokenAccounting where
  total : ℕ
  available : ℕ
  sections : List (String × ℕ)
  boundaryAdjustment : ℤ
deriving DecidableEq, Repr

structure ValidationReport where
  isValid : Bool
  blockers : List String
deriving DecidableEq, Repr

structure ViewManifest where
  profile : String
  compilerVersion : String
  taskId : String
  tenant : String
  repository : String
  asOf : String
  taskDigest : String
  permissionDigest : String
  requestDigest : String
  modelId : String
  tokenizerProfile : String
  rendererVersion : String
  capsules : List CapsuleRef
  decisions : List DecisionRecord
  providers : List ProviderWitness
  closure : List ClosureLink
  conflicts : List Conflict
  expandedEvidence : List String
  rejectedCounts : List (String × ℕ)
  services : List ServiceStamp
  tokens : TokenAccounting
  validation : ValidationReport
deriving DecidableEq, Repr

structure CompiledView where
  content : List Char
  manifest : ViewManifest
  validation : ValidationReport
  evidenceHandles : List EvidenceHandle
deriving DecidableEq, Repr

/-! ## Section 5: Dumps -/

section Dumps

variable {F : Type}

/-- A count. -/
def count (n : ℕ) : Value F := integer n

def CapsuleRef.dump (r : CapsuleRef) : Value F :=
  .object
    [("capsule_id", .string r.capsuleId),
     ("version", .string r.version),
     ("digest", .string r.digest)]

def TaskContext.dump (t : TaskContext) : Value F :=
  .object
    [("task_id", .string t.taskId),
     ("tenant", .string t.tenant),
     ("repository", .string t.repository),
     ("paths", strings t.paths),
     ("environment", .string t.environment),
     ("text", .string t.text),
     ("risk", literal t.risk),
     ("required_interfaces", strings t.requiredInterfaces),
     ("required_atom_ids", strings t.requiredAtomIds)]

def ViewBudget.dump (b : ViewBudget) : Value F :=
  .object
    [("model_input_tokens", count b.modelInputTokens),
     ("system_tokens", count b.systemTokens),
     ("conversation_tokens", count b.conversationTokens),
     ("tools_tokens", count b.toolsTokens),
     ("safety_headroom_tokens", count b.safetyHeadroomTokens)]

def Conflict.dump (c : Conflict) : Value F :=
  .object
    [("source", .string c.source), ("target", .string c.target), ("reason", .string c.reason)]

def EvidenceHandle.dump (h : EvidenceHandle) : Value F :=
  .object
    [("capsule", h.capsule.dump),
     ("evidence_id", .string h.evidenceId),
     ("atom_ids", strings h.atomIds),
     ("mode", .string h.mode),
     ("content_digest", .string h.contentDigest),
     ("span_digest", optionalString h.spanDigest),
     ("resolver_version", .string h.resolverVersion)]

def EvidenceMaterial.dump (m : EvidenceMaterial) : Value F :=
  .object
    [("handle", m.handle.dump),
     ("excerpt", .string m.excerpt),
     ("full_text", .string m.fullText)]

def DecisionRecord.dump (d : DecisionRecord) : Value F :=
  .object
    [("capsule", d.capsule.dump),
     ("atom_id", .string d.atomId),
     ("outcome", literal d.outcome),
     ("reason", .string d.reason)]

def ServiceStamp.dump (s : ServiceStamp) : Value F :=
  .object
    [("name", .string s.name),
     ("version", .string s.version),
     ("config_digest", .string s.configDigest)]

def ProviderWitness.dump (w : ProviderWitness) : Value F :=
  .object
    [("consumer", match w.consumer with
      | none => .null
      | some consumer => consumer.dump),
     ("requirement", .string w.requirement),
     ("provider", w.provider.dump),
     ("atom_ids", strings w.atomIds)]

def ClosureLink.dump (l : ClosureLink) : Value F :=
  .object [("source", .string l.source), ("target", .string l.target)]

def TokenAccounting.dump (t : TokenAccounting) : Value F :=
  .object
    [("total", count t.total),
     ("available", count t.available),
     ("sections", .object (t.sections.map fun entry => (entry.1, count entry.2))),
     ("boundary_adjustment", integer t.boundaryAdjustment)]

def ValidationReport.dump (r : ValidationReport) : Value F :=
  .object [("valid", .bool r.isValid), ("blockers", strings r.blockers)]

/-- An atom as `model_dump` writes it; a mapping stands for itself. -/
def atomDump (a : Atom (Number F)) : Value F := Canonical.atom a

end Dumps

end ContractCapsule.Models
