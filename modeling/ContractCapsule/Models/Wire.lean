import ContractCapsule.Models.Canonical

/-!
# Reading the Wire Dictionary

Strict validation of a JSON value against the models, as `Capsule.model_validate_json` does it:
every model has its fields and no others, a field with a default may be missing, no value is
converted but an integer that stands for a float, and the validators of the models hold of the
result.

The readers are written over any type of numbers. A `Transport` rewrites values in a way that the
readers do not notice but for the numbers: the identity, the passage through a canonical text, and
the passage to values are transports. One lemma for each model says what its reader makes of a
transported projection; the round trips and the injectivity of the projections are its instances.
-/

namespace ContractCapsule.Models

open Library
open Enumeration (wire)

/-- How the numbers of a JSON value are read. -/
class NumberReading (μ : Type) where
  /-- A field of type `int`. -/
  asInt : μ → Option ℤ
  /-- A field of type `float`. -/
  asFloat : μ → Option μ

/-- Strict fields: an integer is accepted for a float, a float is not accepted for an integer. -/
instance {F : Type} [FloatText F] : NumberReading (Number F) where
  asInt
    | .int i => some i
    | .float _ => none
  asFloat
    | .int i => some (.float (FloatText.ofInt i))
    | .float x => some (.float x)

/-- Numbers by value. -/
instance : NumberReading ℚ where
  asInt q := if q.den = 1 then some q.num else none
  asFloat := some

/-! ## Section 1: Readers -/

namespace Wire

section Readers

variable {μ : Type}

/-- An object. -/
def object : Json μ → Option (Members μ)
  | .object ms => some ms
  | _ => none

/-- A string. -/
def string : Json μ → Option String
  | .string s => some s
  | _ => none

/-- A Boolean. -/
def bool : Json μ → Option Bool
  | .bool b => some b
  | _ => none

/-- An integer. -/
def integer [NumberReading μ] : Json μ → Option ℤ
  | .number n => NumberReading.asInt n
  | _ => none

/-- A float. -/
def float [NumberReading μ] : Json μ → Option μ
  | .number n => NumberReading.asFloat n
  | _ => none

/-- A tuple. -/
def tuple {α : Type} (read : Json μ → Option α) : Json μ → Option (List α)
  | .array xs => xs.mapM read
  | _ => none

/-- A tuple of strings. -/
def strings (v : Json μ) : Option (List String) := tuple string v

/-- A value or `null`. -/
def optional {α : Type} (read : Json μ → Option α) : Json μ → Option (Option α)
  | .null => some none
  | v => (read v).map some

/-- A literal. -/
def literal {α : Type} [Enumeration α] (v : Json μ) : Option α :=
  (string v).bind fun s => (Enumeration.values (α := α)).find? fun a => wire a == s

/-- An object without other fields than those of its model. -/
def model (fields : List String) (v : Json μ) : Option (Members μ) :=
  (object v).bind fun ms => if ms.all (fun m => fields.contains m.1) then some ms else none

/-- A required field. -/
def field {α : Type} (ms : Members μ) (name : String) (read : Json μ → Option α) : Option α :=
  (ms.lookup name).bind read

/-- A field with a default. -/
def fieldOr {α : Type} (default : α) (ms : Members μ) (name : String) (read : Json μ → Option α) :
    Option α :=
  match ms.lookup name with
  | none => some default
  | some v => read v

/-- The extensions of a model. -/
def extensions (ms : Members μ) : Option (Members μ) := fieldOr [] ms "extensions" object

def scope (v : Json μ) : Option Scope := do
  let ms ← model ["repositories", "paths", "environments"] v
  Scope.mk
    <$> field ms "repositories" strings
    <*> field ms "paths" strings
    <*> field ms "environments" strings

def integrityReferences (v : Json μ) : Option IntegrityReferences := do
  let ms ← model ["lock", "signature"] v
  IntegrityReferences.mk
    <$> field ms "lock" string
    <*> field ms "signature" (optional string)

/-- The fields of the manifest but its digest. -/
def manifestFields (contentDigest : String) (ms : Members μ) : Option (ControlManifest μ) :=
  ControlManifest.mk
    <$> field ms "spec_version" literal
    <*> field ms "canonical_profile" literal
    <*> field ms "capsule_id" string
    <*> field ms "version" string
    <*> pure contentDigest
    <*> field ms "owner" string
    <*> field ms "tenant" string
    <*> field ms "scope" scope
    <*> field ms "authority" string
    <*> field ms "sensitivity" literal
    <*> field ms "provides" strings
    <*> field ms "requires" strings
    <*> field ms "conflicts" strings
    <*> field ms "lifecycle" literal
    <*> field ms "created_from" strings
    <*> field ms "integrity" integrityReferences
    <*> extensions ms

def controlManifest (v : Json μ) : Option (ControlManifest μ) := do
  let ms ← model ["spec_version", "canonical_profile", "capsule_id", "version", "content_digest",
    "owner", "tenant", "scope", "authority", "sensitivity", "provides", "requires", "conflicts",
    "lifecycle", "created_from", "integrity", "extensions"] v
  let contentDigest ← field ms "content_digest" string
  manifestFields contentDigest ms

/-- A validity; its first field is read under its alias. -/
def validity (v : Json μ) : Option Validity := do
  let ms ← model ["from", "until"] v
  Validity.mk
    <$> field ms "from" string
    <*> field ms "until" (optional string)

def atom [NumberReading μ] (v : Json μ) : Option (Atom μ) := do
  let ms ← model ["atom_id", "kind", "statement", "modality", "scope", "exceptions", "validity",
    "authority", "status", "confidence", "evidence_refs", "requires_atoms", "conflicts_with",
    "sensitivity", "compression_class", "refresh_policy", "extensions"] v
  Atom.mk
    <$> field ms "atom_id" string
    <*> field ms "kind" literal
    <*> field ms "statement" string
    <*> field ms "modality" literal
    <*> field ms "scope" strings
    <*> field ms "exceptions" strings
    <*> field ms "validity" validity
    <*> field ms "authority" string
    <*> field ms "status" literal
    <*> field ms "confidence" float
    <*> field ms "evidence_refs" strings
    <*> field ms "requires_atoms" strings
    <*> field ms "conflicts_with" strings
    <*> field ms "sensitivity" literal
    <*> field ms "compression_class" literal
    <*> field ms "refresh_policy" string
    <*> extensions ms

def semanticPayload [NumberReading μ] (v : Json μ) : Option (SemanticPayload μ) := do
  let ms ← model ["atoms", "extensions"] v
  SemanticPayload.mk
    <$> field ms "atoms" (tuple atom)
    <*> extensions ms

def gitLocator [NumberReading μ] (v : Json μ) : Option GitLocator := do
  let ms ← model ["symbol_or_heading", "start_line", "end_line", "span_digest"] v
  GitLocator.mk
    <$> field ms "symbol_or_heading" string
    <*> field ms "start_line" integer
    <*> field ms "end_line" integer
    <*> field ms "span_digest" string

/-- The fields of `EvidenceBase`. -/
def evidenceFields : List String :=
  ["mode", "evidence_id", "atom_ids", "content_digest", "media_type", "captured_at", "retention",
    "access_policy", "validation", "extensions"]

/-- What the mode of a record decides: the other fields it has, and what they say. -/
def evidenceSource [NumberReading μ] (mode : String) (v : Json μ) : Option EvidenceSource :=
  if mode = "CAS" then do
    let _ ← model evidenceFields v
    return .cas
  else if mode = "GIT_IMMUTABLE" then do
    let ms ← model (evidenceFields ++ ["repository", "revision", "path", "locator"]) v
    EvidenceSource.gitImmutable
      <$> field ms "repository" string
      <*> field ms "revision" string
      <*> field ms "path" string
      <*> field ms "locator" gitLocator
  else if mode = "EXTERNAL_IMMUTABLE" then do
    let ms ← model (evidenceFields ++ ["uri", "source", "verification_method"]) v
    EvidenceSource.externalImmutable
      <$> field ms "uri" string
      <*> field ms "source" string
      <*> field ms "verification_method" string
  else none

def evidenceRecord [NumberReading μ] (v : Json μ) : Option (EvidenceRecord μ) := do
  let ms ← object v
  let mode ← field ms "mode" string
  let source ← evidenceSource mode v
  EvidenceRecord.mk
    <$> field ms "evidence_id" string
    <*> field ms "atom_ids" strings
    <*> field ms "content_digest" string
    <*> field ms "media_type" string
    <*> field ms "captured_at" string
    <*> field ms "retention" string
    <*> field ms "access_policy" string
    <*> field ms "validation" literal
    <*> extensions ms
    <*> pure source

def evidencePlane [NumberReading μ] (v : Json μ) : Option (EvidencePlane μ) := do
  let ms ← model ["records", "extensions"] v
  EvidencePlane.mk
    <$> field ms "records" (tuple evidenceRecord)
    <*> extensions ms

def dependencyEdge (v : Json μ) : Option (DependencyEdge μ) := do
  let ms ← model ["source", "target", "edge_type", "version_constraint", "mandatory",
    "extensions"] v
  DependencyEdge.mk
    <$> field ms "source" string
    <*> field ms "target" string
    <*> field ms "edge_type" literal
    <*> field ms "version_constraint" (optional string)
    <*> field ms "mandatory" bool
    <*> extensions ms

def dependencyGraph (v : Json μ) : Option (DependencyGraph μ) := do
  let ms ← model ["edges", "extensions"] v
  DependencyGraph.mk
    <$> field ms "edges" (tuple dependencyEdge)
    <*> extensions ms

def verificationCommands (v : Json μ) : Option VerificationCommands := do
  let ms ← model ["static", "behavioral", "differential"] v
  VerificationCommands.mk
    <$> field ms "static" strings
    <*> field ms "behavioral" strings
    <*> field ms "differential" strings

def activationPolicy (v : Json μ) : Option ActivationPolicy := do
  let ms ← model ["risk", "approval_required", "safe_boundary"] v
  ActivationPolicy.mk
    <$> field ms "risk" literal
    <*> field ms "approval_required" bool
    <*> field ms "safe_boundary" literal

def rollbackPolicy (v : Json μ) : Option RollbackPolicy := do
  let ms ← model ["pointer", "compensating_action"] v
  RollbackPolicy.mk
    <$> field ms "pointer" string
    <*> field ms "compensating_action" (optional string)

def replacementContract (v : Json μ) : Option (ReplacementContract μ) := do
  let ms ← model ["contract_id", "replaces", "preconditions", "target_effects",
    "protected_invariants", "allowed_scope", "forbidden_spillover", "verification", "activation",
    "rollback", "extensions"] v
  ReplacementContract.mk
    <$> field ms "contract_id" string
    <*> field ms "replaces" (optional string)
    <*> field ms "preconditions" strings
    <*> field ms "target_effects" strings
    <*> field ms "protected_invariants" strings
    <*> field ms "allowed_scope" strings
    <*> field ms "forbidden_spillover" strings
    <*> field ms "verification" verificationCommands
    <*> field ms "activation" activationPolicy
    <*> field ms "rollback" rollbackPolicy
    <*> extensions ms

def compressionClassPolicy (v : Json μ) : Option CompressionClassPolicy := do
  let ms ← model ["name", "rendering", "lossy_compression", "expansion_triggers", "ttl"] v
  CompressionClassPolicy.mk
    <$> field ms "name" literal
    <*> field ms "rendering" string
    <*> field ms "lossy_compression" literal
    <*> field ms "expansion_triggers" strings
    <*> field ms "ttl" (optional string)

def compressionPolicy (v : Json μ) : Option (CompressionPolicy μ) := do
  let ms ← model ["policy_version", "classes", "extensions"] v
  CompressionPolicy.mk
    <$> field ms "policy_version" string
    <*> field ms "classes" (tuple compressionClassPolicy)
    <*> extensions ms

def testDefinition (v : Json μ) : Option TestDefinition := do
  let ms ← model ["test_id", "kind", "path", "digest"] v
  TestDefinition.mk
    <$> field ms "test_id" string
    <*> field ms "kind" literal
    <*> field ms "path" string
    <*> field ms "digest" string

def capsuleDependency (v : Json μ) : Option CapsuleDependency := do
  let ms ← model ["capsule_id", "version", "digest"] v
  CapsuleDependency.mk
    <$> field ms "capsule_id" string
    <*> field ms "version" string
    <*> field ms "digest" string

def integrityLock (v : Json μ) : Option (IntegrityLock μ) := do
  let ms ← model ["capsule_dependencies", "source_commits", "compiler_version",
    "adapter_versions", "compression_policy_version", "test_set_version", "model_series",
    "parameters", "runtime_config_digest", "extensions"] v
  IntegrityLock.mk
    <$> field ms "capsule_dependencies" (tuple capsuleDependency)
    <*> field ms "source_commits" strings
    <*> field ms "compiler_version" string
    <*> field ms "adapter_versions" strings
    <*> field ms "compression_policy_version" string
    <*> field ms "test_set_version" string
    <*> field ms "model_series" strings
    <*> field ms "parameters" strings
    <*> field ms "runtime_config_digest" string
    <*> extensions ms

def artifactChecksum (v : Json μ) : Option ArtifactChecksum := do
  let ms ← model ["path", "digest"] v
  ArtifactChecksum.mk
    <$> field ms "path" string
    <*> field ms "digest" string

def signaturePolicy (v : Json μ) : Option SignaturePolicy := do
  let ms ← model ["algorithm", "key_id", "input_profile"] v
  SignaturePolicy.mk
    <$> field ms "algorithm" string
    <*> field ms "key_id" string
    <*> field ms "input_profile" literal

def testsIntegrity (v : Json μ) : Option (TestsIntegrity μ) := do
  let ms ← model ["tests", "lock", "artifact_checksums", "signature_policy", "extensions"] v
  TestsIntegrity.mk
    <$> field ms "tests" (tuple testDefinition)
    <*> field ms "lock" integrityLock
    <*> field ms "artifact_checksums" (tuple artifactChecksum)
    <*> field ms "signature_policy" signaturePolicy
    <*> extensions ms

def detachedSignature (v : Json μ) : Option (DetachedSignature μ) := do
  let ms ← model ["algorithm", "key_id", "value", "envelope"] v
  DetachedSignature.mk
    <$> field ms "algorithm" string
    <*> field ms "key_id" string
    <*> field ms "value" string
    <*> field ms "envelope" object

/-- The fields of a capsule. -/
def capsule [NumberReading μ] (v : Json μ) : Option (Capsule μ) := do
  let ms ← model ["control_manifest", "semantic_payload", "evidence_plane", "dependency_graph",
    "replacement_contract", "compression_policy", "tests_integrity", "detached_signature",
    "derived_artifacts", "runtime_sidecar"] v
  Capsule.mk
    <$> field ms "control_manifest" controlManifest
    <*> field ms "semantic_payload" semanticPayload
    <*> field ms "evidence_plane" evidencePlane
    <*> field ms "dependency_graph" dependencyGraph
    <*> field ms "replacement_contract" replacementContract
    <*> field ms "compression_policy" compressionPolicy
    <*> field ms "tests_integrity" testsIntegrity
    <*> fieldOr none ms "detached_signature" (optional detachedSignature)
    <*> fieldOr [] ms "derived_artifacts" object
    <*> fieldOr [] ms "runtime_sidecar" object

end Readers

end Wire

/-- `Capsule.model_validate_json` of the text of a value. -/
def modelValidate {F : Type} [FloatText F] (v : Value F) : Option (Capsule (Number F)) :=
  (Wire.capsule v).filter Capsule.valid

/-- `Capsule.model_validate_json`. -/
def modelValidateJson {F : Type} [FloatText F] (text : List Char) : Option (Capsule (Number F)) :=
  (loads text).bind modelValidate

end ContractCapsule.Models
