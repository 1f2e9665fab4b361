import ContractCapsule.Models.Core

/-!
# The Canonical Profile

The JSON texts of the program and the explicit identity projection of
`models/canonical.py`: `canonicalText` is the RFC 8785 text of a value, `dumps` and `loads`
are Python's, and `identityProjection` and `capsuleWireDict` list the fields of the seven
modules as the source writes them out. Bytes are the UTF-8 of a text and stand as the text.

`canonicalText_eq_iff` says that canonical texts are equal exactly for values that are equal
by value, and `loads_canonicalText` what reading a canonical text gives.
-/

namespace ContractCapsule.Models

open Library
open Enumeration (wire)

/-! ## Section 1: JSON texts -/

/-- RFC 8785, and `json.dumps` with `separators=(",", ":")` and `ensure_ascii=False`. -/
def compactStyle : Json.Style where
  afterComma := []
  afterColon := []
  escape := Json.escape
  blank_comma := by simp
  blank_colon := by simp
  reads := Json.scanString_escape

/-- `json.dumps` with `ensure_ascii=False`. -/
def unicodeStyle : Json.Style where
  afterComma := [' ']
  afterColon := [' ']
  escape := Json.escape
  blank_comma := by simp [Json.isBlank]
  blank_colon := by simp [Json.isBlank]
  reads := Json.scanString_escape

/-- `json.dumps`. -/
def asciiStyle : Json.Style where
  afterComma := [' ']
  afterColon := [' ']
  escape := Json.escapeAscii
  blank_comma := by simp [Json.isBlank]
  blank_colon := by simp [Json.isBlank]
  reads := Json.scanString_escapeAscii

section Texts

variable {F : Type} [FloatText F]

/-- `json.dumps`. -/
def dumps (style : Json.Style) (v : Value F) : List Char := style.write (v.map Number.lexeme)

/-- `json.loads`. The constants `NaN` and `Infinity` are refused here; every model refuses them. -/
def loads (text : List Char) : Option (Value F) :=
  (Json.read text).bind fun raw => (raw.traverse Number.read).map Json.collapse

/-- The RFC 8785 text of a value. -/
def canonicalText (v : Value F) : List Char :=
  compactStyle.write ((v.sortKeys utf16).map Number.jcsLexeme)

/-- `canonical_json_bytes`: integers beyond the exact range have no canonical text. -/
def canonicalJsonBytes (v : Value F) : Option (List Char) :=
  if v.numbersAll Number.exact then some (canonicalText v) else none

/-- The number that the canonical text of a number is read as. -/
def reread (n : Number F) : Number F := (Number.read n.jcsLexeme).getD n

theorem read_jcsLexeme_reread (n : Number F) : Number.read n.jcsLexeme = some (reread n) := by
  obtain ⟨m, hread⟩ := Number.exists_read_jcsLexeme n
  simp [reread, hread]

/-- A number that is written with its own digits is worth the same after its text was read. -/
theorem reread_value {n : Number F} (hn : n.inexactIntegral = false) :
    (reread n).value = n.value := by
  obtain ⟨m, hread, hvalue⟩ := Number.read_jcsLexeme_value hn
  simp [reread, hread, hvalue]

/-- A value whose numbers are written out has valid numbers only. -/
theorem numbersAll_lexeme {ν : Type} {f : ν → List Char} (h : ∀ n, Json.validNumber (f n) = true)
    (v : Json ν) : (v.map f).numbersAll Json.validNumber = true :=
  (Json.numbersAll_map (q := fun _ => true) h v).trans (Json.numbersAll_true v)

/-- `json.loads` undoes `json.dumps`, also with white space after the text. -/
theorem loads_dumps (style : Json.Style) {v : Value F} (hv : v.distinct = true)
    {blanks : List Char} (hblank : ∀ c ∈ blanks, Json.isBlank c = true) :
    loads (dumps style v ++ blanks) = some v := by
  have hread := @Json.read_write style _ (numbersAll_lexeme Number.lexeme_valid v) _ hblank
  have htraverse : (v.map Number.lexeme).traverse Number.read = some (v.map id) :=
    Json.traverse_map Number.read_lexeme v
  rw [loads, dumps, hread, Option.bind_some, htraverse, Json.map_id, Option.map_some,
    Json.collapse_eq_self hv]

/-- Reading a canonical text gives the value with its members in key order and its numbers as
their canonical texts are read. -/
theorem loads_canonicalText {v : Value F} (hv : v.distinct = true) :
    loads (canonicalText v) = some ((v.sortKeys utf16).map reread) := by
  have hnone : ∀ c ∈ ([] : List Char), Json.isBlank c = true := by simp
  have hread := @Json.read_write compactStyle _
    (numbersAll_lexeme Number.jcsLexeme_valid (v.sortKeys utf16)) _ hnone
  rw [List.append_nil] at hread
  have htraverse := Json.traverse_map read_jcsLexeme_reread (v.sortKeys utf16)
  have hdistinct : ((v.sortKeys utf16).map reread).distinct = true := by
    rw [Json.distinct_map, Json.distinct_sortKeys, hv]
  rw [loads, canonicalText, hread, Option.bind_some, htraverse, Option.map_some,
    Json.collapse_eq_self hdistinct]

/-- What the canonical text of a value without integral floats beyond the exact integers is read as
is equal by value. -/
theorem same_reread {v : Value F} (hv : v.numbersAll (fun n => !n.inexactIntegral) = true) :
    Same ((v.sortKeys utf16).map reread) v := by
  unfold Same Json.Same
  rw [Json.sortKeys_map, Json.sortKeys_sortKeys, Json.map_map]
  rw [← Json.numbersAll_sortKeys utf16] at hv
  exact Json.map_congr_of_numbersAll hv fun n hn => reread_value (by simpa using hn)

/-- Canonical texts are equal exactly for values that are written alike. -/
theorem canonicalText_eq_iff_same {v w : Value F} :
    canonicalText v = canonicalText w ↔ Json.Same utf16 Number.jcsLexeme v w := by
  constructor
  · intro h
    exact Json.write_injective (numbersAll_lexeme Number.jcsLexeme_valid _)
      (numbersAll_lexeme Number.jcsLexeme_valid _) h
  · intro h
    exact congrArg compactStyle.write h

/-- A canonical text has no control characters. -/
theorem control_notMem_canonicalText {c : Char} (hc : c.toNat < 32) (v : Value F) :
    c ∉ canonicalText v :=
  Json.control_notMem_write hc List.not_mem_nil List.not_mem_nil (Json.control_notMem_escape hc)
    (numbersAll_lexeme Number.jcsLexeme_valid _)

/-- Values with exact integers have one canonical text exactly when they are equal by value. -/
theorem canonicalText_eq_iff {v w : Value F} (hv : v.numbersAll Number.exact = true)
    (hw : w.numbersAll Number.exact = true) : canonicalText v = canonicalText w ↔ Same v w := by
  have hv' : (v.sortKeys utf16).numbersAll Number.exact = true := by rwa [Json.numbersAll_sortKeys]
  have hw' : (w.sortKeys utf16).numbersAll Number.exact = true := by rwa [Json.numbersAll_sortKeys]
  refine ⟨fun h => ?_, fun h => ?_⟩
  · have hraw := Json.write_injective (numbersAll_lexeme Number.jcsLexeme_valid _)
      (numbersAll_lexeme Number.jcsLexeme_valid _) h
    exact Json.map_eq_map_of_imp hv' hw'
      (fun m n hm hn heq => (Number.jcsLexeme_eq_iff hm hn).mp heq) hraw
  · exact congrArg compactStyle.write (Json.map_eq_map_of_imp hv' hw'
      (fun m n hm hn heq => (Number.jcsLexeme_eq_iff hm hn).mpr heq) h)

end Texts

/-! ## Section 2: The identity projection -/

section Projection

variable {F : Type}

/-- A list of strings. -/
def strings (values : List String) : Value F := .array (values.map .string)

/-- A string or `null`. -/
def optionalString : Option String → Value F
  | none => .null
  | some s => .string s

/-- A literal. -/
def literal {α : Type} [Enumeration α] (a : α) : Value F := .string (wire a)

/-- An integer. -/
def integer (i : ℤ) : Value F := .number (.int i)

namespace Canonical

def scope (s : Scope) : Value F :=
  .object
    [("repositories", strings s.repositories),
     ("paths", strings s.paths),
     ("environments", strings s.environments)]

def integrityReferences (i : IntegrityReferences) : Value F :=
  .object [("lock", .string i.lock), ("signature", optionalString i.signature)]

/-- The members of `_manifest`; `content_digest` is not among them. -/
def manifestMembers (m : ControlManifest (Number F)) : Members (Number F) :=
  [("spec_version", literal m.specVersion),
   ("canonical_profile", literal m.canonicalProfile),
   ("capsule_id", .string m.capsuleId),
   ("version", .string m.version),
   ("owner", .string m.owner),
   ("tenant", .string m.tenant),
   ("scope", scope m.scope),
   ("authority", .string m.authority),
   ("sensitivity", literal m.sensitivity),
   ("provides", strings m.provides),
   ("requires", strings m.requires),
   ("conflicts", strings m.conflicts),
   ("lifecycle", literal m.lifecycle),
   ("created_from", strings m.createdFrom),
   ("integrity", integrityReferences m.integrity),
   ("extensions", .object m.extensions)]

/-- `_manifest`. -/
def manifest (m : ControlManifest (Number F)) : Value F := .object (manifestMembers m)

def validity (v : Validity) : Value F :=
  .object [("from", .string v.from_), ("until", optionalString v.until_)]

def atom (a : Atom (Number F)) : Value F :=
  .object
    [("atom_id", .string a.atomId),
     ("kind", literal a.kind),
     ("statement", .string a.statement),
     ("modality", literal a.modality),
     ("scope", strings a.scope),
     ("exceptions", strings a.exceptions),
     ("validity", validity a.validity),
     ("authority", .string a.authority),
     ("status", literal a.status),
     ("confidence", .number a.confidence),
     ("evidence_refs", strings a.evidenceRefs),
     ("requires_atoms", strings a.requiresAtoms),
     ("conflicts_with", strings a.conflictsWith),
     ("sensitivity", literal a.sensitivity),
     ("compression_class", literal a.compressionClass),
     ("refresh_policy", .string a.refreshPolicy),
     ("extensions", .object a.extensions)]

/-- `_semantic_payload`. -/
def semanticPayload (p : SemanticPayload (Number F)) : Value F :=
  .object [("atoms", .array (p.atoms.map atom)), ("extensions", .object p.extensions)]

def gitLocator (l : GitLocator) : Value F :=
  .object
    [("symbol_or_heading", .string l.symbolOrHeading),
     ("start_line", integer l.startLine),
     ("end_line", integer l.endLine),
     ("span_digest", .string l.spanDigest)]

/-- The members that the mode of a record adds. -/
def sourceMembers : EvidenceSource → Members (Number F)
  | .cas => []
  | .gitImmutable repository revision path locator =>
    [("repository", .string repository),
     ("revision", .string revision),
     ("path", .string path),
     ("locator", gitLocator locator)]
  | .externalImmutable uri source verificationMethod =>
    [("uri", .string uri),
     ("source", .string source),
     ("verification_method", .string verificationMethod)]

def evidenceRecord (r : EvidenceRecord (Number F)) : Value F :=
  .object
    (("mode", .string r.mode) ::
     ("evidence_id", .string r.evidenceId) ::
     ("atom_ids", strings r.atomIds) ::
     ("content_digest", .string r.contentDigest) ::
     ("media_type", .string r.mediaType) ::
     ("captured_at", .string r.capturedAt) ::
     ("retention", .string r.retention) ::
     ("access_policy", .string r.accessPolicy) ::
     ("validation", literal r.validation) ::
     ("extensions", .object r.extensions) ::
     sourceMembers r.source)

/-- `_evidence_plane`. -/
def evidencePlane (p : EvidencePlane (Number F)) : Value F :=
  .object [("records", .array (p.records.map evidenceRecord)), ("extensions", .object p.extensions)]

def dependencyEdge (e : DependencyEdge (Number F)) : Value F :=
  .object
    [("source", .string e.source),
     ("target", .string e.target),
     ("edge_type", literal e.edgeType),
     ("version_constraint", optionalString e.versionConstraint),
     ("mandatory", .bool e.mandatory),
     ("extensions", .object e.extensions)]

/-- `_dependency_graph`. -/
def dependencyGraph (g : DependencyGraph (Number F)) : Value F :=
  .object [("edges", .array (g.edges.map dependencyEdge)), ("extensions", .object g.extensions)]

def verificationCommands (v : VerificationCommands) : Value F :=
  .object
    [("static", strings v.static),
     ("behavioral", strings v.behavioral),
     ("differential", strings v.differential)]

def activationPolicy (a : ActivationPolicy) : Value F :=
  .object
    [("risk", literal a.risk),
     ("approval_required", .bool a.approvalRequired),
     ("safe_boundary", literal a.safeBoundary)]

def rollbackPolicy (r : RollbackPolicy) : Value F :=
  .object
    [("pointer", .string r.pointer), ("compensating_action", optionalString r.compensatingAction)]

/-- `_replacement_contract`. -/
def replacementContract (c : ReplacementContract (Number F)) : Value F :=
  .object
    [("contract_id", .string c.contractId),
     ("replaces", optionalString c.replaces),
     ("preconditions", strings c.preconditions),
     ("target_effects", strings c.targetEffects),
     ("protected_invariants", strings c.protectedInvariants),
     ("allowed_scope", strings c.allowedScope),
     ("forbidden_spillover", strings c.forbiddenSpillover),
     ("verification", verificationCommands c.verification),
     ("activation", activationPolicy c.activation),
     ("rollback", rollbackPolicy c.rollback),
     ("extensions", .object c.extensions)]

def compressionClassPolicy (c : CompressionClassPolicy) : Value F :=
  .object
    [("name", literal c.name),
     ("rendering", .string c.rendering),
     ("lossy_compression", literal c.lossyCompression),
     ("expansion_triggers", strings c.expansionTriggers),
     ("ttl", optionalString c.ttl)]

/-- `_compression_policy`. -/
def compressionPolicy (p : CompressionPolicy (Number F)) : Value F :=
  .object
    [("policy_version", .string p.policyVersion),
     ("classes", .array (p.classes.map compressionClassPolicy)),
     ("extensions", .object p.extensions)]

def testDefinition (t : TestDefinition) : Value F :=
  .object
    [("test_id", .string t.testId),
     ("kind", literal t.kind),
     ("path", .string t.path),
     ("digest", .string t.digest)]

def capsuleDependency (d : CapsuleDependency) : Value F :=
  .object
    [("capsule_id", .string d.capsuleId),
     ("version", .string d.version),
     ("digest", .string d.digest)]

def integrityLock (l : IntegrityLock (Number F)) : Value F :=
  .object
    [("capsule_dependencies", .array (l.capsuleDependencies.map capsuleDependency)),
     ("source_commits", strings l.sourceCommits),
     ("compiler_version", .string l.compilerVersion),
     ("adapter_versions", strings l.adapterVersions),
     ("compression_policy_version", .string l.compressionPolicyVersion),
     ("test_set_version", .string l.testSetVersion),
     ("model_series", strings l.modelSeries),
     ("parameters", strings l.parameters),
     ("runtime_config_digest", .string l.runtimeConfigDigest),
     ("extensions", .object l.extensions)]

def artifactChecksum (c : ArtifactChecksum) : Value F :=
  .object [("path", .string c.path), ("digest", .string c.digest)]

def signaturePolicy (p : SignaturePolicy) : Value F :=
  .object
    [("algorithm", .string p.algorithm),
     ("key_id", .string p.keyId),
     ("input_profile", literal p.inputProfile)]

/-- `_tests_integrity`. -/
def testsIntegrity (t : TestsIntegrity (Number F)) : Value F :=
  .object
    [("tests", .array (t.tests.map testDefinition)),
     ("lock", integrityLock t.lock),
     ("artifact_checksums", .array (t.artifactChecksums.map artifactChecksum)),
     ("signature_policy", signaturePolicy t.signaturePolicy),
     ("extensions", .object t.extensions)]

def detachedSignature (s : DetachedSignature (Number F)) : Value F :=
  .object
    [("algorithm", .string s.algorithm),
     ("key_id", .string s.keyId),
     ("value", .string s.value),
     ("envelope", .object s.envelope)]

end Canonical

open Canonical

/-- `identity_projection`. -/
def identityProjection (c : Capsule (Number F)) : Value F :=
  .object
    [("profile", .string "CCS-2.1-canonical-v1"),
     ("core", .object
       [("control_manifest", manifest c.controlManifest),
        ("semantic_payload", semanticPayload c.semanticPayload),
        ("evidence_plane", evidencePlane c.evidencePlane),
        ("dependency_graph", dependencyGraph c.dependencyGraph),
        ("replacement_contract", replacementContract c.replacementContract),
        ("compression_policy", compressionPolicy c.compressionPolicy),
        ("tests_integrity", testsIntegrity c.testsIntegrity)])]

/-- The manifest of `capsule_wire_dict`, with its digest. -/
def manifestWire (m : ControlManifest (Number F)) : Value F :=
  .object (manifestMembers m ++ [("content_digest", .string m.contentDigest)])

/-- The core modules of `capsule_wire_dict`. -/
def coreMembers (c : Capsule (Number F)) : Members (Number F) :=
  [("control_manifest", manifestWire c.controlManifest),
   ("semantic_payload", semanticPayload c.semanticPayload),
   ("evidence_plane", evidencePlane c.evidencePlane),
   ("dependency_graph", dependencyGraph c.dependencyGraph),
   ("replacement_contract", replacementContract c.replacementContract),
   ("compression_policy", compressionPolicy c.compressionPolicy),
   ("tests_integrity", testsIntegrity c.testsIntegrity)]

/-- The signature in `capsule_wire_dict`; an unsigned capsule has no such member. -/
def signatureMembers (s : Option (DetachedSignature (Number F))) : Members (Number F) :=
  match s with
  | none => []
  | some signature => [("detached_signature", detachedSignature signature)]

/-- `capsule_wire_dict`. -/
def capsuleWireDict (c : Capsule (Number F)) : Value F :=
  .object (coreMembers c ++ signatureMembers c.detachedSignature ++
    [("derived_artifacts", .object c.derivedArtifacts),
     ("runtime_sidecar", .object c.runtimeSidecar)])

/-- `canonical_digest`, for a digest of canonical texts. -/
def canonicalDigest [FloatText F] (sha256 : List Char → String) (c : Capsule (Number F)) : String :=
  sha256 (canonicalText (identityProjection c))

end Projection

end ContractCapsule.Models
