import ContractCapsule.Models.Wire

/-!
# Transports of Values

A `Transport` rewrites JSON values so that an object can still be read field by field. Every
projection of `models/canonical.py` is read back from its transport, model by model.
-/

namespace ContractCapsule.Models

open Library

/-- A rewriting of values that respects their structure and the fields of their objects. -/
structure Transport (F μ : Type) [FloatText F] [NumberReading μ] where
  value : Value F → Json μ
  members : Members (Number F) → Members μ
  number : Number F → μ
  float : Number F → μ
  value_null : value .null = .null
  value_bool : ∀ b, value (.bool b) = .bool b
  value_string : ∀ s, value (.string s) = .string s
  value_number : ∀ n, value (.number n) = .number (number n)
  value_array : ∀ xs, value (.array xs) = .array (xs.map value)
  value_object : ∀ ms, value (.object ms) = .object (members ms)
  lookup_members : ∀ ms k, (ms.map Prod.fst).Nodup →
    (members ms).lookup k = (ms.lookup k).map value
  asInt_number : ∀ i, NumberReading.asInt (number (.int i)) = some i
  asFloat_number : ∀ n, NumberReading.asFloat (number n) = some (float n)

namespace Transport

variable {F μ : Type} [FloatText F] [NumberReading μ]

/-! ## Section 1: Objects -/

/-- A field of an object has a value exactly when a member of the object has its name. -/
theorem lookup_isSome {ν : Type} {ms : Members ν} {k : String} :
    (ms.lookup k).isSome = true ↔ k ∈ ms.map Prod.fst := by
  induction ms with
  | nil => simp
  | cons m ms ih =>
    by_cases hk : k = m.1
    · simp [hk]
    · simp [hk, ← ih]

/-- A member of an object with distinct names is found under its name. -/
theorem lookup_of_mem {ν : Type} {ms : Members ν} (hnodup : (ms.map Prod.fst).Nodup)
    {m : String × Json ν} (hm : m ∈ ms) : ms.lookup m.1 = some m.2 := by
  induction ms with
  | nil => cases hm
  | cons n ms ih =>
    rw [List.map_cons, List.nodup_cons] at hnodup
    rcases List.mem_cons.mp hm with rfl | htail
    · rw [List.lookup_cons_self]
    · have hne : m.1 ≠ n.1 := fun heq => hnodup.1 (heq ▸ List.mem_map_of_mem htail)
      rw [List.lookup_cons, beq_false_of_ne hne, ih hnodup.2 htail]

/-- What the readers see of a transported object: its fields, transported. -/
theorem read (h : Transport F μ) (v : Value F) {ms : Members (Number F)} (hv : v = .object ms)
    (hnodup : (ms.map Prod.fst).Nodup) :
    ∃ ms', h.value v = .object ms' ∧
      (∀ fields : List String, (ms.map Prod.fst).all (fields.contains ·) = true →
        Wire.model fields (.object ms') = some ms') ∧
      (∀ m ∈ ms, ∀ (α : Type) (read : Json μ → Option α),
        Wire.field ms' m.1 read = read (h.value m.2)) ∧
      (∀ m ∈ ms, ∀ (α : Type) (default : α) (read : Json μ → Option α),
        Wire.fieldOr default ms' m.1 read = read (h.value m.2)) ∧
      ∀ k ∉ ms.map Prod.fst, ∀ (α : Type) (default : α) (read : Json μ → Option α),
        Wire.fieldOr default ms' k read = some default := by
  refine ⟨h.members ms, hv ▸ h.value_object ms, ?_, ?_, ?_, ?_⟩
  · intro fields hfields
    have hkeys : (h.members ms).all (fun m => fields.contains m.1) = true := by
      rw [List.all_eq_true]
      intro m hm
      -- a member that the transport keeps is a member of the object
      have hsome : ((h.members ms).lookup m.1).isSome = true :=
        lookup_isSome.mpr (List.mem_map_of_mem hm)
      rw [h.lookup_members ms m.1 hnodup, Option.isSome_map] at hsome
      exact List.all_eq_true.mp hfields m.1 (lookup_isSome.mp hsome)
    rw [Wire.model, Wire.object, Option.bind_some, if_pos hkeys]
  · intro m hm α read
    rw [Wire.field, h.lookup_members ms m.1 hnodup, lookup_of_mem hnodup hm]
    rfl
  · intro m hm α default read
    rw [Wire.fieldOr, h.lookup_members ms m.1 hnodup, lookup_of_mem hnodup hm]
    rfl
  · intro k hk α default read
    have hnone : ms.lookup k = none := by
      rw [← Option.not_isSome_iff_eq_none, lookup_isSome]
      exact hk
    rw [Wire.fieldOr, h.lookup_members ms k hnodup, hnone]
    rfl

/-! ## Section 2: Fields -/

@[simp]
theorem string_value (h : Transport F μ) (s : String) :
    Wire.string (h.value (.string s)) = some s := by
  rw [h.value_string, Wire.string]

@[simp]
theorem bool_value (h : Transport F μ) (b : Bool) : Wire.bool (h.value (.bool b)) = some b := by
  rw [h.value_bool, Wire.bool]

@[simp]
theorem integer_value (h : Transport F μ) (i : ℤ) : Wire.integer (h.value (integer i)) = some i := by
  rw [integer, h.value_number, Wire.integer, h.asInt_number]

@[simp]
theorem float_value (h : Transport F μ) (n : Number F) :
    Wire.float (h.value (.number n)) = some (h.float n) := by
  rw [h.value_number, Wire.float, h.asFloat_number]

@[simp]
theorem object_value (h : Transport F μ) (ms : Members (Number F)) :
    Wire.object (h.value (.object ms)) = some (h.members ms) := by
  rw [h.value_object, Wire.object]

/-- A tuple is read when its items are. -/
theorem tuple_value {α β : Type} (h : Transport F μ) {write : α → Value F}
    {read : Json μ → Option β} {f : α → β} (hread : ∀ a, read (h.value (write a)) = some (f a))
    (xs : List α) : Wire.tuple read (h.value (.array (xs.map write))) = some (xs.map f) := by
  rw [h.value_array, Wire.tuple]
  induction xs with
  | nil => rfl
  | cons x xs ih => simp only [List.map_cons, List.mapM_cons, hread, ih, Option.bind_eq_bind,
      Option.bind_some, Option.pure_def]

@[simp]
theorem strings_value (h : Transport F μ) (xs : List String) :
    Wire.strings (h.value (strings xs)) = some xs := by
  have hread : Wire.strings (h.value (.array (xs.map Json.string))) = some (xs.map id) :=
    h.tuple_value h.string_value xs
  rwa [List.map_id] at hread

@[simp]
theorem literal_value {α : Type} [Enumeration α] (h : Transport F μ) (a : α) :
    Wire.literal (h.value (literal a)) = some a := by
  rw [literal, Wire.literal, h.string_value, Option.bind_some]
  -- the values of an enumeration are told apart by their literals
  cases hfind : Enumeration.values.find? fun b : α => Enumeration.wire b == Enumeration.wire a with
  | none => simpa using List.find?_eq_none.mp hfind a (Enumeration.complete a)
  | some b => rw [Enumeration.injective b a (by simpa using List.find?_some hfind)]

@[simp]
theorem optionalString_value (h : Transport F μ) (s : Option String) :
    Wire.optional Wire.string (h.value (optionalString s)) = some s := by
  cases s with
  | none => rw [optionalString, h.value_null, Wire.optional]
  | some s => rw [optionalString, h.value_string]; rfl

/-! ## Section 3: Models -/

@[simp]
theorem scope_value (h : Transport F μ) (x : Scope) :
    Wire.scope (h.value (Canonical.scope x)) = some x := by
  obtain ⟨ms, hobject, hmodel, hfield, _⟩ := h.read (Canonical.scope x) rfl (by simp)
  simp only [List.forall_mem_cons] at hfield
  rw [Wire.scope, hobject, hmodel _ (by rfl)]
  simp [hfield]

@[simp]
theorem integrityReferences_value (h : Transport F μ) (x : IntegrityReferences) :
    Wire.integrityReferences (h.value (Canonical.integrityReferences x)) = some x := by
  obtain ⟨ms, hobject, hmodel, hfield, _⟩ := h.read (Canonical.integrityReferences x) rfl (by simp)
  simp only [List.forall_mem_cons] at hfield
  rw [Wire.integrityReferences, hobject, hmodel _ (by rfl)]
  simp [hfield]

/-- The manifest, transported. -/
def controlManifest (h : Transport F μ) (x : ControlManifest (Number F)) : ControlManifest μ :=
  { x with extensions := h.members x.extensions }

/-- The manifest is read from the wire dictionary. -/
@[simp]
theorem controlManifest_value (h : Transport F μ) (x : ControlManifest (Number F)) :
    Wire.controlManifest (h.value (manifestWire x)) = some (h.controlManifest x) := by
  obtain ⟨ms, hobject, hmodel, hfield, hdefault, _⟩ :=
    h.read (manifestWire x) rfl (by simp [Canonical.manifestMembers])
  simp only [Canonical.manifestMembers, List.cons_append, List.nil_append, List.forall_mem_cons]
    at hfield hdefault
  rw [Wire.controlManifest, hobject, hmodel _ (by rfl)]
  simp [hfield, Wire.manifestFields, Wire.extensions, hdefault, controlManifest]

/-- The identity projection of a manifest has its fields but the digest. -/
theorem manifestFields_value (h : Transport F μ) (x : ControlManifest (Number F)) :
    ((Wire.object (h.value (Canonical.manifest x))).bind (Wire.manifestFields "")) =
      some { h.controlManifest x with contentDigest := "" } := by
  obtain ⟨ms, hobject, hmodel, hfield, hdefault, _⟩ :=
    h.read (Canonical.manifest x) rfl (by simp [Canonical.manifestMembers])
  simp only [Canonical.manifestMembers, List.forall_mem_cons] at hfield hdefault
  rw [hobject, Wire.object, Option.bind_some]
  simp [hfield, Wire.manifestFields, Wire.extensions, hdefault, controlManifest]

@[simp]
theorem validity_value (h : Transport F μ) (x : Validity) :
    Wire.validity (h.value (Canonical.validity x)) = some x := by
  obtain ⟨ms, hobject, hmodel, hfield, _⟩ := h.read (Canonical.validity x) rfl (by simp)
  simp only [List.forall_mem_cons] at hfield
  rw [Wire.validity, hobject, hmodel _ (by rfl)]
  simp [hfield]

/-- An atom, transported. -/
def atom (h : Transport F μ) (x : Atom (Number F)) : Atom μ :=
  { x with confidence := h.float x.confidence, extensions := h.members x.extensions }

@[simp]
theorem atom_value (h : Transport F μ) (x : Atom (Number F)) :
    Wire.atom (h.value (Canonical.atom x)) = some (h.atom x) := by
  obtain ⟨ms, hobject, hmodel, hfield, hdefault, _⟩ := h.read (Canonical.atom x) rfl (by simp)
  simp only [List.forall_mem_cons] at hfield hdefault
  rw [Wire.atom, hobject, hmodel _ (by rfl)]
  simp [hfield, Wire.extensions, hdefault, atom]

/-- The payload, transported. -/
def semanticPayload (h : Transport F μ) (x : SemanticPayload (Number F)) : SemanticPayload μ :=
  { atoms := x.atoms.map h.atom, extensions := h.members x.extensions }

@[simp]
theorem semanticPayload_value (h : Transport F μ) (x : SemanticPayload (Number F)) :
    Wire.semanticPayload (h.value (Canonical.semanticPayload x)) = some (h.semanticPayload x) := by
  obtain ⟨ms, hobject, hmodel, hfield, hdefault, _⟩ := h.read (Canonical.semanticPayload x) rfl (by simp)
  simp only [List.forall_mem_cons] at hfield hdefault
  rw [Wire.semanticPayload, hobject, hmodel _ (by rfl)]
  simp [hfield, Wire.extensions, hdefault, semanticPayload, h.tuple_value h.atom_value]

@[simp]
theorem gitLocator_value (h : Transport F μ) (x : GitLocator) :
    Wire.gitLocator (h.value (Canonical.gitLocator x)) = some x := by
  obtain ⟨ms, hobject, hmodel, hfield, _⟩ := h.read (Canonical.gitLocator x) rfl (by simp)
  simp only [List.forall_mem_cons] at hfield
  rw [Wire.gitLocator, hobject, hmodel _ (by rfl)]
  simp [hfield]

/-- An evidence record, transported. -/
def evidenceRecord (h : Transport F μ) (x : EvidenceRecord (Number F)) : EvidenceRecord μ :=
  { x with extensions := h.members x.extensions }

@[simp]
theorem evidenceRecord_value (h : Transport F μ) (x : EvidenceRecord (Number F)) :
    Wire.evidenceRecord (h.value (Canonical.evidenceRecord x)) = some (h.evidenceRecord x) := by
  obtain ⟨ms, hobject, hmodel, hfield, hdefault, _⟩ :=
    h.read (Canonical.evidenceRecord x) rfl (by cases x.source <;> simp [Canonical.sourceMembers])
  simp only [List.forall_mem_cons] at hfield hdefault
  have hsource : Wire.evidenceSource x.mode (.object ms) = some x.source := by
    unfold Wire.evidenceSource EvidenceRecord.mode
    -- the mode decides which members there are beyond those of every record
    cases hs : x.source with
    | cas =>
      rw [hs] at hmodel
      simp [EvidenceSource.mode, hmodel Wire.evidenceFields (by rfl)]
    | gitImmutable repository revision path locator =>
      rw [hs] at hmodel hfield
      simp only [Canonical.sourceMembers, List.forall_mem_cons] at hfield
      have hread := hmodel (Wire.evidenceFields ++ ["repository", "revision", "path", "locator"])
        (by rfl)
      simp [EvidenceSource.mode, hread, hfield]
    | externalImmutable uri source verificationMethod =>
      rw [hs] at hmodel hfield
      simp only [Canonical.sourceMembers, List.forall_mem_cons] at hfield
      have hread := hmodel (Wire.evidenceFields ++ ["uri", "source", "verification_method"])
        (by rfl)
      simp [EvidenceSource.mode, hread, hfield]
  have hmode := hfield.1 String Wire.string
  rw [h.string_value] at hmode
  rw [Wire.evidenceRecord, hobject, Wire.object]
  simp [hmode, hfield, hsource, Wire.extensions, hdefault, evidenceRecord]

/-- The evidence plane, transported. -/
def evidencePlane (h : Transport F μ) (x : EvidencePlane (Number F)) : EvidencePlane μ :=
  { records := x.records.map h.evidenceRecord, extensions := h.members x.extensions }

@[simp]
theorem evidencePlane_value (h : Transport F μ) (x : EvidencePlane (Number F)) :
    Wire.evidencePlane (h.value (Canonical.evidencePlane x)) = some (h.evidencePlane x) := by
  obtain ⟨ms, hobject, hmodel, hfield, hdefault, _⟩ := h.read (Canonical.evidencePlane x) rfl (by simp)
  simp only [List.forall_mem_cons] at hfield hdefault
  rw [Wire.evidencePlane, hobject, hmodel _ (by rfl)]
  simp [hfield, Wire.extensions, hdefault, evidencePlane, h.tuple_value h.evidenceRecord_value]

/-- An edge, transported. -/
def dependencyEdge (h : Transport F μ) (x : DependencyEdge (Number F)) : DependencyEdge μ :=
  { x with extensions := h.members x.extensions }

@[simp]
theorem dependencyEdge_value (h : Transport F μ) (x : DependencyEdge (Number F)) :
    Wire.dependencyEdge (h.value (Canonical.dependencyEdge x)) = some (h.dependencyEdge x) := by
  obtain ⟨ms, hobject, hmodel, hfield, hdefault, _⟩ := h.read (Canonical.dependencyEdge x) rfl (by simp)
  simp only [List.forall_mem_cons] at hfield hdefault
  rw [Wire.dependencyEdge, hobject, hmodel _ (by rfl)]
  simp [hfield, Wire.extensions, hdefault, dependencyEdge]

/-- The dependency graph, transported. -/
def dependencyGraph (h : Transport F μ) (x : DependencyGraph (Number F)) : DependencyGraph μ :=
  { edges := x.edges.map h.dependencyEdge, extensions := h.members x.extensions }

@[simp]
theorem dependencyGraph_value (h : Transport F μ) (x : DependencyGraph (Number F)) :
    Wire.dependencyGraph (h.value (Canonical.dependencyGraph x)) = some (h.dependencyGraph x) := by
  obtain ⟨ms, hobject, hmodel, hfield, hdefault, _⟩ := h.read (Canonical.dependencyGraph x) rfl (by simp)
  simp only [List.forall_mem_cons] at hfield hdefault
  rw [Wire.dependencyGraph, hobject, hmodel _ (by rfl)]
  simp [hfield, Wire.extensions, hdefault, dependencyGraph, h.tuple_value h.dependencyEdge_value]

@[simp]
theorem verificationCommands_value (h : Transport F μ) (x : VerificationCommands) :
    Wire.verificationCommands (h.value (Canonical.verificationCommands x)) = some x := by
  obtain ⟨ms, hobject, hmodel, hfield, _⟩ := h.read (Canonical.verificationCommands x) rfl (by simp)
  simp only [List.forall_mem_cons] at hfield
  rw [Wire.verificationCommands, hobject, hmodel _ (by rfl)]
  simp [hfield]

@[simp]
theorem activationPolicy_value (h : Transport F μ) (x : ActivationPolicy) :
    Wire.activationPolicy (h.value (Canonical.activationPolicy x)) = some x := by
  obtain ⟨ms, hobject, hmodel, hfield, _⟩ := h.read (Canonical.activationPolicy x) rfl (by simp)
  simp only [List.forall_mem_cons] at hfield
  rw [Wire.activationPolicy, hobject, hmodel _ (by rfl)]
  simp [hfield]

@[simp]
theorem rollbackPolicy_value (h : Transport F μ) (x : RollbackPolicy) :
    Wire.rollbackPolicy (h.value (Canonical.rollbackPolicy x)) = some x := by
  obtain ⟨ms, hobject, hmodel, hfield, _⟩ := h.read (Canonical.rollbackPolicy x) rfl (by simp)
  simp only [List.forall_mem_cons] at hfield
  rw [Wire.rollbackPolicy, hobject, hmodel _ (by rfl)]
  simp [hfield]

/-- The contract, transported. -/
def replacementContract (h : Transport F μ) (x : ReplacementContract (Number F)) : ReplacementContract μ :=
  { x with extensions := h.members x.extensions }

@[simp]
theorem replacementContract_value (h : Transport F μ) (x : ReplacementContract (Number F)) :
    Wire.replacementContract (h.value (Canonical.replacementContract x)) = some (h.replacementContract x) := by
  obtain ⟨ms, hobject, hmodel, hfield, hdefault, _⟩ := h.read (Canonical.replacementContract x) rfl (by simp)
  simp only [List.forall_mem_cons] at hfield hdefault
  rw [Wire.replacementContract, hobject, hmodel _ (by rfl)]
  simp [hfield, Wire.extensions, hdefault, replacementContract]

@[simp]
theorem compressionClassPolicy_value (h : Transport F μ) (x : CompressionClassPolicy) :
    Wire.compressionClassPolicy (h.value (Canonical.compressionClassPolicy x)) = some x := by
  obtain ⟨ms, hobject, hmodel, hfield, _⟩ := h.read (Canonical.compressionClassPolicy x) rfl (by simp)
  simp only [List.forall_mem_cons] at hfield
  rw [Wire.compressionClassPolicy, hobject, hmodel _ (by rfl)]
  simp [hfield]

/-- The compression policy, transported. -/
def compressionPolicy (h : Transport F μ) (x : CompressionPolicy (Number F)) : CompressionPolicy μ :=
  { x with extensions := h.members x.extensions }

@[simp]
theorem compressionPolicy_value (h : Transport F μ) (x : CompressionPolicy (Number F)) :
    Wire.compressionPolicy (h.value (Canonical.compressionPolicy x)) = some (h.compressionPolicy x) := by
  obtain ⟨ms, hobject, hmodel, hfield, hdefault, _⟩ := h.read (Canonical.compressionPolicy x) rfl (by simp)
  simp only [List.forall_mem_cons] at hfield hdefault
  rw [Wire.compressionPolicy, hobject, hmodel _ (by rfl)]
  simp [hfield, Wire.extensions, hdefault, compressionPolicy,
    h.tuple_value (f := id) h.compressionClassPolicy_value]

@[simp]
theorem testDefinition_value (h : Transport F μ) (x : TestDefinition) :
    Wire.testDefinition (h.value (Canonical.testDefinition x)) = some x := by
  obtain ⟨ms, hobject, hmodel, hfield, _⟩ := h.read (Canonical.testDefinition x) rfl (by simp)
  simp only [List.forall_mem_cons] at hfield
  rw [Wire.testDefinition, hobject, hmodel _ (by rfl)]
  simp [hfield]

@[simp]
theorem capsuleDependency_value (h : Transport F μ) (x : CapsuleDependency) :
    Wire.capsuleDependency (h.value (Canonical.capsuleDependency x)) = some x := by
  obtain ⟨ms, hobject, hmodel, hfield, _⟩ := h.read (Canonical.capsuleDependency x) rfl (by simp)
  simp only [List.forall_mem_cons] at hfield
  rw [Wire.capsuleDependency, hobject, hmodel _ (by rfl)]
  simp [hfield]

/-- The lock, transported. -/
def integrityLock (h : Transport F μ) (x : IntegrityLock (Number F)) : IntegrityLock μ :=
  { x with extensions := h.members x.extensions }

@[simp]
theorem integrityLock_value (h : Transport F μ) (x : IntegrityLock (Number F)) :
    Wire.integrityLock (h.value (Canonical.integrityLock x)) = some (h.integrityLock x) := by
  obtain ⟨ms, hobject, hmodel, hfield, hdefault, _⟩ := h.read (Canonical.integrityLock x) rfl (by simp)
  simp only [List.forall_mem_cons] at hfield hdefault
  rw [Wire.integrityLock, hobject, hmodel _ (by rfl)]
  simp [hfield, Wire.extensions, hdefault, integrityLock,
    h.tuple_value (f := id) h.capsuleDependency_value]

@[simp]
theorem artifactChecksum_value (h : Transport F μ) (x : ArtifactChecksum) :
    Wire.artifactChecksum (h.value (Canonical.artifactChecksum x)) = some x := by
  obtain ⟨ms, hobject, hmodel, hfield, _⟩ := h.read (Canonical.artifactChecksum x) rfl (by simp)
  simp only [List.forall_mem_cons] at hfield
  rw [Wire.artifactChecksum, hobject, hmodel _ (by rfl)]
  simp [hfield]

@[simp]
theorem signaturePolicy_value (h : Transport F μ) (x : SignaturePolicy) :
    Wire.signaturePolicy (h.value (Canonical.signaturePolicy x)) = some x := by
  obtain ⟨ms, hobject, hmodel, hfield, _⟩ := h.read (Canonical.signaturePolicy x) rfl (by simp)
  simp only [List.forall_mem_cons] at hfield
  rw [Wire.signaturePolicy, hobject, hmodel _ (by rfl)]
  simp [hfield]

/-- The tests and integrity module, transported. -/
def testsIntegrity (h : Transport F μ) (x : TestsIntegrity (Number F)) : TestsIntegrity μ :=
  { x with lock := h.integrityLock x.lock, extensions := h.members x.extensions }

@[simp]
theorem testsIntegrity_value (h : Transport F μ) (x : TestsIntegrity (Number F)) :
    Wire.testsIntegrity (h.value (Canonical.testsIntegrity x)) = some (h.testsIntegrity x) := by
  obtain ⟨ms, hobject, hmodel, hfield, hdefault, _⟩ := h.read (Canonical.testsIntegrity x) rfl (by simp)
  simp only [List.forall_mem_cons] at hfield hdefault
  rw [Wire.testsIntegrity, hobject, hmodel _ (by rfl)]
  simp [hfield, Wire.extensions, hdefault, testsIntegrity,
    h.tuple_value (f := id) h.testDefinition_value, h.tuple_value (f := id) h.artifactChecksum_value]

/-- The signature, transported. -/
def detachedSignature (h : Transport F μ) (x : DetachedSignature (Number F)) : DetachedSignature μ :=
  { x with envelope := h.members x.envelope }

@[simp]
theorem detachedSignature_value (h : Transport F μ) (x : DetachedSignature (Number F)) :
    Wire.detachedSignature (h.value (Canonical.detachedSignature x)) = some (h.detachedSignature x) := by
  obtain ⟨ms, hobject, hmodel, hfield, hdefault, _⟩ := h.read (Canonical.detachedSignature x) rfl (by simp)
  simp only [List.forall_mem_cons] at hfield hdefault
  rw [Wire.detachedSignature, hobject, hmodel _ (by rfl)]
  simp [hfield, detachedSignature]

/-- A capsule, transported. -/
def capsule (h : Transport F μ) (c : Capsule (Number F)) : Capsule μ where
  controlManifest := h.controlManifest c.controlManifest
  semanticPayload := h.semanticPayload c.semanticPayload
  evidencePlane := h.evidencePlane c.evidencePlane
  dependencyGraph := h.dependencyGraph c.dependencyGraph
  replacementContract := h.replacementContract c.replacementContract
  compressionPolicy := h.compressionPolicy c.compressionPolicy
  testsIntegrity := h.testsIntegrity c.testsIntegrity
  detachedSignature := c.detachedSignature.map h.detachedSignature
  derivedArtifacts := h.members c.derivedArtifacts
  runtimeSidecar := h.members c.runtimeSidecar

/-- A capsule is read from the transport of its wire dictionary. -/
theorem capsule_value (h : Transport F μ) (c : Capsule (Number F)) :
    Wire.capsule (h.value (capsuleWireDict c)) = some (h.capsule c) := by
  cases hs : c.detachedSignature with
  | none =>
    obtain ⟨ms, hobject, hmodel, hfield, hdefault, hmissing⟩ := h.read (capsuleWireDict c) rfl
      (by simp [coreMembers, signatureMembers, hs])
    rw [hs] at hmodel hfield hdefault hmissing
    simp only [coreMembers, signatureMembers, List.cons_append, List.nil_append, List.append_nil,
      List.forall_mem_cons] at hfield hdefault
    rw [Wire.capsule, hobject, hmodel _ (by rfl)]
    have hnone := hmissing "detached_signature" (by simp [coreMembers, signatureMembers])
    simp [hfield, hdefault, hnone, capsule, hs]
  | some signature =>
    obtain ⟨ms, hobject, hmodel, hfield, hdefault, _⟩ := h.read (capsuleWireDict c) rfl
      (by simp [coreMembers, signatureMembers, hs])
    rw [hs] at hmodel hfield hdefault
    simp only [coreMembers, signatureMembers, List.cons_append, List.nil_append,
      List.forall_mem_cons] at hfield hdefault
    rw [Wire.capsule, hobject, hmodel _ (by rfl)]
    -- a signature is an object, so it is no `null`
    have hread : Wire.optional Wire.detachedSignature (h.value (Canonical.detachedSignature signature)) =
        some (some (h.detachedSignature signature)) := by
      have hvalue := h.detachedSignature_value signature
      rw [Canonical.detachedSignature, h.value_object] at hvalue ⊢
      rw [Wire.optional, hvalue]
      · rfl
      · exact fun heq => nomatch heq
    simp [hfield, hdefault, hread, capsule, hs]

end Transport

end ContractCapsule.Models
