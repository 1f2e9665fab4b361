import ContractCapsule.Models.Canonical

/-!
# The Projections of Valid Models

A valid capsule has exact integers and objects with distinct names only, so its projections have
a canonical text and survive a reading of their texts.
-/

namespace ContractCapsule.Models

open Library

variable {F : Type}

/-! ## Section 1: Values -/

@[simp]
theorem freezable_null : freezable (.null : Value F) = true := rfl

@[simp]
theorem freezable_bool (b : Bool) : freezable (.bool b : Value F) = true := rfl

@[simp]
theorem freezable_string (s : String) : freezable (.string s : Value F) = true := rfl

@[simp]
theorem freezable_number (n : Number F) : freezable (.number n) = n.exact := by
  simp [freezable, Json.numbersAll, Json.distinct]

@[simp]
theorem freezable_array (xs : List (Value F)) : freezable (.array xs) = xs.all freezable := by
  simp only [freezable, Json.numbersAll, Json.itemsAll_eq, Json.distinct, Json.distinctItems_eq]
  rw [Bool.eq_iff_iff]
  simp only [Bool.and_eq_true, List.all_eq_true, freezable]
  exact forall₂_and.symm

/-- An object is frozen when its names are distinct and its values are frozen. -/
theorem freezable_object (ms : Members (Number F)) :
    freezable (.object ms) = (decide (ms.map Prod.fst).Nodup && ms.all fun m => freezable m.2) := by
  simp only [freezable, Json.numbersAll, Json.membersAll_eq, Json.distinct, Json.distinctMembers_eq]
  rw [Bool.eq_iff_iff]
  simp only [Bool.and_eq_true, List.all_eq_true]
  constructor
  · rintro ⟨hexact, hnodup, hdistinct⟩
    exact ⟨hnodup, fun m hm => ⟨hexact m hm, hdistinct m hm⟩⟩
  · rintro ⟨hnodup, hall⟩
    exact ⟨fun m hm => (hall m hm).1, hnodup, fun m hm => (hall m hm).2⟩

@[simp]
theorem freezable_strings (xs : List String) : freezable (strings xs : Value F) = true := by
  simp [strings]

@[simp]
theorem freezable_literal {α : Type} [Enumeration α] (a : α) :
    freezable (literal a : Value F) = true := by
  simp [literal]

@[simp]
theorem freezable_optionalString (s : Option String) :
    freezable (optionalString s : Value F) = true := by
  cases s <;> simp [optionalString]

theorem freezable_of_validExtensions {ms : Members (Number F)} (h : validExtensions ms = true) :
    freezable (.object ms) = true := by
  simp only [validExtensions, Bool.and_eq_true] at h
  exact h.2

/-- A frozen value has exact integers. -/
theorem numbersAll_of_freezable {v : Value F} (h : freezable v = true) :
    v.numbersAll Number.exact = true := by
  simp only [freezable, Bool.and_eq_true] at h
  exact h.1

/-- A frozen value has objects with distinct names. -/
theorem distinct_of_freezable {v : Value F} (h : freezable v = true) : v.distinct = true := by
  simp only [freezable, Bool.and_eq_true] at h
  exact h.2

/-! ## Section 2: Models -/

@[simp]
theorem freezable_scope (x : Scope) : freezable (Canonical.scope x : Value F) = true := by
  simp [Canonical.scope, freezable_object]

@[simp]
theorem freezable_integrityReferences (x : IntegrityReferences) : freezable (Canonical.integrityReferences x : Value F) = true := by
  simp [Canonical.integrityReferences, freezable_object]

theorem freezable_manifest {x : ControlManifest (Number F)} (h : x.valid = true) :
    freezable (Canonical.manifest x) = true := by
  simp only [ControlManifest.valid, Bool.and_eq_true] at h
  have hext := freezable_of_validExtensions h.2
  simp [Canonical.manifest, freezable_object, hext, Canonical.manifestMembers]

theorem freezable_manifestWire {x : ControlManifest (Number F)} (h : x.valid = true) :
    freezable (manifestWire x) = true := by
  simp only [ControlManifest.valid, Bool.and_eq_true] at h
  have hext := freezable_of_validExtensions h.2
  simp [manifestWire, freezable_object, hext, Canonical.manifestMembers]

@[simp]
theorem freezable_validity (x : Validity) : freezable (Canonical.validity x : Value F) = true := by
  simp [Canonical.validity, freezable_object]

theorem freezable_atom [FloatText F] {x : Atom (Number F)} (h : x.valid = true) :
    freezable (Canonical.atom x) = true := by
  simp only [Atom.valid, Bool.and_eq_true] at h
  have hext := freezable_of_validExtensions h.1.2
  have hfloat : x.confidence.exact = true := by
    cases hc : x.confidence with
    | int i => simp [hc, validConfidence] at h
    | float y => rfl
  simp [Canonical.atom, freezable_object, hext, hfloat]

theorem freezable_semanticPayload [FloatText F] {x : SemanticPayload (Number F)} (h : x.valid = true) :
    freezable (Canonical.semanticPayload x) = true := by
  simp only [SemanticPayload.valid, Bool.and_eq_true, List.all_eq_true] at h
  have hext := freezable_of_validExtensions h.1.2
  have hitems := fun y hy => freezable_atom (h.1.1.1 y hy)
  simpa [Canonical.semanticPayload, freezable_object, hext] using hitems

theorem freezable_gitLocator {x : GitLocator} (h : x.valid = true) :
    freezable (Canonical.gitLocator x : Value F) = true := by
  simp only [GitLocator.valid, Bool.and_eq_true, decide_eq_true_eq] at h
  have hstart : x.startLine.natAbs ≤ 2 ^ 53 - 1 := by omega
  have hend : x.endLine.natAbs ≤ 2 ^ 53 - 1 := by omega
  simp only [Canonical.gitLocator, integer]
  simpa [freezable_object, Number.exact] using And.intro hstart hend

theorem freezable_evidenceRecord {x : EvidenceRecord (Number F)} (h : x.valid = true) :
    freezable (Canonical.evidenceRecord x) = true := by
  simp only [EvidenceRecord.valid, Bool.and_eq_true] at h
  have hext := freezable_of_validExtensions h.1.2
  have hsource := h.2
  unfold Canonical.evidenceRecord
  cases hs : x.source with
  | cas => simp [Canonical.sourceMembers, freezable_object, hext]
  | gitImmutable repository revision path locator =>
    simp only [hs, EvidenceSource.valid, Bool.and_eq_true] at hsource
    have hlocator : freezable (Canonical.gitLocator locator : Value F) = true :=
      freezable_gitLocator hsource.1.1.2
    simp [Canonical.sourceMembers, freezable_object, hext, hlocator]
  | externalImmutable uri source verificationMethod =>
    simp [Canonical.sourceMembers, freezable_object, hext]

theorem freezable_evidencePlane {x : EvidencePlane (Number F)} (h : x.valid = true) :
    freezable (Canonical.evidencePlane x) = true := by
  simp only [EvidencePlane.valid, Bool.and_eq_true, List.all_eq_true] at h
  have hext := freezable_of_validExtensions h.1.2
  have hitems := fun y hy => freezable_evidenceRecord (h.1.1.1 y hy)
  simpa [Canonical.evidencePlane, freezable_object, hext] using hitems

theorem freezable_dependencyEdge {x : DependencyEdge (Number F)} (h : x.valid = true) :
    freezable (Canonical.dependencyEdge x) = true := by
  simp only [DependencyEdge.valid, Bool.and_eq_true] at h
  have hext := freezable_of_validExtensions h.2
  simp [Canonical.dependencyEdge, freezable_object, hext]

theorem freezable_dependencyGraph {x : DependencyGraph (Number F)} (h : x.valid = true) :
    freezable (Canonical.dependencyGraph x) = true := by
  simp only [DependencyGraph.valid, Bool.and_eq_true, List.all_eq_true] at h
  have hext := freezable_of_validExtensions h.1.2
  have hitems := fun y hy => freezable_dependencyEdge (h.1.1 y hy)
  simpa [Canonical.dependencyGraph, freezable_object, hext] using hitems

@[simp]
theorem freezable_verificationCommands (x : VerificationCommands) : freezable (Canonical.verificationCommands x : Value F) = true := by
  simp [Canonical.verificationCommands, freezable_object]

@[simp]
theorem freezable_activationPolicy (x : ActivationPolicy) : freezable (Canonical.activationPolicy x : Value F) = true := by
  simp [Canonical.activationPolicy, freezable_object]

@[simp]
theorem freezable_rollbackPolicy (x : RollbackPolicy) : freezable (Canonical.rollbackPolicy x : Value F) = true := by
  simp [Canonical.rollbackPolicy, freezable_object]

theorem freezable_replacementContract {x : ReplacementContract (Number F)} (h : x.valid = true) :
    freezable (Canonical.replacementContract x) = true := by
  simp only [ReplacementContract.valid, Bool.and_eq_true] at h
  have hext := freezable_of_validExtensions h.2
  simp [Canonical.replacementContract, freezable_object, hext]

@[simp]
theorem freezable_compressionClassPolicy (x : CompressionClassPolicy) : freezable (Canonical.compressionClassPolicy x : Value F) = true := by
  simp [Canonical.compressionClassPolicy, freezable_object]

theorem freezable_compressionPolicy {x : CompressionPolicy (Number F)} (h : x.valid = true) :
    freezable (Canonical.compressionPolicy x) = true := by
  simp only [CompressionPolicy.valid, Bool.and_eq_true] at h
  have hext := freezable_of_validExtensions h.1.2
  simp [Canonical.compressionPolicy, freezable_object, hext]

@[simp]
theorem freezable_testDefinition (x : TestDefinition) : freezable (Canonical.testDefinition x : Value F) = true := by
  simp [Canonical.testDefinition, freezable_object]

@[simp]
theorem freezable_capsuleDependency (x : CapsuleDependency) : freezable (Canonical.capsuleDependency x : Value F) = true := by
  simp [Canonical.capsuleDependency, freezable_object]

theorem freezable_integrityLock {x : IntegrityLock (Number F)} (h : x.valid = true) :
    freezable (Canonical.integrityLock x) = true := by
  simp only [IntegrityLock.valid, Bool.and_eq_true] at h
  have hext := freezable_of_validExtensions h.2
  simp [Canonical.integrityLock, freezable_object, hext]

@[simp]
theorem freezable_artifactChecksum (x : ArtifactChecksum) : freezable (Canonical.artifactChecksum x : Value F) = true := by
  simp [Canonical.artifactChecksum, freezable_object]

@[simp]
theorem freezable_signaturePolicy (x : SignaturePolicy) : freezable (Canonical.signaturePolicy x : Value F) = true := by
  simp [Canonical.signaturePolicy, freezable_object]

theorem freezable_testsIntegrity {x : TestsIntegrity (Number F)} (h : x.valid = true) :
    freezable (Canonical.testsIntegrity x) = true := by
  simp only [TestsIntegrity.valid, Bool.and_eq_true] at h
  have hext := freezable_of_validExtensions h.1.1.2
  simp [Canonical.testsIntegrity, freezable_object, hext, freezable_integrityLock h.1.1.1.1.1.2]

theorem freezable_detachedSignature {x : DetachedSignature (Number F)} (h : x.valid = true) :
    freezable (Canonical.detachedSignature x) = true := by
  simp only [DetachedSignature.valid, Bool.and_eq_true] at h
  simp [Canonical.detachedSignature, freezable_object, h.2]

/-- What validity of a capsule says of its modules. -/
structure Capsule.ValidModules [FloatText F] (c : Capsule (Number F)) : Prop where
  controlManifest : c.controlManifest.valid = true
  semanticPayload : c.semanticPayload.valid = true
  evidencePlane : c.evidencePlane.valid = true
  dependencyGraph : c.dependencyGraph.valid = true
  replacementContract : c.replacementContract.valid = true
  compressionPolicy : c.compressionPolicy.valid = true
  testsIntegrity : c.testsIntegrity.valid = true
  detachedSignature : ∀ s ∈ c.detachedSignature, s.valid = true
  derivedArtifacts : freezable (.object c.derivedArtifacts) = true
  runtimeSidecar : freezable (.object c.runtimeSidecar) = true
  referencesClosed : c.referencesClosed = true

theorem Capsule.valid_iff [FloatText F] {c : Capsule (Number F)} :
    c.valid = true ↔ c.ValidModules := by
  simp only [Capsule.valid, Bool.and_eq_true, Option.all_eq_true]
  constructor
  · rintro ⟨⟨⟨⟨⟨⟨⟨⟨⟨⟨h1, h2⟩, h3⟩, h4⟩, h5⟩, h6⟩, h7⟩, h8⟩, h9⟩, h10⟩, h11⟩
    exact ⟨h1, h2, h3, h4, h5, h6, h7, h8, h9, h10, h11⟩
  · rintro ⟨h1, h2, h3, h4, h5, h6, h7, h8, h9, h10, h11⟩
    exact ⟨⟨⟨⟨⟨⟨⟨⟨⟨⟨h1, h2⟩, h3⟩, h4⟩, h5⟩, h6⟩, h7⟩, h8⟩, h9⟩, h10⟩, h11⟩

theorem freezable_identityProjection [FloatText F] {c : Capsule (Number F)} (h : c.valid = true) :
    freezable (identityProjection c) = true := by
  have hc := Capsule.valid_iff.mp h
  simp [identityProjection, freezable_object, freezable_manifest hc.controlManifest,
    freezable_semanticPayload hc.semanticPayload, freezable_evidencePlane hc.evidencePlane,
    freezable_dependencyGraph hc.dependencyGraph,
    freezable_replacementContract hc.replacementContract,
    freezable_compressionPolicy hc.compressionPolicy, freezable_testsIntegrity hc.testsIntegrity]

theorem freezable_capsuleWireDict [FloatText F] {c : Capsule (Number F)} (h : c.valid = true) :
    freezable (capsuleWireDict c) = true := by
  have hc := Capsule.valid_iff.mp h
  have hmodules : ∀ m ∈ coreMembers c, freezable m.2 = true := by
    simp [coreMembers, freezable_manifestWire hc.controlManifest,
      freezable_semanticPayload hc.semanticPayload, freezable_evidencePlane hc.evidencePlane,
      freezable_dependencyGraph hc.dependencyGraph,
      freezable_replacementContract hc.replacementContract,
      freezable_compressionPolicy hc.compressionPolicy, freezable_testsIntegrity hc.testsIntegrity]
  have hsignature : ∀ m ∈ signatureMembers c.detachedSignature, freezable m.2 = true := by
    cases hs : c.detachedSignature with
    | none => simp [signatureMembers]
    | some signature =>
      simp [signatureMembers, freezable_detachedSignature (hc.detachedSignature signature hs)]
  rw [capsuleWireDict, freezable_object, Bool.and_eq_true, List.all_eq_true]
  -- the names are distinct, and each member can be frozen
  refine ⟨?_, ?_⟩
  · cases c.detachedSignature <;> simp [coreMembers, signatureMembers]
  · intro m hm
    simp only [List.mem_append, List.mem_cons, List.not_mem_nil, or_false] at hm
    rcases hm with (hm | hm) | rfl | rfl
    · exact hmodules m hm
    · exact hsignature m hm
    · exact hc.derivedArtifacts
    · exact hc.runtimeSidecar

end ContractCapsule.Models
