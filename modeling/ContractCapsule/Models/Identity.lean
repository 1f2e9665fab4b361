import ContractCapsule.Models.Frozen
import ContractCapsule.Models.Transport

/-!
# The Canonical Identity Loses Nothing

The passages of a value that are transports: the identity, the passage to values in key order,
and the passages through a text with sorted keys. A capsule is read back from its wire
dictionary, and the identity projection determines the seven modules but for the digest.
-/

namespace ContractCapsule.Models

open Library

variable {F : Type} [FloatText F]

/-! ## Section 1: Transports -/

/-- A number in a field of type `float`. -/
def Number.toFloat : Number F → Number F
  | .int i => .float (FloatText.ofInt i)
  | .float x => .float x

/-- An object in key order, with other numbers. -/
theorem sortKeys_map_object {κ μ ν : Type} [LinearOrder κ] (key : String → κ) (number : ν → μ)
    (ms : Members ν) :
    (Json.sortKeys key (.object ms)).map number =
      .object (Json.sortMembers key (ms.map fun m => (m.1, (m.2.sortKeys key).map number))) := by
  simp only [Json.sortKeys, Json.sortValues_eq, Json.map, Json.mapMembers_eq]
  rw [← Json.sortMembers_map, List.map_map]
  rfl

/-- Sorting the members of an object with distinct names does not change its fields. -/
theorem lookup_sortMembers {κ ν : Type} [LinearOrder κ] (key : String → κ) {ms : Members ν}
    (hnodup : (ms.map Prod.fst).Nodup) (k : String) :
    (Json.sortMembers key ms).lookup k = ms.lookup k := by
  have hperm := List.perm_insertionSort (fun m n : String × Json ν => key m.1 ≤ key n.1) ms
  have hnodup' : ((Json.sortMembers key ms).map Prod.fst).Nodup :=
    (hperm.map Prod.fst).nodup_iff.mpr hnodup
  by_cases hk : k ∈ ms.map Prod.fst
  · obtain ⟨m, hm, rfl⟩ := List.mem_map.mp hk
    rw [Transport.lookup_of_mem hnodup hm,
      Transport.lookup_of_mem hnodup' ((Json.mem_sortMembers key).mpr hm)]
  · have hk' : k ∉ (Json.sortMembers key ms).map Prod.fst := fun h => hk ((hperm.map Prod.fst).mem_iff.mp h)
    rw [← Transport.lookup_isSome, Option.not_isSome_iff_eq_none] at hk hk'
    rw [hk, hk']

/-- The fields of an object whose values are rewritten. -/
theorem lookup_map {ν μ : Type} (f : Json ν → Json μ) (ms : Members ν) (k : String) :
    (ms.map fun m => (m.1, f m.2)).lookup k = (ms.lookup k).map f := by
  induction ms with
  | nil => rfl
  | cons m ms ih =>
    rw [List.map_cons, List.lookup_cons, List.lookup_cons, ih]
    cases k == m.1 <;> rfl

namespace Transport

variable {κ μ : Type} [LinearOrder κ] [NumberReading μ]

/-- Values with their objects in key order and their numbers rewritten. -/
def sorted (key : String → κ) (number float : Number F → μ)
    (hint : ∀ i, NumberReading.asInt (number (.int i)) = some i)
    (hfloat : ∀ n, NumberReading.asFloat (number n) = some (float n)) : Transport F μ where
  value v := (v.sortKeys key).map number
  members ms := Json.sortMembers key (ms.map fun m => (m.1, (m.2.sortKeys key).map number))
  number := number
  float := float
  value_null := rfl
  value_bool _ := rfl
  value_string _ := rfl
  value_number _ := rfl
  value_array xs := by simp
  value_object ms := sortKeys_map_object key number ms
  lookup_members ms k hnodup := by
    rw [lookup_sortMembers key (by simpa [Function.comp_def] using hnodup),
      lookup_map fun v => (v.sortKeys key).map number]
  asInt_number := hint
  asFloat_number := hfloat

/-- A value itself. -/
def identity : Transport F (Number F) where
  value v := v
  members ms := ms
  number n := n
  float := Number.toFloat
  value_null := rfl
  value_bool _ := rfl
  value_string _ := rfl
  value_number _ := rfl
  value_array xs := by simp
  value_object _ := rfl
  lookup_members ms k _ := by simp
  asInt_number _ := rfl
  asFloat_number n := by cases n <;> rfl

/-- A value by value. -/
def byValue : Transport F ℚ :=
  sorted utf16 Number.value Number.value
    (fun i => by simp [NumberReading.asInt, Number.value]) fun _ => rfl

/-- A value read back from a text that has its objects in the order of `json.dumps` with
`sort_keys=True`. -/
def inKeyOrder : Transport F (Number F) :=
  sorted codePoints id Number.toFloat (fun _ => rfl) fun n => by cases n <;> rfl

/-- The canonical text of an integer is read as the integer. -/
theorem reread_int (i : ℤ) : reread (.int i : Number F) = .int i := by
  simp [reread, Number.read, Number.jcsLexeme, Json.isInteger_decimal, Json.readDecimal_decimal]

/-- A value read back from its canonical text. -/
def throughText : Transport F (Number F) :=
  sorted utf16 reread (fun n => (reread n).toFloat)
    (fun i => by rw [reread_int]; rfl) fun n => by cases reread n <;> rfl

end Transport

/-! ## Section 2: Reading a capsule back -/

/-- The confidence of a valid atom is a float. -/
theorem toFloat_confidence {a : Atom (Number F)} (h : a.valid = true) :
    a.confidence.toFloat = a.confidence := by
  simp only [Atom.valid, Bool.and_eq_true] at h
  cases hc : a.confidence with
  | int i => simp [hc, validConfidence] at h
  | float x => rfl

/-- A valid capsule is its own identical transport. -/
theorem identity_capsule {c : Capsule (Number F)} (h : c.valid = true) :
    Transport.identity.capsule c = c := by
  have hpayload := (Capsule.valid_iff.mp h).semanticPayload
  simp only [SemanticPayload.valid, Bool.and_eq_true, List.all_eq_true] at hpayload
  have hatoms : c.semanticPayload.atoms.map Transport.identity.atom = c.semanticPayload.atoms := by
    conv_rhs => rw [← List.map_id c.semanticPayload.atoms]
    apply List.map_congr_left
    intro a ha
    have hfloat : Transport.identity.float a.confidence = a.confidence :=
      toFloat_confidence (hpayload.1.1.1 a ha)
    rw [Transport.atom, hfloat]
    rfl
  have hrecords : ∀ xs : List (EvidenceRecord (Number F)),
      xs.map Transport.identity.evidenceRecord = xs := List.map_id
  have hedges : ∀ xs : List (DependencyEdge (Number F)),
      xs.map Transport.identity.dependencyEdge = xs := List.map_id
  have hsignature : ∀ s : Option (DetachedSignature (Number F)),
      s.map Transport.identity.detachedSignature = s := fun s => Option.map_id_apply
  simp only [Transport.capsule, Transport.semanticPayload, Transport.evidencePlane,
    Transport.dependencyGraph, hatoms, hrecords, hedges, hsignature]
  rfl

/-- A valid capsule is read from its wire dictionary. -/
theorem modelValidate_capsuleWireDict {c : Capsule (Number F)} (h : c.valid = true) :
    modelValidate (capsuleWireDict c) = some c := by
  have hread := Transport.identity.capsule_value c
  rw [identity_capsule h] at hread
  rw [modelValidate, show Wire.capsule (capsuleWireDict c) = some c from hread]
  simp [Option.filter, h]

/-- A valid capsule is read from the text of its wire dictionary, in any style of `json.dumps`. -/
theorem modelValidateJson_dumps (style : Json.Style) {c : Capsule (Number F)} (h : c.valid = true) :
    modelValidateJson (dumps style (capsuleWireDict c)) = some c := by
  have hdistinct := distinct_of_freezable (freezable_capsuleWireDict h)
  have hnone : ∀ c ∈ ([] : List Char), Json.isBlank c = true := by simp
  have hloads := loads_dumps style hdistinct hnone
  rw [List.append_nil] at hloads
  rw [modelValidateJson, hloads, Option.bind_some, modelValidate_capsuleWireDict h]

/-! ## Section 3: The identity projection -/

/-- Two capsules agree on the seven modules but for the digest, numbers compared by value. -/
structure SameIdentity (a b : Capsule (Number F)) : Prop where
  controlManifest :
    { Capsule.manifestByValue a.controlManifest with contentDigest := "" } =
      { Capsule.manifestByValue b.controlManifest with contentDigest := "" }
  semanticPayload :
    Capsule.payloadByValue a.semanticPayload = Capsule.payloadByValue b.semanticPayload
  evidencePlane : Capsule.planeByValue a.evidencePlane = Capsule.planeByValue b.evidencePlane
  dependencyGraph : Capsule.graphByValue a.dependencyGraph = Capsule.graphByValue b.dependencyGraph
  replacementContract :
    Capsule.contractByValue a.replacementContract = Capsule.contractByValue b.replacementContract
  compressionPolicy :
    Capsule.policyByValue a.compressionPolicy = Capsule.policyByValue b.compressionPolicy
  testsIntegrity : Capsule.testsByValue a.testsIntegrity = Capsule.testsByValue b.testsIntegrity

/-- Read a module of an identity projection. -/
def readModule {μ α : Type} (name : String) (read : Json μ → Option α) (v : Json μ) : Option α :=
  (Wire.object v).bind fun ms =>
    Wire.field ms "core" fun core => (Wire.object core).bind fun ms => Wire.field ms name read

/-- The modules of an identity projection can be read from its transport. -/
theorem readModule_value {μ : Type} [NumberReading μ] (h : Transport F μ) (c : Capsule (Number F)) :
    (readModule "control_manifest" (fun v => (Wire.object v).bind (Wire.manifestFields ""))
        (h.value (identityProjection c)) =
      some { h.controlManifest c.controlManifest with contentDigest := "" }) ∧
    (readModule "semantic_payload" Wire.semanticPayload (h.value (identityProjection c)) =
      some (h.semanticPayload c.semanticPayload)) ∧
    (readModule "evidence_plane" Wire.evidencePlane (h.value (identityProjection c)) =
      some (h.evidencePlane c.evidencePlane)) ∧
    (readModule "dependency_graph" Wire.dependencyGraph (h.value (identityProjection c)) =
      some (h.dependencyGraph c.dependencyGraph)) ∧
    (readModule "replacement_contract" Wire.replacementContract (h.value (identityProjection c)) =
      some (h.replacementContract c.replacementContract)) ∧
    (readModule "compression_policy" Wire.compressionPolicy (h.value (identityProjection c)) =
      some (h.compressionPolicy c.compressionPolicy)) ∧
    readModule "tests_integrity" Wire.testsIntegrity (h.value (identityProjection c)) =
      some (h.testsIntegrity c.testsIntegrity) := by
  -- the projection is an object with a core, and the core is an object with the seven modules
  obtain ⟨ms, hobject, _, hfield, _⟩ := h.read (identityProjection c) rfl (by simp)
  simp only [List.forall_mem_cons] at hfield
  obtain ⟨_, hcore, _⟩ := hfield
  obtain ⟨ns, hobject', _, hfield', _⟩ := h.read (.object
    [("control_manifest", Canonical.manifest c.controlManifest),
     ("semantic_payload", Canonical.semanticPayload c.semanticPayload),
     ("evidence_plane", Canonical.evidencePlane c.evidencePlane),
     ("dependency_graph", Canonical.dependencyGraph c.dependencyGraph),
     ("replacement_contract", Canonical.replacementContract c.replacementContract),
     ("compression_policy", Canonical.compressionPolicy c.compressionPolicy),
     ("tests_integrity", Canonical.testsIntegrity c.testsIntegrity)]) rfl (by simp)
  simp only [List.forall_mem_cons] at hfield'
  -- so each module is read from the member of its name
  have hmodule : ∀ (α : Type) (name : String) (read : Json μ → Option α),
      readModule name read (h.value (identityProjection c)) = Wire.field ns name read := by
    intro α name read
    rw [readModule, hobject, Wire.object, Option.bind_some, hcore, hobject', Wire.object,
      Option.bind_some]
  simp [hmodule, hfield', h.manifestFields_value]

/-- Valid capsules with one canonical identity agree on the seven modules but for the digest. -/
theorem sameIdentity_of_canonicalText_eq {a b : Capsule (Number F)} (ha : a.valid = true)
    (hb : b.valid = true)
    (h : canonicalText (identityProjection a) = canonicalText (identityProjection b)) :
    SameIdentity a b := by
  have hsame := (canonicalText_eq_iff (numbersAll_of_freezable (freezable_identityProjection ha))
    (numbersAll_of_freezable (freezable_identityProjection hb))).mp h
  have hvalue : Transport.byValue.value (identityProjection a) =
      Transport.byValue.value (identityProjection b) := hsame
  -- the modules of both are read from one value
  obtain ⟨hm, hs, he, hd, hr, hp, ht⟩ := readModule_value Transport.byValue a
  obtain ⟨hm', hs', he', hd', hr', hp', ht'⟩ := readModule_value Transport.byValue b
  rw [hvalue] at hm hs he hd hr hp ht
  exact {
    controlManifest := Option.some.inj (hm.symm.trans hm')
    semanticPayload := Option.some.inj (hs.symm.trans hs')
    evidencePlane := Option.some.inj (he.symm.trans he')
    dependencyGraph := Option.some.inj (hd.symm.trans hd')
    replacementContract := Option.some.inj (hr.symm.trans hr')
    compressionPolicy := Option.some.inj (hp.symm.trans hp')
    testsIntegrity := Option.some.inj (ht.symm.trans ht') }

/-! ## Section 4: Modules that are equal by value -/

theorem same_members {ms ns : Members (Number F)} (h : membersByValue ms = membersByValue ns) :
    Same (.object ms) (.object ns) := by
  have hvalue : ∀ ms : Members (Number F),
      byValue (Json.object ms) = .object (membersByValue ms) :=
    sortKeys_map_object utf16 Number.value
  rw [same_iff, hvalue, hvalue, h]

/-- Items that are equal by value pairwise have the same projections. -/
theorem same_items {α β : Type} {write : α → Value F} {value : α → β}
    (hwrite : ∀ a b, value a = value b → Same (write a) (write b)) {xs ys : List α}
    (h : xs.map value = ys.map value) :
    Same (.array (xs.map write)) (.array (ys.map write)) := by
  apply Json.same_array.mpr
  rw [List.forall₂_map_left_iff, List.forall₂_map_right_iff]
  rw [← List.forall₂_eq_eq_eq, List.forall₂_map_left_iff, List.forall₂_map_right_iff] at h
  exact h.imp fun a b => hwrite a b

theorem same_manifest {a b : ControlManifest (Number F)}
    (h : { Capsule.manifestByValue a with contentDigest := "" } =
      { Capsule.manifestByValue b with contentDigest := "" }) :
    Same (Canonical.manifest a) (Canonical.manifest b) := by
  simp only [Capsule.manifestByValue, ControlManifest.mk.injEq] at h
  have hext := same_members h.2.2.2.2.2.2.2.2.2.2.2.2.2.2.2.2
  apply (Json.same_object (by rfl) (by simp [Canonical.manifestMembers])).mpr
  simp [Canonical.manifestMembers, h, hext, Json.Same.refl]

theorem same_atom {a b : Atom (Number F)} (h : Capsule.atomByValue a = Capsule.atomByValue b) :
    Same (Canonical.atom a) (Canonical.atom b) := by
  simp only [Capsule.atomByValue, Atom.mk.injEq] at h
  have hext := same_members h.2.2.2.2.2.2.2.2.2.2.2.2.2.2.2.2
  apply (Json.same_object (by rfl) (by simp)).mpr
  simp [h, hext, Json.Same.refl]

theorem same_payload {a b : SemanticPayload (Number F)}
    (h : Capsule.payloadByValue a = Capsule.payloadByValue b) :
    Same (Canonical.semanticPayload a) (Canonical.semanticPayload b) := by
  simp only [Capsule.payloadByValue, SemanticPayload.mk.injEq] at h
  apply (Json.same_object (by rfl) (by simp)).mpr
  simp [same_items (fun _ _ => same_atom) h.1, same_members h.2]

theorem same_record {a b : EvidenceRecord (Number F)}
    (h : Capsule.recordByValue a = Capsule.recordByValue b) :
    Same (Canonical.evidenceRecord a) (Canonical.evidenceRecord b) := by
  simp only [Capsule.recordByValue, EvidenceRecord.mk.injEq] at h
  have hext := same_members h.2.2.2.2.2.2.2.2.1
  have hmode : a.mode = b.mode := by simp [EvidenceRecord.mode, h]
  unfold Canonical.evidenceRecord
  rw [h.2.2.2.2.2.2.2.2.2, hmode]
  apply (Json.same_object (by rfl)
    (by cases b.source <;> simp [Canonical.sourceMembers])).mpr
  simp [h, hext, Json.Same.refl]

theorem same_plane {a b : EvidencePlane (Number F)}
    (h : Capsule.planeByValue a = Capsule.planeByValue b) :
    Same (Canonical.evidencePlane a) (Canonical.evidencePlane b) := by
  simp only [Capsule.planeByValue, EvidencePlane.mk.injEq] at h
  apply (Json.same_object (by rfl) (by simp)).mpr
  simp [same_items (fun _ _ => same_record) h.1, same_members h.2]

theorem same_edge {a b : DependencyEdge (Number F)}
    (h : Capsule.edgeByValue a = Capsule.edgeByValue b) :
    Same (Canonical.dependencyEdge a) (Canonical.dependencyEdge b) := by
  simp only [Capsule.edgeByValue, DependencyEdge.mk.injEq] at h
  apply (Json.same_object (by rfl) (by simp)).mpr
  simp [h, same_members h.2.2.2.2.2, Json.Same.refl]

theorem same_graph {a b : DependencyGraph (Number F)}
    (h : Capsule.graphByValue a = Capsule.graphByValue b) :
    Same (Canonical.dependencyGraph a) (Canonical.dependencyGraph b) := by
  simp only [Capsule.graphByValue, DependencyGraph.mk.injEq] at h
  apply (Json.same_object (by rfl) (by simp)).mpr
  simp [same_items (fun _ _ => same_edge) h.1, same_members h.2]

theorem same_contract {a b : ReplacementContract (Number F)}
    (h : Capsule.contractByValue a = Capsule.contractByValue b) :
    Same (Canonical.replacementContract a) (Canonical.replacementContract b) := by
  simp only [Capsule.contractByValue, ReplacementContract.mk.injEq] at h
  apply (Json.same_object (by rfl) (by simp)).mpr
  simp [h, same_members h.2.2.2.2.2.2.2.2.2.2, Json.Same.refl]

theorem same_policy {a b : CompressionPolicy (Number F)}
    (h : Capsule.policyByValue a = Capsule.policyByValue b) :
    Same (Canonical.compressionPolicy a) (Canonical.compressionPolicy b) := by
  simp only [Capsule.policyByValue, CompressionPolicy.mk.injEq] at h
  apply (Json.same_object (by rfl) (by simp)).mpr
  simp [h, same_members h.2.2, Json.Same.refl]

theorem same_lock {a b : IntegrityLock (Number F)}
    (h : Capsule.lockByValue a = Capsule.lockByValue b) :
    Same (Canonical.integrityLock a) (Canonical.integrityLock b) := by
  simp only [Capsule.lockByValue, IntegrityLock.mk.injEq] at h
  apply (Json.same_object (by rfl) (by simp)).mpr
  simp [h, same_members h.2.2.2.2.2.2.2.2.2, Json.Same.refl]

theorem same_tests {a b : TestsIntegrity (Number F)}
    (h : Capsule.testsByValue a = Capsule.testsByValue b) :
    Same (Canonical.testsIntegrity a) (Canonical.testsIntegrity b) := by
  simp only [Capsule.testsByValue, TestsIntegrity.mk.injEq] at h
  apply (Json.same_object (by rfl) (by simp)).mpr
  simp [h, same_lock h.2.1, same_members h.2.2.2.2, Json.Same.refl]

/-- Valid capsules have one canonical identity exactly when they agree on the seven modules but
for the digest. -/
theorem canonicalText_eq_iff_sameIdentity {a b : Capsule (Number F)} (ha : a.valid = true)
    (hb : b.valid = true) :
    canonicalText (identityProjection a) = canonicalText (identityProjection b) ↔
      SameIdentity a b := by
  refine ⟨sameIdentity_of_canonicalText_eq ha hb, fun h => ?_⟩
  -- one direction is injectivity; conversely equal modules have texts of equal members
  apply (canonicalText_eq_iff (numbersAll_of_freezable (freezable_identityProjection ha))
    (numbersAll_of_freezable (freezable_identityProjection hb))).mpr
  apply (Json.same_object (by rfl) (by simp)).mpr
  have hcore : Same (.object
      [("control_manifest", Canonical.manifest a.controlManifest),
       ("semantic_payload", Canonical.semanticPayload a.semanticPayload),
       ("evidence_plane", Canonical.evidencePlane a.evidencePlane),
       ("dependency_graph", Canonical.dependencyGraph a.dependencyGraph),
       ("replacement_contract", Canonical.replacementContract a.replacementContract),
       ("compression_policy", Canonical.compressionPolicy a.compressionPolicy),
       ("tests_integrity", Canonical.testsIntegrity a.testsIntegrity)])
      (.object
      [("control_manifest", Canonical.manifest b.controlManifest),
       ("semantic_payload", Canonical.semanticPayload b.semanticPayload),
       ("evidence_plane", Canonical.evidencePlane b.evidencePlane),
       ("dependency_graph", Canonical.dependencyGraph b.dependencyGraph),
       ("replacement_contract", Canonical.replacementContract b.replacementContract),
       ("compression_policy", Canonical.compressionPolicy b.compressionPolicy),
       ("tests_integrity", Canonical.testsIntegrity b.testsIntegrity)]) := by
    apply (Json.same_object (by rfl) (by simp)).mpr
    simp [same_manifest h.controlManifest, same_payload h.semanticPayload,
      same_plane h.evidencePlane, same_graph h.dependencyGraph,
      same_contract h.replacementContract, same_policy h.compressionPolicy,
      same_tests h.testsIntegrity]
  simp [hcore]

/-! ## Section 5: The canonical identity -/

/-- The canonical identity loses nothing: the canonical bytes of the identity projection determine
the seven modules but for the digest, a capsule is read back from its wire dictionary, and with an
injective digest capsules that differ in one of the modules have different digests. -/
theorem identity_loses_nothing {sha256 : List Char → String}
    (hsha256 : Function.Injective sha256) :
    (∀ a b : Capsule (Number F), a.valid = true → b.valid = true →
      canonicalJsonBytes (identityProjection a) = canonicalJsonBytes (identityProjection b) →
        SameIdentity a b) ∧
    (∀ a : Capsule (Number F), a.valid = true →
      modelValidate (capsuleWireDict a) = some a ∧
        ∀ style, modelValidateJson (dumps style (capsuleWireDict a)) = some a) ∧
    ∀ a b : Capsule (Number F), a.valid = true → b.valid = true →
      canonicalDigest sha256 a = canonicalDigest sha256 b → SameIdentity a b := by
  refine ⟨?_, ?_, ?_⟩
  · intro a b ha hb hbytes
    have hexacta := numbersAll_of_freezable (freezable_identityProjection ha)
    have hexactb := numbersAll_of_freezable (freezable_identityProjection hb)
    rw [canonicalJsonBytes, canonicalJsonBytes, if_pos hexacta, if_pos hexactb] at hbytes
    exact sameIdentity_of_canonicalText_eq ha hb (Option.some.inj hbytes)
  · intro a ha
    exact ⟨modelValidate_capsuleWireDict ha, fun style => modelValidateJson_dumps style ha⟩
  · intro a b ha hb hdigest
    exact sameIdentity_of_canonicalText_eq ha hb (hsha256 hdigest)

/-- A digest. -/
def zeroDigest : String := "sha256:0000000000000000000000000000000000000000000000000000000000000000"

/-- A signed capsule with one atom and one object of evidence. -/
def sampleCapsule : Capsule (Number IntegralFloat) where
  controlManifest := {
    specVersion := .ccs21
    canonicalProfile := .canonicalV1
    capsuleId := "a.b"
    version := "1.0.0"
    contentDigest := zeroDigest
    owner := "o"
    tenant := "t"
    scope := { repositories := ["r"], paths := ["p"], environments := ["e"] }
    authority := "u"
    sensitivity := .public_
    provides := []
    requires := []
    conflicts := []
    lifecycle := .published
    createdFrom := []
    integrity := { lock := "integrity/capsule.lock", signature := some "integrity/signature.json" }
    extensions := [] }
  semanticPayload := {
    atoms := [{
      atomId := "a1"
      kind := .fact
      statement := "s"
      modality := .must
      scope := ["p"]
      exceptions := []
      validity := { from_ := "2026-01-01", until_ := none }
      authority := "u"
      status := .validated
      confidence := .float ⟨1⟩
      evidenceRefs := ["e1"]
      requiresAtoms := []
      conflictsWith := []
      sensitivity := .public_
      compressionClass := .p0Exact
      refreshPolicy := "n"
      extensions := [] }]
    extensions := [] }
  evidencePlane := {
    records := [{
      evidenceId := "e1"
      atomIds := ["a1"]
      contentDigest := zeroDigest
      mediaType := "a/b"
      capturedAt := "2026-01-01T00:00:00Z"
      retention := "k"
      accessPolicy := "c"
      validation := .verified
      extensions := []
      source := .cas }]
    extensions := [] }
  dependencyGraph := { edges := [], extensions := [] }
  replacementContract := {
    contractId := "c"
    replaces := none
    preconditions := []
    targetEffects := ["t"]
    protectedInvariants := ["i"]
    allowedScope := []
    forbiddenSpillover := []
    verification := ⟨[], [], []⟩
    activation := { risk := .low, approvalRequired := false, safeBoundary := .beforeNextAgentAction }
    rollback := { pointer := "p", compensatingAction := none }
    extensions := [] }
  compressionPolicy := {
    policyVersion := "1.0.0"
    classes := [
      { name := .p0Exact, rendering := "exact", lossyCompression := .forbidden,
        expansionTriggers := [], ttl := none },
      { name := .p1Structured, rendering := "r", lossyCompression := .forbidden,
        expansionTriggers := [], ttl := none },
      { name := .p2Evidence, rendering := "r", lossyCompression := .forbidden,
        expansionTriggers := [], ttl := none },
      { name := .p3Summary, rendering := "r", lossyCompression := .forbidden,
        expansionTriggers := [], ttl := none },
      { name := .p4Transient, rendering := "r", lossyCompression := .forbidden,
        expansionTriggers := [], ttl := none }]
    extensions := [] }
  testsIntegrity := {
    tests := [
      { testId := "m3-source-grounding", kind := .static,
        path := "tests/static/m3-source-grounding.json", digest := zeroDigest }]
    lock := {
      capsuleDependencies := []
      sourceCommits := []
      compilerVersion := "0.1.0"
      adapterVersions := []
      compressionPolicyVersion := "1.0.0"
      testSetVersion := "0.1.0"
      modelSeries := []
      parameters := []
      runtimeConfigDigest := zeroDigest
      extensions := [] }
    artifactChecksums := [{ path := "tests/static/m3-source-grounding.json", digest := zeroDigest }]
    signaturePolicy := { algorithm := "g", keyId := "k", inputProfile := .signatureV1 }
    extensions := [] }
  detachedSignature := some { algorithm := "g", keyId := "k", value := "v", envelope := [] }
  derivedArtifacts := []
  runtimeSidecar := []

theorem sampleCapsule_valid : sampleCapsule.valid = true := by decide +kernel

theorem identity_loses_nothing_sample :
    modelValidateJson (dumps asciiStyle (capsuleWireDict sampleCapsule)) = some sampleCapsule ∧
      SameIdentity sampleCapsule sampleCapsule := by
  have hinjective : Function.Injective String.ofList := fun _ _ h => String.ofList_injective h
  obtain ⟨_, hread, hdigest⟩ := identity_loses_nothing (F := IntegralFloat) hinjective
  exact ⟨(hread sampleCapsule sampleCapsule_valid).2 asciiStyle,
    hdigest sampleCapsule sampleCapsule sampleCapsule_valid sampleCapsule_valid rfl⟩

end ContractCapsule.Models
