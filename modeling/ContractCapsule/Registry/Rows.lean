import ContractCapsule.Models.Reread

/-!
# Rows of the Registry

The rows `Registry.publish` writes for a capsule and the reconstruction `_row_to_published`
makes of the publication row. A column of canonical JSON stands as its text.
-/

namespace ContractCapsule.Registry

open Library Models
open Enumeration (wire)

/-! ## Section 1: Rows -/

/-- `publications` -/
structure PublicationRow where
  publicationId : ℕ
  capsuleId : String
  version : String
  contentDigest : String
  lifecycle : String
  authority : String
  scopeJcs : List Char
  immutableRecordJcs : List Char
  detachedSignatureJcs : Option (List Char)
  publishedAt : String
deriving DecidableEq

/-- `evidence_references` -/
structure EvidenceRow where
  publicationId : ℕ
  ordinal : ℕ
  evidenceId : String
  mode : String
  contentDigest : String
  mediaType : String
  accessPolicy : String
  immutableRecordJcs : List Char
deriving DecidableEq

/-- `digest_grants` -/
structure GrantRow where
  publicationId : ℕ
  evidenceId : String
  digest : String
  accessPolicy : String
deriving DecidableEq

/-- `m3_trust_attestations` -/
structure AttestationRow where
  publicationId : ℕ
  policyVersion : String
  trustRootId : String
  principalId : String
  permitPayloadJcs : List Char
  permitSignature : String
  sourceSubjectsJcs : List Char
deriving DecidableEq

/-- `PublishedCapsule` -/
structure PublishedCapsule (F : Type) where
  capsule : Capsule (Number F)
  registryStatus : String
  publishedAt : String
deriving DecidableEq

variable {F : Type} [FloatText F]

/-- `_jcs_text`. A candidate is valid, so its parts have exact integers and a canonical text. -/
def jcsText (v : Value F) : List Char := canonicalText v

/-- `_scope_dict` -/
def scopeDict (capsule : Capsule (Number F)) : Value F :=
  Canonical.scope capsule.controlManifest.scope

/-- `_signature_dict` -/
def signatureDict (capsule : Capsule (Number F)) : Option (Value F) :=
  capsule.detachedSignature.map Canonical.detachedSignature

/-- `_publication_core` -/
def publicationCore (capsule : Capsule (Number F)) : Value F := .object (coreMembers capsule)

/-- The row of `publications` for a capsule. -/
def publicationRow (publicationId : ℕ) (capsule : Capsule (Number F)) (publishedAt : String) :
    PublicationRow where
  publicationId := publicationId
  capsuleId := capsule.controlManifest.capsuleId
  version := capsule.controlManifest.version
  contentDigest := capsule.controlManifest.contentDigest
  lifecycle := wire capsule.controlManifest.lifecycle
  authority := capsule.controlManifest.authority
  scopeJcs := jcsText (scopeDict capsule)
  immutableRecordJcs := jcsText (publicationCore capsule)
  detachedSignatureJcs := (signatureDict capsule).map jcsText
  publishedAt := publishedAt

/-- `_is_m3_capsule` -/
def isM3Capsule (capsule : Capsule (Number F)) : Bool :=
  (match capsule.controlManifest.extensions.lookup "x-builder-profile" with
    | some (.string profile) => profile == "CCS-2.1-m3-v1"
    | _ => false) ||
  (match capsule.controlManifest.extensions.lookup "x-m3-trust-required" with
    | some (.bool required) => required
    | _ => false) ||
  capsule.semanticPayload.atoms.any fun atom =>
    match atom.extensions.lookup "x-trust" with
    | some (.object _) => true
    | _ => false

/-- `Registry._requires_m3_gate` -/
def requiresM3Gate (capsule : Capsule (Number F)) : Bool :=
  isM3Capsule capsule ||
    capsule.semanticPayload.atoms.any fun atom =>
      decide (atom.compressionClass = .p0Exact ∨ atom.compressionClass = .p1Structured)

/-! ## Section 2: Reconstruction -/

/-- Item assignment of a dictionary. -/
def setItem {ν : Type} (ms : Members ν) (key : String) (v : Json ν) : Members ν :=
  assign Prod.fst (key, v) ms

/-- `Registry._row_to_published`; no value stands for a `PublicationIntegrityError`. -/
def rowToPublished (sha256 : List Char → String) (row : PublicationRow) :
    Option (PublishedCapsule F) := do
  let wireValue ← loads (F := F) row.immutableRecordJcs
  let members ← Wire.object wireValue
  let signature ←
    match row.detachedSignatureJcs with
    | none => some .null
    | some text => if text.isEmpty then some .null else loads text
  let members := setItem members "detached_signature" signature
  let members := setItem members "derived_artifacts" (.object [])
  let members := setItem members "runtime_sidecar" (.object [])
  let capsule ← modelValidateJson (dumps asciiStyle (.object members))
  if canonicalDigest sha256 capsule = row.contentDigest ∧
      capsule.controlManifest.contentDigest = row.contentDigest ∧
      wire capsule.controlManifest.lifecycle = row.lifecycle ∧
      capsule.controlManifest.authority = row.authority ∧
      jcsText (scopeDict capsule) = row.scopeJcs then
    some { capsule := capsule, registryStatus := "PUBLISHED", publishedAt := row.publishedAt }
  else none

/-- `Registry._revalidate_candidate` -/
def revalidateCandidate (capsule : Capsule (Number F)) : Option (Capsule (Number F)) :=
  modelValidateJson (dumps unicodeStyle (capsuleWireDict capsule))

/-- A candidate that passed its revalidation is valid. -/
theorem valid_of_revalidateCandidate {capsule candidate : Capsule (Number F)}
    (h : revalidateCandidate capsule = some candidate) : candidate.valid = true := by
  simp only [revalidateCandidate, modelValidateJson, modelValidate, Option.bind_eq_some_iff,
    Option.filter_eq_some_iff] at h
  obtain ⟨_, _, _, hvalid⟩ := h
  exact hvalid

/-! ## Section 3: What is reconstructed -/

/-- A capsule without its sidecars. -/
def withoutSidecars (capsule : Capsule (Number F)) : Capsule (Number F) :=
  { capsule with derivedArtifacts := [], runtimeSidecar := [] }

theorem valid_withoutSidecars {capsule : Capsule (Number F)} (h : capsule.valid = true) :
    (withoutSidecars capsule).valid = true := by
  have hc := Capsule.valid_iff.mp h
  apply Capsule.valid_iff.mpr
  exact { hc with derivedArtifacts := rfl, runtimeSidecar := rfl }

/-- The seven modules and the signature of a capsule, by value. -/
def modulesByValue (capsule : Capsule (Number F)) : Capsule ℚ :=
  (withoutSidecars capsule).byValue

/-- Capsules with the same seven modules have the same digest. -/
theorem canonicalDigest_eq_of_byValue {sha256 : List Char → String} {a b : Capsule (Number F)}
    (ha : a.valid = true) (hb : b.valid = true) (h : a.byValue = b.byValue) :
    canonicalDigest sha256 a = canonicalDigest sha256 b := by
  have hsame : SameIdentity a b := by
    simp only [Capsule.byValue, Capsule.mk.injEq] at h
    obtain ⟨hm, hs, he, hd, hr, hp, ht, _⟩ := h
    exact ⟨by rw [hm], hs, he, hd, hr, hp, ht⟩
  rw [canonicalDigest, canonicalDigest, (canonicalText_eq_iff_sameIdentity ha hb).mpr hsame]

/-- Objects with the same fields are read as the same capsule. -/
theorem capsule_congr {μ : Type} [NumberReading μ] {ms ns : Members μ}
    (h : ∀ k, ms.lookup k = ns.lookup k) :
    Wire.capsule (.object ms) = Wire.capsule (.object ns) := by
  have hnames : ∀ fields : List String,
      ms.all (fun m => fields.contains m.1) = ns.all fun m => fields.contains m.1 := by
    intro fields
    have hall : ∀ xs : Members μ, (xs.all fun m => fields.contains m.1) = true ↔
        ∀ k, (xs.lookup k).isSome = true → fields.contains k = true := by
      intro xs
      simp only [Transport.lookup_isSome, List.all_eq_true, List.mem_map]
      constructor
      · rintro hxs k ⟨m, hm, rfl⟩
        exact hxs m hm
      · intro hxs m hm
        exact hxs m.1 ⟨m, hm, rfl⟩
    rw [Bool.eq_iff_iff, hall, hall]
    simp only [h]
  unfold Wire.capsule
  simp only [Wire.model, Wire.object, Option.bind_some, hnames, Option.bind_eq_bind]
  split
  · simp only [Option.bind_some, Wire.field, Wire.fieldOr, h]
  · rfl

/-- A published candidate is signed. -/
theorem signature_of_published {capsule : Capsule (Number F)} (h : capsule.valid = true)
    (hlifecycle : capsule.controlManifest.lifecycle = .published) :
    ∃ signature, capsule.detachedSignature = some signature := by
  have hclosed := (Capsule.valid_iff.mp h).referencesClosed
  simp only [Capsule.referencesClosed, hlifecycle, Bool.and_eq_true] at hclosed
  cases hs : capsule.detachedSignature with
  | none => simp [hs] at hclosed
  | some signature => exact ⟨signature, rfl⟩

/-- The members of the dictionary that `_row_to_published` validates. -/
def storedMembers (capsule : Capsule (Number F)) (signature : DetachedSignature (Number F)) :
    Members (Number F) :=
  Transport.throughText.members (coreMembers capsule) ++
    [("detached_signature", Transport.throughText.value (Canonical.detachedSignature signature)),
     ("derived_artifacts", .object []),
     ("runtime_sidecar", .object [])]

theorem freezable_publicationCore {capsule : Capsule (Number F)} (h : capsule.valid = true) :
    freezable (publicationCore capsule) = true := by
  have hwire := freezable_capsuleWireDict h
  rw [capsuleWireDict, freezable_object, Bool.and_eq_true, List.all_append, List.all_append,
    Bool.and_eq_true, Bool.and_eq_true] at hwire
  rw [publicationCore, freezable_object, Bool.and_eq_true]
  exact ⟨by simp [coreMembers], hwire.2.1.1⟩

/-- The core has none of the fields that `_row_to_published` adds. -/
theorem notMem_core (capsule : Capsule (Number F)) {k : String}
    (hk : k ∈ ["detached_signature", "derived_artifacts", "runtime_sidecar"]) :
    k ∉ (Transport.throughText.members (coreMembers capsule)).map Prod.fst := by
  rw [mem_throughText]
  simp only [List.mem_cons, List.not_mem_nil, or_false] at hk
  rcases hk with rfl | rfl | rfl <;> simp [coreMembers]

theorem setItem_of_notMem {ν : Type} {ms : Members ν} {key : String} {v : Json ν}
    (h : key ∉ ms.map Prod.fst) : setItem ms key v = ms ++ [(key, v)] :=
  assign_of_notMem h

theorem setItem_storedMembers (capsule : Capsule (Number F))
    (signature : DetachedSignature (Number F)) :
    setItem (setItem (setItem (Transport.throughText.members (coreMembers capsule))
      "detached_signature" (Transport.throughText.value (Canonical.detachedSignature signature)))
      "derived_artifacts" (.object [])) "runtime_sidecar" (.object []) =
        storedMembers capsule signature := by
  have habsent := fun k => notMem_core capsule (k := k)
  unfold storedMembers
  generalize Transport.throughText.members (coreMembers capsule) = ms at habsent ⊢
  have hderived := habsent "derived_artifacts" (by simp)
  have hruntime := habsent "runtime_sidecar" (by simp)
  rw [setItem_of_notMem (habsent "detached_signature" (by simp))]
  generalize Transport.throughText.value (Canonical.detachedSignature signature) = v
  rw [setItem_of_notMem (show "derived_artifacts" ∉ (ms ++ [("detached_signature", v)]).map Prod.fst
      by simpa using hderived),
    setItem_of_notMem (show "runtime_sidecar" ∉ ((ms ++ [("detached_signature", v)]) ++
      [("derived_artifacts", Json.object [])]).map Prod.fst by simpa using hruntime)]
  simp

theorem distinct_storedMembers {capsule : Capsule (Number F)}
    {signature : DetachedSignature (Number F)} (h : capsule.valid = true)
    (hs : capsule.detachedSignature = some signature) :
    (Json.object (storedMembers capsule signature)).distinct = true := by
  have hcore : (Json.object (Transport.throughText.members (coreMembers capsule)) : Value F).distinct =
      true := by
    rw [object_throughText, Json.distinct_map, Json.distinct_sortKeys]
    exact distinct_of_freezable (freezable_publicationCore h)
  have hsignature : (Transport.throughText.value (Canonical.detachedSignature signature) :
      Value F).distinct = true := by
    have hvalid := (Capsule.valid_iff.mp h).detachedSignature signature hs
    show (((Canonical.detachedSignature signature).sortKeys utf16).map reread).distinct = true
    rw [Json.distinct_map, Json.distinct_sortKeys]
    exact distinct_of_freezable (freezable_detachedSignature hvalid)
  simp only [Json.distinct, Json.distinctMembers_eq, Bool.and_eq_true, decide_eq_true_eq] at hcore
  simp only [storedMembers, Json.distinct, Json.distinctMembers_eq, List.map_append,
    List.all_append, Bool.and_eq_true, decide_eq_true_eq]
  refine ⟨List.nodup_append.mpr ⟨hcore.1, by simp, ?_⟩, hcore.2, by simp [hsignature]⟩
  rintro k hk k' hk' rfl
  exact notMem_core capsule (by simpa using hk') hk

/-- What is validated is the candidate without sidecars, as its texts are read. -/
theorem capsule_storedMembers {capsule : Capsule (Number F)}
    {signature : DetachedSignature (Number F)}
    (hs : capsule.detachedSignature = some signature) :
    Wire.capsule (.object (storedMembers capsule signature)) =
      some (Transport.throughText.capsule (withoutSidecars capsule)) := by
  have hwire := Transport.throughText.capsule_value (withoutSidecars capsule)
  rw [capsuleWireDict, Transport.throughText.value_object] at hwire
  rw [← hwire]
  -- a capsule is read by the names of its members, whatever their order
  apply capsule_congr
  intro k
  have hnames : ((coreMembers (withoutSidecars capsule) ++
      signatureMembers (withoutSidecars capsule).detachedSignature ++
      [("derived_artifacts", Json.object (withoutSidecars capsule).derivedArtifacts),
       ("runtime_sidecar", Json.object (withoutSidecars capsule).runtimeSidecar)]).map
      Prod.fst).Nodup := by
    simp [coreMembers, signatureMembers, withoutSidecars, hs]
  rw [Transport.throughText.lookup_members _ k hnames, storedMembers, List.lookup_append,
    Transport.throughText.lookup_members _ k (by simp [coreMembers]), List.append_assoc,
    List.lookup_append, Option.map_or]
  congr 1
  simp only [withoutSidecars, hs, signatureMembers, List.cons_append, List.nil_append]
  rw [← lookup_map Transport.throughText.value]
  rfl

end ContractCapsule.Registry
