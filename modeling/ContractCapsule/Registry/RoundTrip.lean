import ContractCapsule.Registry.Rows

/-!
# Reconstruction of Published Capsules

The last step of a publication reads the row it has inserted back. The row of a candidate whose
open mappings are settled is reconstructed to the candidate; a candidate with an integral float
beyond the exact integers is refused there, after every gate admitted it.
-/

namespace ContractCapsule.Registry

open Library Models
open Enumeration (wire)

variable {F : Type} [FloatText F] {sha256 : List Char → String}

/-! ## Section 1: The row of a candidate -/

/-- A text that can be read is not empty. -/
theorem isEmpty_eq_false_of_loads {text : List Char} {v : Value F} (h : loads text = some v) :
    text.isEmpty = false := by
  cases text with
  | nil =>
    rw [loads, show Json.read [] = none from rfl, Option.bind_none] at h
    exact absurd h (by simp)
  | cons c cs => rfl

/-- What `_row_to_published` makes of the row of a candidate. -/
theorem rowToPublished_publicationRow {candidate : Capsule (Number F)}
    (h : candidate.valid = true) (hlifecycle : candidate.controlManifest.lifecycle = .published)
    (hdigest : canonicalDigest sha256 candidate = candidate.controlManifest.contentDigest)
    (publicationId : ℕ) (publishedAt : String) :
    rowToPublished sha256 (publicationRow publicationId candidate publishedAt) =
      if candidate.settled then
        some ⟨Transport.throughText.capsule (withoutSidecars candidate), "PUBLISHED", publishedAt⟩
      else none := by
  obtain ⟨signature, hs⟩ := signature_of_published h hlifecycle
  have hbare := valid_withoutSidecars h
  have hcore : loads (jcsText (publicationCore candidate)) =
      some (.object (Transport.throughText.members (coreMembers candidate))) := by
    rw [jcsText, loads_canonicalText (distinct_of_freezable (freezable_publicationCore h)),
      object_throughText, publicationCore]
  have hsignature : loads (jcsText (Canonical.detachedSignature signature)) =
      some (Transport.throughText.value (Canonical.detachedSignature signature)) := by
    have hvalid := (Capsule.valid_iff.mp h).detachedSignature signature hs
    exact loads_canonicalText (distinct_of_freezable (freezable_detachedSignature hvalid))
  have hvalidate : modelValidateJson (dumps asciiStyle (.object (storedMembers candidate signature))) =
      if candidate.settled then
        some (Transport.throughText.capsule (withoutSidecars candidate)) else none := by
    have hnone : ∀ c ∈ ([] : List Char), Json.isBlank c = true := by simp
    have hloads := loads_dumps asciiStyle (distinct_storedMembers h hs) hnone
    rw [List.append_nil] at hloads
    rw [modelValidateJson, hloads, Option.bind_some, modelValidate, capsule_storedMembers hs]
    have hvalid : (Transport.throughText.capsule (withoutSidecars candidate)).valid =
        candidate.settled := valid_throughText hbare rfl rfl
    simp only [Option.filter, hvalid]
  simp only [rowToPublished, publicationRow, signatureDict, hs, Option.map_some, hcore, hsignature,
    isEmpty_eq_false_of_loads hsignature, Bool.false_eq_true, if_false, Wire.object,
    Option.bind_eq_bind, Option.bind_some, setItem_storedMembers, hvalidate]
  split
  · next hsettled =>
    -- the columns agree with the capsule that was read back
    have hreread : (Transport.throughText.capsule (withoutSidecars candidate)).valid = true :=
      (valid_throughText hbare rfl rfl).trans hsettled
    have hsame : canonicalDigest sha256 (Transport.throughText.capsule (withoutSidecars candidate)) =
        canonicalDigest sha256 (withoutSidecars candidate) :=
      canonicalDigest_eq_of_byValue hreread hbare (byValue_throughText hbare hsettled rfl rfl)
    rw [Option.bind_some, if_pos]
    exact ⟨hsame.trans hdigest, rfl, rfl, rfl, rfl⟩
  · rfl

/-! ## Section 2: The round trip -/

/-- The row of a candidate that passed revalidation and the gates is reconstructed, to the same
seven modules and signature, exactly when no extension mapping and no signature envelope of the
candidate has an integral float of at least `2 ^ 53` and less than `10 ^ 21`. -/
theorem reconstructs_iff_settled {capsule candidate : Capsule (Number F)}
    (hcandidate : revalidateCandidate capsule = some candidate)
    (hlifecycle : candidate.controlManifest.lifecycle = .published)
    (hdigest : canonicalDigest sha256 candidate = candidate.controlManifest.contentDigest)
    (publicationId : ℕ) (publishedAt : String) :
    (∃ published : PublishedCapsule F,
      rowToPublished sha256 (publicationRow publicationId candidate publishedAt) = some published ∧
        modulesByValue published.capsule = modulesByValue candidate ∧
        published.publishedAt = publishedAt) ↔
      candidate.settled = true := by
  have hvalid := valid_of_revalidateCandidate hcandidate
  -- the row gives the capsule back exactly when it is settled
  rw [rowToPublished_publicationRow hvalid hlifecycle hdigest]
  constructor
  · rintro ⟨published, hrow, _⟩
    by_contra hsettled
    rw [if_neg hsettled] at hrow
    exact absurd hrow (by simp)
  · intro hsettled
    rw [if_pos hsettled]
    refine ⟨_, rfl, ?_, rfl⟩
    -- and a settled capsule has the values it had
    have hbare := valid_withoutSidecars hvalid
    have hvalue := byValue_throughText hbare hsettled rfl rfl
    rw [modulesByValue, modulesByValue, ← hvalue]
    rfl

/-- A published capsule of one evidence-class atom, with the float `2 ^ 53` in its manifest. -/
def largeFloatCapsule (contentDigest : String) : Capsule (Number IntegralFloat) :=
  { sampleCapsule with
    controlManifest :=
      { sampleCapsule.controlManifest with
        contentDigest := contentDigest
        extensions := [("x-n", .number (.float ⟨2 ^ 53⟩))] }
    semanticPayload :=
      { sampleCapsule.semanticPayload with
        atoms := sampleCapsule.semanticPayload.atoms.map fun atom =>
          { atom with compressionClass := .p2Evidence } } }

theorem largeFloatCapsule_valid {contentDigest : String} (h : isDigest contentDigest = true) :
    (largeFloatCapsule contentDigest).valid = true := by
  have hzero : (largeFloatCapsule zeroDigest).valid = true := by decide +kernel
  have hmodules := Capsule.valid_iff.mp hzero
  have hmanifest := hmodules.controlManifest
  simp only [ControlManifest.valid, Bool.and_eq_true] at hmanifest
  apply Capsule.valid_iff.mpr
  refine { hmodules with controlManifest := ?_, referencesClosed := hmodules.referencesClosed }
  -- the digest occurs in one check of the manifest
  obtain ⟨⟨⟨⟨⟨⟨⟨⟨⟨⟨⟨⟨hid, hversion⟩, _⟩, hrest⟩, h5⟩, h6⟩, h7⟩, h8⟩, h9⟩, h10⟩, h11⟩, h12⟩, h13⟩ := hmanifest
  simp only [ControlManifest.valid, Bool.and_eq_true]
  exact ⟨⟨⟨⟨⟨⟨⟨⟨⟨⟨⟨⟨hid, hversion⟩, h⟩, hrest⟩, h5⟩, h6⟩, h7⟩, h8⟩, h9⟩, h10⟩, h11⟩, h12⟩, h13⟩

/-- Whatever the digest, a valid capsule with a right digest that needs no trust proof is refused
when its row is read back. -/
theorem largeFloatCapsule_refused {sha256 : List Char → String}
    (hsha256 : ∀ text, isDigest (sha256 text) = true) :
    ∃ candidate : Capsule (Number IntegralFloat),
      revalidateCandidate candidate = some candidate ∧
      candidate.controlManifest.lifecycle = .published ∧
      canonicalDigest sha256 candidate = candidate.controlManifest.contentDigest ∧
      requiresM3Gate candidate = false ∧
      ∀ publicationId publishedAt, rowToPublished (F := IntegralFloat) sha256
        (publicationRow publicationId candidate publishedAt) = none := by
  -- the canonical identity leaves the declared digest out
  let contentDigest := canonicalDigest sha256 (largeFloatCapsule zeroDigest)
  have hvalid : (largeFloatCapsule contentDigest).valid = true :=
    largeFloatCapsule_valid (hsha256 _)
  have hdigest : canonicalDigest sha256 (largeFloatCapsule contentDigest) =
      (largeFloatCapsule contentDigest).controlManifest.contentDigest := rfl
  refine ⟨largeFloatCapsule contentDigest, modelValidateJson_dumps unicodeStyle hvalid, rfl, hdigest,
    by rfl, fun publicationId publishedAt => ?_⟩
  rw [rowToPublished_publicationRow hvalid rfl hdigest]
  have hsettled : (largeFloatCapsule contentDigest).settled = false :=
    show (largeFloatCapsule zeroDigest).settled = false by decide +kernel
  exact if_neg (by rw [hsettled]; exact Bool.false_ne_true)

/-- One digest for every text is enough to see it. -/
theorem rowToPublished_largeFloatCapsule :
    ∃ candidate : Capsule (Number IntegralFloat),
      revalidateCandidate candidate = some candidate ∧
      candidate.controlManifest.lifecycle = .published ∧
      canonicalDigest (fun _ => zeroDigest) candidate = candidate.controlManifest.contentDigest ∧
      requiresM3Gate candidate = false ∧
      rowToPublished (F := IntegralFloat) (fun _ => zeroDigest)
        (publicationRow 1 candidate "2026-01-01T00:00:00.000000Z") = none := by
  have hdigest : isDigest zeroDigest = true := by decide +kernel
  obtain ⟨candidate, hcandidate, hlifecycle, hcontent, hgate, hrefused⟩ :=
    @largeFloatCapsule_refused (fun _ => zeroDigest) fun _ => hdigest
  exact ⟨candidate, hcandidate, hlifecycle, hcontent, hgate, hrefused _ _⟩

theorem reconstructs_sampleCapsule :
    ∃ published : PublishedCapsule IntegralFloat,
      rowToPublished (fun _ => zeroDigest)
          (publicationRow 1 sampleCapsule "2026-01-01T00:00:00.000000Z") = some published ∧
        modulesByValue published.capsule = modulesByValue sampleCapsule ∧
        published.publishedAt = "2026-01-01T00:00:00.000000Z" :=
  (reconstructs_iff_settled (modelValidateJson_dumps unicodeStyle sampleCapsule_valid) rfl rfl 1
    "2026-01-01T00:00:00.000000Z").mpr (by decide)

end ContractCapsule.Registry
