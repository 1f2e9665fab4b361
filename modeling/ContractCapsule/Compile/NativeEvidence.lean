import ContractCapsule.Compile.Selection
import ContractCapsule.Library.Unicode
import ContractCapsule.Registry.Success
import ContractCapsule.Resolve.Declared
import ContractCapsule.Twin.RunModels

/-!
# Native Evidence

`compile/evidence.py`: the material of the evidence of an admitted atom, and the expansion of a
handle, which is resolved again through one of the atoms that it names.

`expand_agrees_iff` says when an expansion gives back what a resolution gave: when everything that
the first atom of the handle refers to can be read.
-/

namespace ContractCapsule.Compile

open Library Models Resolve

variable {F : Type} [FloatText F]

/-! ## Section 1: The resolver -/

/-- `Registry.get`, of a registry that publications have filled. What it reads is valid. -/
def readRegistry (R : Registry.OpenRegistry F) (capsuleId version : String)
    (principal : Principal) : Option (Publication F) :=
  match R.get capsuleId version principal.principalId with
  | .error _ => none
  | .ok published =>
    if hvalid : published.capsule.valid = true then some ⟨published, hvalid⟩ else none

section Registry

variable {R : Registry.OpenRegistry F} {capsuleId version : String} {principal : Principal}
  {p : Publication F}

theorem get_of_readRegistry (h : readRegistry R capsuleId version principal = some p) :
    R.get capsuleId version principal.principalId = .ok p.val := by
  unfold readRegistry at h
  split at h
  · cases h
  · next published hget =>
    split at h
    · rw [hget, ← Option.some.inj h]
    · cases h

theorem readRegistry_of_get (h : R.get capsuleId version principal.principalId = .ok p.val) :
    readRegistry R capsuleId version principal = some p := by
  rw [readRegistry, h]
  exact dif_pos p.property

/-- A version is read under its own name. -/
theorem readRegistry_keyed (h : readRegistry R capsuleId version principal = some p) :
    (capsuleOf p).controlManifest.capsuleId = capsuleId ∧
      (capsuleOf p).controlManifest.version = version := by
  obtain ⟨hid, hversion, _, _⟩ := Registry.version_of_get (get_of_readRegistry h)
  exact ⟨hid, hversion⟩

end Registry

/-- `NativeEvidenceResolver` of `compile/evidence.py`, with what it reads from. A source or a
service that raises has no value. -/
structure NativeSources (F : Type) [FloatText F] where
  env : Environment F
  digestBytes : Twin.Bytes → String
  scanBytes : Twin.Bytes → Bool
  /-- the registry that is read, for its versions and for its blobs -/
  store : Registry.OpenRegistry F
  registry : String → String → Principal → Option (Publication F)
  registry_eq : ∀ capsuleId version principal,
    registry capsuleId version principal = readRegistry store capsuleId version principal
  /-- `Registry.get_blob` -/
  getBlob : String → Principal → Option Twin.Bytes
  getBlob_eq : ∀ digest principal,
    getBlob digest principal = (store.getBlob digest principal.principalId).toOption
  authorizer : EligibilityAuthorizer F
  freshness : FreshnessChecker F
  gitRoots : List (String × String)
  externalSources : List (String × String)
  /-- `read_git_evidence` -/
  readGitEvidence : String → EvidenceRecord (Number F) → Except CompileError Twin.Bytes
  /-- `_local_bytes` -/
  localBytes : String → Except CompileError Twin.Bytes

/-- `version` -/
def resolverVersion : String := "1.0.0"

/-- `except CompileError: raise` and `except Exception` behind it -/
def failClosed {α : Type} : Except CompileError α → Except CompileError α
  | .error .unexpected => .error .evidenceUnavailable
  | x => x

@[simp] theorem failClosed_eq_ok {α : Type} (x : Except CompileError α) (a : α) :
    failClosed x = .ok a ↔ x = .ok a := by
  cases x with
  | ok b => rfl
  | error e => cases e <;> simp [failClosed]

/-- `content.decode("utf-8", errors="strict")` -/
def decodeText (content : Twin.Bytes) : Option String :=
  ((utf8 false).decode content).map fun text => String.ofList (text.map fun c => Char.ofNat c.val)

namespace NativeSources

variable (N : NativeSources F)

/-- The resolver that admits a publication. -/
def resolver (asOf : String) : EligibilityResolver F where
  sha256 := N.env.sha256
  registry := N.registry
  authorizer := N.authorizer
  freshness := N.freshness
  asOf := asOf
  maxSensitivity := .restricted

/-- `_admit` -/
def admitted (pub : Publication F) (principal : Principal) (task : TaskContext) (asOf : String) :
    Except CompileError (AdmittedCapsule F) := do
  raiseIf (isTimestampString asOf = false) .invalidConfiguration
  let admission ← (N.resolver asOf).resolve [pub] task principal
  match admission.items with
  | [item] => .ok item
  | _ => .error .evidenceUnauthorized

/-- The bytes that `_content` reads, by the mode of the record. -/
def sourceBytes (record : EvidenceRecord (Number F)) (principal : Principal) :
    Except CompileError Twin.Bytes :=
  match record.source with
  | .cas => orRaise (N.getBlob record.contentDigest principal) .unexpected
  | .gitImmutable repository _ path _ => do
    let root ← orRaise (N.gitRoots.lookup repository) .evidenceUnavailable
    raiseIf (isSafeRelativePath path "" = false) .evidenceUnavailable
    N.readGitEvidence root record
  | .externalImmutable uri _ _ => do
    let path ← orRaise (N.externalSources.lookup uri) .evidenceUnavailable
    N.localBytes path

/-- `_content` -/
def content (record : EvidenceRecord (Number F)) (principal : Principal) :
    Except CompileError Twin.Bytes := do
  let content ← N.sourceBytes record principal
  raiseIf (N.digestBytes content ≠ record.contentDigest) .evidenceIntegrity
  raiseIf (N.scanBytes content = true) .secretDetected
  pure content

/-- What `_material` reads of a record: its text, and the excerpt with its digest. -/
def reading (record : EvidenceRecord (Number F)) (principal : Principal) :
    Except CompileError (String × String × Option String) := do
  let content ← N.content record principal
  let text ← orRaise (decodeText content) .unexpected
  let (excerpt, spanDigest) ← N.env.sourceSpan record text
  pure (text, excerpt, spanDigest)

/-- The handle of a record. A shared record does not disclose the atoms that are not admitted. -/
def handleOf (admitted : AdmittedCapsule F) (record : EvidenceRecord (Number F))
    (spanDigest : Option String) : EvidenceHandle where
  capsule := admitted.ref
  evidenceId := record.evidenceId
  atomIds := uniqueStrings (record.atomIds.filter (· ∈ admitted.atomIds))
  mode := record.mode
  contentDigest := record.contentDigest
  spanDigest := spanDigest
  resolverVersion := resolverVersion

/-- `_material` -/
def material (admitted : AdmittedCapsule F) (principal : Principal)
    (record : EvidenceRecord (Number F)) : Except CompileError EvidenceMaterial := do
  let (text, excerpt, spanDigest) ← N.reading record principal
  let handle := handleOf admitted record spanDigest
  raiseIf (handleValid handle = false) .unexpected
  pure { handle := handle, excerpt := excerpt, fullText := text }

/-- The digests of the contexts of the services. -/
def context (principal : Principal) (task : TaskContext) : Except CompileError (String × String) := do
  let permission ← orRaise (N.authorizer.contextDigest task principal) .unexpected
  let freshness ← orRaise N.freshness.contextDigest .unexpected
  pure (permission, freshness)

/-- The records of a capsule that an atom refers to, in the order of their identifiers. -/
def referenced (pub : Publication F) (atom : Atom (Number F)) : List (EvidenceRecord (Number F)) :=
  ((capsuleOf pub).evidencePlane.records.insertionSort
    fun a b => a.evidenceId ≤ b.evidenceId).filter
      fun record => record.evidenceId ∈ atom.evidenceRefs

/-- The atom of a capsule with an identifier. -/
def atomOf (pub : Publication F) (atomId : String) : Option (Atom (Number F)) :=
  (capsuleOf pub).semanticPayload.atoms.find? fun atom => atom.atomId = atomId

variable [DecidableEq F]

/-- The body of `resolve` -/
def resolveBody (capsule : Publication F) (atom : Atom (Number F)) (principal : Principal)
    (task : TaskContext) (asOf : String) : Except CompileError (List EvidenceMaterial) := do
  let before ← N.context principal task
  let admitted ← N.admitted capsule principal task asOf
  -- identifiers of a payload are distinct, so the dictionary of its atoms is a search
  raiseIf (atom.atomId ∉ admitted.atomIds ∨ atomOf admitted.published atom.atomId ≠ some atom)
    .evidenceUnauthorized
  let material ← (referenced admitted.published atom).mapM (N.material admitted principal)
  raiseIf (material.length ≠ atom.evidenceRefs.dedup.length ∨ material = []) .evidenceUnavailable
  let after ← N.context principal task
  raiseIf (before ≠ after) .policySnapshotChanged
  pure material

/-- `resolve` -/
def resolve (capsule : Publication F) (atom : Atom (Number F)) (principal : Principal)
    (task : TaskContext) (asOf : String) : Except CompileError (List EvidenceMaterial) :=
  failClosed (N.resolveBody capsule atom principal task asOf)

/-- The body of `expand` -/
def expandBody (handle : EvidenceHandle) (principal : Principal) (task : TaskContext)
    (asOf : String) : Except CompileError EvidenceMaterial := do
  let pub ← orRaise (N.registry handle.capsule.capsuleId handle.capsule.version principal)
    .unexpected
  raiseIf (capsuleRef (capsuleOf pub) ≠ handle.capsule ∨ handle.resolverVersion ≠ resolverVersion)
    .evidenceIntegrity
  let admitted ← N.admitted pub principal task asOf
  raiseIf (handle.atomIds = [] ∨ ∃ atomId ∈ handle.atomIds, atomId ∉ admitted.atomIds)
    .evidenceUnauthorized
  -- `next` finds the first atom that the handle names
  let atom ← orRaise (handle.atomIds.head?.bind (atomOf pub)) .unexpected
  let sources ← N.resolve pub atom principal task asOf
  orRaise (sources.find? fun source => source.handle = handle) .evidenceIntegrity

/-- `expand` -/
def expand (handle : EvidenceHandle) (principal : Principal) (task : TaskContext)
    (asOf : String) : Except CompileError EvidenceMaterial :=
  failClosed (N.expandBody handle principal task asOf)

/-- `config_digest` -/
def configDigest : String :=
  snapshotDigest (F := F) N.env.sha256 (.object
    [("version", .string resolverVersion),
     ("git_roots", .object (N.gitRoots.map fun root => (root.1, .string root.2))),
     ("external_sources", .object (N.externalSources.map fun source => (source.1, .string source.2))),
     ("authorizer_version", .string N.authorizer.version),
     ("freshness_version", .string N.freshness.version)])

/-- The resolver as the service of a compiler. -/
def service : NativeEvidenceResolver F where
  version := resolverVersion
  configDigest := N.configDigest
  native := true
  resolve := N.resolve
  expand := N.expand

end NativeSources

/-! ## Section 2: Bindings -/

section Bindings

variable (pub : Publication F)

theorem nodup_evidenceIds :
    ((capsuleOf pub).evidencePlane.records.map EvidenceRecord.evidenceId).Nodup := by
  have hvalid := (Capsule.valid_iff.mp pub.property).evidencePlane
  simp only [EvidencePlane.valid, Bool.and_eq_true, decide_eq_true_eq] at hvalid
  exact hvalid.2

theorem nodup_atomIds : ((capsuleOf pub).semanticPayload.atoms.map Atom.atomId).Nodup := by
  have hvalid := (Capsule.valid_iff.mp pub.property).semanticPayload
  simp only [SemanticPayload.valid, Bool.and_eq_true, decide_eq_true_eq] at hvalid
  exact hvalid.2

variable {pub}

/-- The records of a capsule are told apart by their identifiers. -/
theorem record_eq {a b : EvidenceRecord (Number F)}
    (ha : a ∈ (capsuleOf pub).evidencePlane.records) (hb : b ∈ (capsuleOf pub).evidencePlane.records)
    (h : a.evidenceId = b.evidenceId) : a = b :=
  List.inj_on_of_nodup_map (nodup_evidenceIds pub) ha hb h

theorem atom_eq {a b : Atom (Number F)} (ha : a ∈ (capsuleOf pub).semanticPayload.atoms)
    (hb : b ∈ (capsuleOf pub).semanticPayload.atoms) (h : a.atomId = b.atomId) : a = b :=
  List.inj_on_of_nodup_map (nodup_atomIds pub) ha hb h

theorem atomOf_eq_some {atomId : String} {atom : Atom (Number F)} :
    NativeSources.atomOf pub atomId = some atom ↔
      atom ∈ (capsuleOf pub).semanticPayload.atoms ∧ atom.atomId = atomId := by
  constructor
  · intro h
    exact ⟨List.mem_of_find?_eq_some h, by simpa using List.find?_some h⟩
  · rintro ⟨hmem, rfl⟩
    unfold NativeSources.atomOf
    cases hfind : (capsuleOf pub).semanticPayload.atoms.find? fun a => a.atomId = atom.atomId with
    | none =>
      rw [List.find?_eq_none] at hfind
      exact absurd (decide_eq_true rfl) (hfind atom hmem)
    | some found =>
      have hfound : found.atomId = atom.atomId := by simpa using List.find?_some hfind
      rw [atom_eq (List.mem_of_find?_eq_some hfind) hmem hfound]

/-- **Reciprocity**: an atom refers to a record exactly when the record maps the atom. -/
theorem mem_evidenceRefs_iff {atom : Atom (Number F)} {record : EvidenceRecord (Number F)}
    (hatom : atom ∈ (capsuleOf pub).semanticPayload.atoms)
    (hrecord : record ∈ (capsuleOf pub).evidencePlane.records) :
    record.evidenceId ∈ atom.evidenceRefs ↔ atom.atomId ∈ record.atomIds := by
  have hclosed := (Capsule.valid_iff.mp pub.property).referencesClosed
  simp only [Capsule.referencesClosed, Bool.and_eq_true, List.all_eq_true,
    List.contains_iff_mem] at hclosed
  obtain ⟨⟨⟨⟨⟨_, hto⟩, hback⟩, _⟩, _⟩, _⟩ := hclosed
  constructor
  -- the references of a valid capsule are closed in both directions
  · intro h
    have hbinding : (atom.atomId, record.evidenceId) ∈
        (capsuleOf pub).semanticPayload.bindings :=
      List.mem_flatMap.mpr ⟨atom, hatom, List.mem_map_of_mem h⟩
    obtain ⟨other, hother, hmap⟩ := List.mem_flatMap.mp (hto _ hbinding)
    obtain ⟨atomId, hmem, heq⟩ := List.mem_map.mp hmap
    rw [Prod.mk.injEq] at heq
    rw [← record_eq hother hrecord heq.2, ← heq.1]
    exact hmem
  · intro h
    have hbinding : (atom.atomId, record.evidenceId) ∈ (capsuleOf pub).evidencePlane.bindings :=
      List.mem_flatMap.mpr ⟨record, hrecord, List.mem_map_of_mem h⟩
    obtain ⟨other, hother, hmap⟩ := List.mem_flatMap.mp (hback _ hbinding)
    obtain ⟨evidenceId, hmem, heq⟩ := List.mem_map.mp hmap
    rw [Prod.mk.injEq] at heq
    rw [← atom_eq hother hatom heq.1, ← heq.2]
    exact hmem

theorem mem_referenced {atom : Atom (Number F)} {record : EvidenceRecord (Number F)} :
    record ∈ NativeSources.referenced pub atom ↔
      record ∈ (capsuleOf pub).evidencePlane.records ∧ record.evidenceId ∈ atom.evidenceRefs := by
  rw [NativeSources.referenced, List.mem_filter, List.mem_insertionSort, decide_eq_true_eq]

/-- There are as many records as references. -/
theorem length_referenced {atom : Atom (Number F)}
    (hatom : atom ∈ (capsuleOf pub).semanticPayload.atoms) :
    (NativeSources.referenced pub atom).length = atom.evidenceRefs.dedup.length := by
  have hsorted := List.perm_insertionSort (fun a b : EvidenceRecord (Number F) =>
    a.evidenceId ≤ b.evidenceId) (capsuleOf pub).evidencePlane.records
  have hnodup : ((NativeSources.referenced pub atom).map EvidenceRecord.evidenceId).Nodup := by
    have hall := (hsorted.map EvidenceRecord.evidenceId).nodup_iff.mpr (nodup_evidenceIds pub)
    exact hall.sublist ((List.filter_sublist).map _)
  -- both have the same elements once: a reference of a valid capsule names a record
  have hperm : ((NativeSources.referenced pub atom).map EvidenceRecord.evidenceId).Perm
      atom.evidenceRefs.dedup := by
    apply (List.perm_ext_iff_of_nodup hnodup (List.nodup_dedup _)).mpr
    intro evidenceId
    rw [List.mem_dedup, List.mem_map]
    constructor
    · rintro ⟨record, hrecord, rfl⟩
      exact (mem_referenced.mp hrecord).2
    · intro hmem
      have hclosed := (Capsule.valid_iff.mp pub.property).referencesClosed
      simp only [Capsule.referencesClosed, Bool.and_eq_true, List.all_eq_true,
        List.contains_iff_mem] at hclosed
      obtain ⟨record, hrecord, rfl⟩ :=
        List.mem_map.mp (hclosed.1.1.1.1.1.1 atom hatom evidenceId hmem)
      exact ⟨record, mem_referenced.mpr ⟨hrecord, hmem⟩, rfl⟩
  rw [← hperm.length_eq, List.length_map]

end Bindings

/-! ## Section 3: Admission -/

/-- One publication is what it is grouped to. -/
theorem unique_singleton (r : EligibilityResolver F) (p : Publication F) :
    r.unique [p] = ([p], []) := by
  simp [EligibilityResolver.unique, List.filter_cons]

namespace NativeSources

variable {N : NativeSources F} {principal : Principal} {task : TaskContext} {asOf : String}

/-- A version is read under its own name. -/
theorem keyed {capsuleId version : String} {p : Publication F}
    (h : N.registry capsuleId version principal = some p) :
    (capsuleOf p).controlManifest.capsuleId = capsuleId ∧
      (capsuleOf p).controlManifest.version = version := by
  rw [N.registry_eq] at h
  exact readRegistry_keyed h

/-- A publication is admitted when the policies have digests and its capsule passes the gates. -/
theorem admitted_eq_ok_iff {p : Publication F} {item : AdmittedCapsule F} :
    N.admitted p principal task asOf = .ok item ↔
      isTimestampString asOf = true ∧
        (∃ digests, (N.resolver asOf).snapshot task principal = .ok digests) ∧
        p.val.registryStatus = "PUBLISHED" ∧
        ∃ codes, (N.resolver asOf).admitCapsule (capsuleOf p) task principal =
          .ok (item, codes) := by
  simp only [admitted, EligibilityResolver.resolve, unique_singleton, Except.bind_eq_ok,
    raiseIf_eq_ok, Except.pure_eq_ok, EligibilityResolver.admitAll, List.map_cons, List.map_nil,
    Bool.not_eq_false]
  -- an answer for one publication: it admits it, or its decision has no item
  constructor
  · rintro ⟨_, htime, admission, ⟨before, hbefore, after, _, _, _, rfl⟩, hitem⟩
    refine ⟨htime, ⟨before, hbefore⟩, ?_⟩
    -- not published: the decision refuses before the capsule is looked at
    by_cases hstatus : p.val.registryStatus = "PUBLISHED"
    · refine ⟨hstatus, ?_⟩
      rw [if_neg (not_not.mpr hstatus)] at hitem
      cases hgranted : (N.resolver asOf).admitCapsule (capsuleOf p) task principal with
      | error code => simp [hgranted, decision, Except.toOption] at hitem
      | ok pair =>
        simp only [hgranted, decision, Except.toOption, List.filterMap_cons, Option.map_some,
          List.filterMap_nil, Except.ok.injEq] at hitem
        exact ⟨pair.2, by rw [← hitem]⟩
    · rw [if_pos hstatus] at hitem
      simp [decision, Except.toOption] at hitem
  · rintro ⟨htime, ⟨digests, hdigests⟩, hstatus, codes, hgranted⟩
    refine ⟨(), htime, _, ⟨digests, hdigests, digests, hdigests, (), fun h => h rfl, rfl⟩, ?_⟩
    rw [if_neg (not_not.mpr hstatus), hgranted]
    rfl

/-- What is admitted is the publication that the registry has, and it is admitted itself. -/
theorem admitted_published {p : Publication F} {item : AdmittedCapsule F}
    (h : N.admitted p principal task asOf = .ok item) :
    N.registry item.ref.capsuleId item.ref.version principal = some item.published ∧
      N.admitted item.published principal task asOf = .ok item := by
  obtain ⟨htime, hdigests, _, codes, hgranted⟩ := admitted_eq_ok_iff.mp h
  simp only [EligibilityResolver.admitCapsule, EligibilityResolver.verified, Except.bind_eq_ok,
    orRaise_eq_ok, raiseIf_eq_ok, Except.pure_eq_ok, Prod.mk.injEq] at hgranted
  obtain ⟨q, ⟨found, hfound, _, _, rfl⟩, _, hgates, hitem, hcodes⟩ := hgranted
  -- the publication was found under its own version
  obtain ⟨hid, hversion⟩ := keyed hfound
  have hself : N.registry (capsuleOf found).controlManifest.capsuleId
      (capsuleOf found).controlManifest.version principal = some found := by
    rw [hid, hversion]
    exact hfound
  have hpublished : item.published = found := by rw [← hitem]
  rw [AdmittedCapsule.ref, hpublished]
  refine ⟨hself, admitted_eq_ok_iff.mpr ⟨htime, hdigests, ?_, codes, ?_⟩⟩
  · have hlifecycle := hgates
    simp only [EligibilityResolver.capsuleGates, Except.bind_eq_ok, require, raiseIf_eq_ok,
      not_not, Option.some.injEq, Bool.and_eq_true, beq_iff_eq] at hlifecycle
    exact hlifecycle.choose_spec.1.1
  · simp only [EligibilityResolver.admitCapsule, EligibilityResolver.verified, Except.bind_eq_ok,
      orRaise_eq_ok, raiseIf_eq_ok, Except.pure_eq_ok, Prod.mk.injEq]
    exact ⟨found, ⟨found, hself, (), fun h => h rfl, rfl⟩, (), hgates, hitem, hcodes⟩

/-- An admission has read all blobs of its capsule: what keeps evidence of an admitted capsule from
being read is never a missing blob. -/
theorem stored_of_admitted {p : Publication F} {item : AdmittedCapsule F}
    (h : N.admitted p principal task asOf = .ok item) {record : EvidenceRecord (Number F)}
    (hrecord : record ∈ (capsuleOf item.published).evidencePlane.records)
    (hmode : record.mode = "CAS") :
    ∃ data, N.store.stored record.contentDigest = some (record.mediaType, data) := by
  have hread := (admitted_published h).1
  rw [N.registry_eq] at hread
  exact Registry.OpenRegistry.stored_of_get (get_of_readRegistry hread) hrecord hmode

/-- An admitted atom is one of the payload. -/
theorem mem_atoms_of_admitted {p : Publication F} {item : AdmittedCapsule F}
    (h : N.admitted p principal task asOf = .ok item) {atomId : String}
    (hmem : atomId ∈ item.atomIds) : ∃ atom, atomOf item.published atomId = some atom := by
  obtain ⟨_, _, _, codes, hgranted⟩ := admitted_eq_ok_iff.mp h
  simp only [EligibilityResolver.admitCapsule, Except.bind_eq_ok, Except.pure_eq_ok,
    Prod.mk.injEq] at hgranted
  obtain ⟨q, _, _, _, rfl, _⟩ := hgranted
  rw [mem_uniqueStrings] at hmem
  obtain ⟨atom, hatom, hid⟩ := List.mem_map.mp hmem
  exact ⟨atom, atomOf_eq_some.mpr ⟨(List.mem_filter.mp hatom).1, hid⟩⟩

/-! ## Section 4: Material -/

/-- The handle of a record of an admitted capsule is well formed. -/
theorem handleValid_handleOf {item : AdmittedCapsule F} {record : EvidenceRecord (Number F)}
    (hrecord : record ∈ (capsuleOf item.published).evidencePlane.records)
    (spanDigest : Option String) : handleValid (handleOf item record spanDigest) = true := by
  have hplane := (Capsule.valid_iff.mp item.published.property).evidencePlane
  simp only [EvidencePlane.valid, Bool.and_eq_true, List.all_eq_true] at hplane
  have hvalid := hplane.1.1.1 record hrecord
  simp only [EvidenceRecord.valid, Bool.and_eq_true] at hvalid
  obtain ⟨⟨⟨⟨⟨⟨⟨⟨⟨hid, hatoms⟩, _⟩, _⟩, _⟩, _⟩, _⟩, _⟩, _⟩, _⟩ := hvalid
  have hmembers : nonEmptyStrings (handleOf item record spanDigest).atomIds = true := by
    simp only [nonEmptyStrings, List.all_eq_true] at hatoms ⊢
    intro atomId hmem
    rw [handleOf, mem_uniqueStrings] at hmem
    exact hatoms atomId (List.mem_filter.mp hmem).1
  have hmode : ["CAS", "GIT_IMMUTABLE", "EXTERNAL_IMMUTABLE"].contains record.mode = true := by
    rw [EvidenceRecord.mode]
    cases record.source <;> rfl
  simp only [handleValid, Bool.and_eq_true]
  exact ⟨⟨⟨⟨valid_ref item, hid⟩, hmembers⟩, hmode⟩, rfl⟩

/-- A record gives material exactly when it can be read. -/
theorem material_eq_ok_iff {item : AdmittedCapsule F} {record : EvidenceRecord (Number F)}
    (hrecord : record ∈ (capsuleOf item.published).evidencePlane.records) {m : EvidenceMaterial} :
    N.material item principal record = .ok m ↔
      ∃ text excerpt spanDigest,
        N.reading record principal = .ok (text, excerpt, spanDigest) ∧
          m = { handle := handleOf item record spanDigest, excerpt := excerpt, fullText := text } := by
  simp only [material, Except.bind_eq_ok, raiseIf_eq_ok, Except.pure_eq_ok,
    handleValid_handleOf hrecord, Bool.true_eq_false, not_false_eq_true]
  constructor
  · rintro ⟨⟨text, excerpt, spanDigest⟩, hreading, _, _, rfl⟩
    exact ⟨text, excerpt, spanDigest, hreading, rfl⟩
  · rintro ⟨text, excerpt, spanDigest, hreading, rfl⟩
    exact ⟨(text, excerpt, spanDigest), hreading, (), trivial, rfl⟩

/-- `_content` and `_source_span` read a record. -/
def Readable (N : NativeSources F) (principal : Principal) (record : EvidenceRecord (Number F)) :
    Prop :=
  ∃ r, N.reading record principal = .ok r

variable [DecidableEq F]

/-- An atom of an admitted capsule resolves exactly when all that it refers to can be read: its
material is that of each record, in the order of the records. -/
theorem resolve_eq_ok_iff {p : Publication F} {atom : Atom (Number F)}
    {materials : List EvidenceMaterial} :
    N.resolve p atom principal task asOf = .ok materials ↔
      (∃ digests, N.context principal task = .ok digests) ∧
        ∃ item, N.admitted p principal task asOf = .ok item ∧
          atom.atomId ∈ item.atomIds ∧ atomOf item.published atom.atomId = some atom ∧
          (referenced item.published atom).mapM (N.material item principal) = .ok materials ∧
          materials ≠ [] := by
  simp only [resolve, failClosed_eq_ok, resolveBody, Except.bind_eq_ok, raiseIf_eq_ok,
    Except.pure_eq_ok, not_or, not_not]
  constructor
  · rintro ⟨digests, hdigests, item, hitem, _, ⟨hatom, hfound⟩, found, hfound', _, ⟨_, hsome⟩,
      _, _, _, _, rfl⟩
    exact ⟨⟨digests, hdigests⟩, item, hitem, hatom, hfound, hfound', hsome⟩
  · rintro ⟨⟨digests, hdigests⟩, item, hitem, hatom, hfound, hmaterials, hsome⟩
    -- a capsule has a record for each reference of its atoms
    have hlength : materials.length = atom.evidenceRefs.dedup.length := by
      rw [← length_referenced (atomOf_eq_some.mp hfound).1]
      exact (forall₂_mapM hmaterials).length_eq.symm
    exact ⟨digests, hdigests, item, hitem, (), ⟨hatom, hfound⟩, materials, hmaterials, (),
      ⟨hlength, hsome⟩, digests, hdigests, (), rfl, rfl⟩

omit [DecidableEq F] in
/-- The material of an atom is that of a record that it refers to. -/
theorem record_of_mem {item : AdmittedCapsule F} {atom : Atom (Number F)}
    {materials : List EvidenceMaterial} {m : EvidenceMaterial}
    (h : (referenced item.published atom).mapM (N.material item principal) = .ok materials)
    (hm : m ∈ materials) :
    ∃ record ∈ referenced item.published atom, N.material item principal record = .ok m ∧
      ∃ spanDigest, m.handle = handleOf item record spanDigest := by
  obtain ⟨record, hrecord, hmaterial⟩ := exists_of_mem_mapM h hm
  obtain ⟨_, _, spanDigest, _, rfl⟩ := (material_eq_ok_iff (mem_referenced.mp hrecord).1).mp hmaterial
  exact ⟨record, hrecord, hmaterial, spanDigest, rfl⟩

omit [DecidableEq F] in
/-- The material of an atom is found by its handle. -/
theorem find?_handle {item : AdmittedCapsule F} {atom : Atom (Number F)}
    {materials : List EvidenceMaterial} {m : EvidenceMaterial}
    (h : (referenced item.published atom).mapM (N.material item principal) = .ok materials)
    (hm : m ∈ materials) : (materials.find? fun source => source.handle = m.handle) = some m := by
  cases hfind : materials.find? fun source => source.handle = m.handle with
  | none =>
    rw [List.find?_eq_none] at hfind
    exact absurd (decide_eq_true rfl) (hfind m hm)
  | some found =>
    have hhandle : found.handle = m.handle := by simpa using List.find?_some hfind
    obtain ⟨record, hrecord, hmaterial, _, heq⟩ := record_of_mem h hm
    obtain ⟨other, hother, hmaterial', _, heq'⟩ :=
      record_of_mem h (List.mem_of_find?_eq_some hfind)
    -- handles of one capsule with one evidence identifier are of one record
    have hid : other.evidenceId = record.evidenceId := by
      have hids := congrArg EvidenceHandle.evidenceId hhandle
      rwa [heq, heq'] at hids
    have hsame := record_eq (mem_referenced.mp hother).1 (mem_referenced.mp hrecord).1 hid
    rw [hsame, hmaterial] at hmaterial'
    rw [Except.ok.inj hmaterial']

/-! ## Section 5: Expansion -/

/-- What an expansion goes through when it returns. -/
theorem expand_eq_ok_iff {handle : EvidenceHandle} {m : EvidenceMaterial} :
    N.expand handle principal task asOf = .ok m ↔
      ∃ pub, N.registry handle.capsule.capsuleId handle.capsule.version principal = some pub ∧
        capsuleRef (capsuleOf pub) = handle.capsule ∧ handle.resolverVersion = resolverVersion ∧
        ∃ item, N.admitted pub principal task asOf = .ok item ∧
          handle.atomIds ≠ [] ∧ (∀ atomId ∈ handle.atomIds, atomId ∈ item.atomIds) ∧
          ∃ atom, handle.atomIds.head?.bind (atomOf pub) = some atom ∧
            ∃ sources, N.resolve pub atom principal task asOf = .ok sources ∧
              (sources.find? fun source => source.handle = handle) = some m := by
  simp only [expand, failClosed_eq_ok, expandBody, Except.bind_eq_ok, raiseIf_eq_ok,
    orRaise_eq_ok, not_or, not_not, not_exists, not_and]
  constructor
  · rintro ⟨pub, hpub, _, ⟨href, hversion⟩, item, hitem, _, ⟨hsome, hall⟩, atom, hatom, sources,
      hsources, hfind⟩
    exact ⟨pub, hpub, href, hversion, item, hitem, hsome, hall, atom, hatom, sources, hsources,
      hfind⟩
  · rintro ⟨pub, hpub, href, hversion, item, hitem, hsome, hall, atom, hatom, sources,
      hsources, hfind⟩
    exact ⟨pub, hpub, (), ⟨href, hversion⟩, item, hitem, (), ⟨hsome, hall⟩, atom, hatom, sources,
      hsources, hfind⟩

/-- Everything can be read that the first atom of a handle refers to. -/
def FirstReadable (N : NativeSources F) (principal : Principal) (handle : EvidenceHandle) : Prop :=
  ∀ pub, N.registry handle.capsule.capsuleId handle.capsule.version principal = some pub →
    ∀ atom, handle.atomIds.head?.bind (atomOf pub) = some atom →
      ∀ record ∈ referenced pub atom, N.Readable principal record

omit [DecidableEq F] in
/-- The first atom that a handle names is admitted with the atom that it was made for, and refers
to the record of the handle as well. -/
theorem first_of_handle {p : Publication F} {item : AdmittedCapsule F} {atom : Atom (Number F)}
    (hitem : N.admitted p principal task asOf = .ok item) (hatom : atom.atomId ∈ item.atomIds)
    (hfound : atomOf item.published atom.atomId = some atom) {record : EvidenceRecord (Number F)}
    (hrecord : record ∈ referenced item.published atom) (spanDigest : Option String) :
    ∃ first, (handleOf item record spanDigest).atomIds.head?.bind (atomOf item.published) =
        some first ∧
      first.atomId ∈ item.atomIds ∧ record ∈ referenced item.published first ∧
      atomOf item.published first.atomId = some first := by
  -- an atom that refers to the record is a member of its handle, so the handle names some atom
  have hplane := (mem_referenced.mp hrecord).1
  have hmembers : ∀ atomId, atomId ∈ (handleOf item record spanDigest).atomIds ↔
      atomId ∈ record.atomIds ∧ atomId ∈ item.atomIds := by
    intro atomId
    rw [handleOf, mem_uniqueStrings, List.mem_filter, decide_eq_true_eq]
  have hself : atom.atomId ∈ (handleOf item record spanDigest).atomIds := by
    apply (hmembers _).mpr
    refine ⟨?_, hatom⟩
    exact (mem_evidenceRefs_iff (atomOf_eq_some.mp hfound).1 hplane).mp (mem_referenced.mp hrecord).2
  cases hids : (handleOf item record spanDigest).atomIds with
  | nil =>
    rw [hids] at hself
    cases hself
  -- the first one was admitted too, and the record is bound to it as well
  | cons firstId rest =>
    obtain ⟨hrefers, hadmitted⟩ := (hmembers firstId).mp (by rw [hids]; exact List.mem_cons_self)
    obtain ⟨first, hfirst⟩ := mem_atoms_of_admitted hitem hadmitted
    obtain ⟨hmem, rfl⟩ := atomOf_eq_some.mp hfirst
    refine ⟨first, hfirst, hadmitted, mem_referenced.mpr ⟨hplane, ?_⟩, hfirst⟩
    exact (mem_evidenceRefs_iff hmem hplane).mpr hrefers

/-- An admitted atom with a record resolves exactly when all that it refers to can be read. -/
theorem resolves_iff {item : AdmittedCapsule F} {atom : Atom (Number F)}
    (hdigests : ∃ digests, N.context principal task = .ok digests)
    (hitem : N.admitted item.published principal task asOf = .ok item)
    (hatom : atom.atomId ∈ item.atomIds)
    (hfound : atomOf item.published atom.atomId = some atom)
    {record : EvidenceRecord (Number F)} (hrecord : record ∈ referenced item.published atom) :
    (∃ materials, N.resolve item.published atom principal task asOf = .ok materials) ↔
      ∀ record ∈ referenced item.published atom, N.Readable principal record := by
  constructor
  -- the admission is a function of its arguments, so it is the same item
  · rintro ⟨materials, hresolve⟩ other hother
    obtain ⟨_, item', hitem', _, _, hmaterials, _⟩ := resolve_eq_ok_iff.mp hresolve
    rw [hitem, Except.ok.injEq] at hitem'
    subst hitem'
    obtain ⟨m, _, hmaterial⟩ := value_of_mem_mapM hmaterials hother
    obtain ⟨text, excerpt, spanDigest, hreading, _⟩ :=
      (material_eq_ok_iff (mem_referenced.mp hother).1).mp hmaterial
    exact ⟨_, hreading⟩
  -- each record is read on its own, so together they are read
  · intro hall
    have hsteps : ∀ other ∈ referenced item.published atom,
        ∃ m, N.material item principal other = .ok m := by
      intro other hother
      obtain ⟨⟨text, excerpt, spanDigest⟩, hreading⟩ := hall other hother
      exact ⟨_, (material_eq_ok_iff (mem_referenced.mp hother).1).mpr
        ⟨text, excerpt, spanDigest, hreading, rfl⟩⟩
    obtain ⟨materials, hmaterials⟩ := exists_mapM hsteps
    refine ⟨materials, resolve_eq_ok_iff.mpr
      ⟨hdigests, item, hitem, hatom, hfound, hmaterials, ?_⟩⟩
    -- a list without materials would come from no record
    rintro rfl
    obtain ⟨m, hm, _⟩ := value_of_mem_mapM hmaterials hrecord
    cases hm

/-- **Expansion agrees with resolution**: a handle that a resolution made expands to its material
exactly when all can be read that the first atom of the handle refers to, which may be more than
what the resolved atom refers to; and what a handle expands to is the material of an admitted atom
that it names. -/
theorem expand_agrees_iff (N : NativeSources F) (principal : Principal) (task : TaskContext)
    (asOf : String) :
    (∀ p atom materials, N.resolve p atom principal task asOf = .ok materials → ∀ m ∈ materials,
        (N.expand m.handle principal task asOf = .ok m ↔ N.FirstReadable principal m.handle)) ∧
      ∀ handle m, N.expand handle principal task asOf = .ok m →
        m.handle = handle ∧ ∃ p item atom materials,
          N.admitted p principal task asOf = .ok item ∧ atom.atomId ∈ item.atomIds ∧
            atom.atomId ∈ handle.atomIds ∧
            N.resolve p atom principal task asOf = .ok materials ∧ m ∈ materials := by
  constructor
  · intro p atom materials hresolve m hm
    obtain ⟨hdigests, item, hitem, hatom, hfound, hmaterials, _⟩ := resolve_eq_ok_iff.mp hresolve
    obtain ⟨record, hrecord, hmaterial, spanDigest, hhandle⟩ := record_of_mem hmaterials hm
    obtain ⟨hregistry, hself⟩ := admitted_published hitem
    obtain ⟨first, hfirst, hadmitted, hrefers, hfirstOf⟩ :=
      first_of_handle hitem hatom hfound hrecord spanDigest
    have hresolves := resolves_iff hdigests hself hadmitted hfirstOf hrefers
    rw [← hhandle] at hfirst
    have hcapsule : m.handle.capsule = item.ref := by rw [hhandle, handleOf]
    constructor
    · intro hexpand pub hpub found hatomOf
      obtain ⟨_, hpub', _, _, _, _, _, _, _, hatomOf', sources, hsources, _⟩ :=
        expand_eq_ok_iff.mp hexpand
      -- the publication and the atom of the expansion are those of the resolution
      obtain rfl := Option.some.inj (hpub.symm.trans hpub')
      obtain rfl := Option.some.inj (hatomOf.symm.trans hatomOf')
      rw [hcapsule, hregistry] at hpub
      obtain rfl := Option.some.inj hpub
      obtain rfl := Option.some.inj (hfirst.symm.trans hatomOf)
      exact hresolves.mp ⟨sources, hsources⟩
    · intro hreadable
      rw [FirstReadable, hcapsule] at hreadable
      obtain ⟨sources, hsources⟩ := hresolves.mpr (hreadable _ hregistry first hfirst)
      obtain ⟨_, item', hitem', _, _, hmaterials', _⟩ := resolve_eq_ok_iff.mp hsources
      obtain rfl := Except.ok.inj (hself.symm.trans hitem')
      obtain ⟨m', hm', hmaterial'⟩ := value_of_mem_mapM hmaterials' hrefers
      obtain rfl := Except.ok.inj (hmaterial.symm.trans hmaterial')
      obtain ⟨atomId, hhead, _⟩ := Option.bind_eq_some_iff.mp hfirst
      apply expand_eq_ok_iff.mpr
      refine ⟨item.published, by rw [hcapsule]; exact hregistry, hcapsule.symm, ?_, item, hself, ?_,
        ?_, first, hfirst, sources, hsources, find?_handle hmaterials' hm'⟩
      · rw [hhandle, handleOf]
      · exact List.ne_nil_of_mem (List.mem_of_head? hhead)
      · intro member hmember
        rw [hhandle, handleOf, mem_uniqueStrings] at hmember
        exact of_decide_eq_true (List.mem_filter.mp hmember).2
  · intro handle m hexpand
    obtain ⟨pub, _, _, _, item, hitem, _, hall, atom, hatom, sources, hsources, hfind⟩ :=
      expand_eq_ok_iff.mp hexpand
    have hhandle : m.handle = handle := by simpa using List.find?_some hfind
    obtain ⟨atomId, hhead, hatomOf⟩ := Option.bind_eq_some_iff.mp hatom
    obtain ⟨_, rfl⟩ := atomOf_eq_some.mp hatomOf
    have hnamed := List.mem_of_head? hhead
    exact ⟨hhandle, pub, item, atom, sources, hitem, hall _ hnamed, hnamed, hsources,
      List.mem_of_find?_eq_some hfind⟩

end NativeSources

/-! ## Section 6: A shared record -/

/-- An atom of evidence class, with other references. -/
def sharingAtom (atomId : String) (evidenceRefs : List String) : List (Atom (Number IntegralFloat)) :=
  sampleCapsule.semanticPayload.atoms.map fun atom =>
    { atom with
      atomId := atomId
      scope := ["path:p"]
      refreshPolicy := "immutable"
      compressionClass := .p2Evidence
      evidenceRefs := evidenceRefs }

/-- A capsule whose atoms share a stored record; the first atom refers to an external record as
well. -/
def sharingCapsule : Capsule (Number IntegralFloat) :=
  { sampleCapsule with
    semanticPayload :=
      { sampleCapsule.semanticPayload with
        atoms := sharingAtom "a1" ["e1", "e2"] ++ sharingAtom "b1" ["e1"] }
    evidencePlane :=
      { sampleCapsule.evidencePlane with
        records := sampleCapsule.evidencePlane.records.flatMap fun record =>
          [{ record with atomIds := ["a1", "b1"] },
           { record with
             evidenceId := "e2"
             atomIds := ["a1"]
             source := .externalImmutable "https://e.x/f" "s" "v" }] } }

theorem sharingCapsule_valid : sharingCapsule.valid = true := by
  have hsample := Capsule.valid_iff.mp sampleCapsule_valid
  apply Capsule.valid_iff.mpr
  exact { hsample with
    semanticPayload := by decide +kernel
    evidencePlane := by decide +kernel
    referencesClosed := by decide +kernel }

/-- The store has the blob of the shared record. -/
def sharingStore : Registry.Surroundings IntegralFloat where
  decision := fun _ => ⟨true, ["c"]⟩
  readVerified := fun digest => if digest = zeroDigest then some "a/b" else none
  trustGate := fun _ _ => false
  attestationHolds := fun _ _ _ => false
  now := "2026-01-01T00:00:00.000000Z"
  fails := fun _ => false

/-- The registry in which the capsule was published. -/
def sharingRegistry : Registry.OpenRegistry IntegralFloat where
  service := ⟨fun _ => zeroDigest, none⟩
  reading := ⟨fun _ _ _ => ⟨true, ["c"]⟩, sharingStore⟩
  calls := [⟨sharingCapsule, "p", none, sharingStore⟩]
  stored := fun digest =>
    if digest = zeroDigest then some ("a/b", [0x74, 0x65, 0x78, 0x74]) else none
  stored_mediaType := by
    intro digest
    simp only [sharingStore]
    split <;> rfl

/-- Its one row. -/
def sharingRow : Registry.PublicationRow :=
  Registry.publicationRow 1 sharingCapsule sharingStore.now

theorem sharing_accepted :
    Registry.validateCandidate sharingRegistry.service sharingStore sharingCapsule = .ok () := by
  rfl

theorem sharing_settled : sharingCapsule.settled = true := by decide +kernel

theorem sharing_unproved : Registry.requiresM3Gate sharingCapsule = false := by rfl

theorem sharing_reread :
    Transport.throughText.capsule (Registry.withoutSidecars sharingCapsule) = sharingCapsule := by
  rfl

theorem sharing_tables :
    sharingRegistry.tables = Registry.Tables.empty.publish sharingCapsule sharingStore.now [] := by
  have hempty := @Registry.kept_empty IntegralFloat _ sharingRegistry.service
  apply Registry.runRegistry_singleton
  exact {
    revalidated := modelValidateJson_dumps unicodeStyle sharingCapsule_valid
    authorized := fun _ => rfl
    accepted := sharing_accepted
    settled := sharing_settled
    unproved := sharing_unproved
    undisturbed := fun _ => rfl
    new := by simp [Registry.Tables.selectPublication, Registry.Tables.empty]
    evidenceIds := by decide
    evidenceOwned := hempty.evidenceOwned
    grantsOwned := hempty.grantsOwned }

/-- The rows that refer to it are the ones of the capsule. -/
theorem sharing_rows :
    sharingRegistry.tables.selectEvidence 1 = Registry.evidenceRows 1 sharingCapsule ∧
      sharingRegistry.tables.selectGrants 1 =
        (Registry.grantRows 1 sharingCapsule).insertionSort Registry.Tables.grantLe := by
  have hempty := @Registry.kept_empty IntegralFloat _ sharingRegistry.service
  rw [sharing_tables, show 1 = Registry.Tables.empty.nextId from rfl]
  exact ⟨Registry.selectEvidence_publish hempty.evidenceOwned,
    Registry.selectGrants_publish hempty.grantsOwned⟩

theorem sharing_select (capsuleId version : String) :
    sharingRegistry.tables.selectPublication capsuleId version =
      if capsuleId = "a.b" ∧ version = "1.0.0" then some sharingRow else none := by
  have hrow : sharingRow.capsuleId = "a.b" ∧ sharingRow.version = "1.0.0" := ⟨rfl, rfl⟩
  rw [sharing_tables, Registry.Tables.selectPublication]
  show List.find? _ [sharingRow] = _
  rw [List.find?_singleton, hrow.1, hrow.2]
  by_cases hkey : capsuleId = "a.b" ∧ version = "1.0.0"
  · rw [if_pos hkey, hkey.1, hkey.2, if_pos (decide_eq_true ⟨rfl, rfl⟩)]
  · rw [if_neg hkey, if_neg]
    rw [decide_eq_true_eq]
    exact fun h => hkey ⟨h.1.symm, h.2.symm⟩

/-- The capsule, published. -/
def sharingPublication : Publication IntegralFloat :=
  ⟨⟨sharingCapsule, "PUBLISHED", sharingStore.now⟩, sharingCapsule_valid⟩

/-- Every principal reads the capsule, and nothing else. -/
theorem sharing_read (capsuleId version : String) (principal : Principal) :
    readRegistry sharingRegistry capsuleId version principal =
      if capsuleId = "a.b" ∧ version = "1.0.0" then some sharingPublication else none := by
  have hselect := sharing_select capsuleId version
  split
  -- the row is the only one under its key, and reading it passes every check
  · next hkey =>
    obtain ⟨rfl, rfl⟩ := hkey
    apply readRegistry_of_get
    have hread : Registry.authorizedToRead sharingRegistry.reading sharingRegistry.tables
        principal.principalId sharingRow = true := by
      have hscope := loads_canonicalText (F := IntegralFloat)
        (show (Registry.scopeDict sharingCapsule).distinct = true by rfl)
      have hloads : loads (F := IntegralFloat) sharingRow.scopeJcs = some _ := hscope
      rw [Registry.authorizedToRead, hloads, sharing_tables]
      rfl
    rw [sharingRow] at hselect hread
    exact @Registry.get_of_row IntegralFloat _ sharingRegistry.service sharingRegistry.tables
      sharingCapsule 1 sharingRegistry.reading principal.principalId sharingStore.now hselect hread
      sharingCapsule_valid sharing_accepted sharing_settled sharing_reread sharing_rows.1
      sharing_rows.2 sharing_unproved
  -- no row, and so nothing to read
  · next hkey =>
    rw [if_neg hkey] at hselect
    rw [readRegistry, Registry.OpenRegistry.get, Registry.get, hselect]
    rfl

/-- The grant of the blob. -/
def sharingGrant : Registry.GrantRow := ⟨1, "e1", zeroDigest, "c"⟩

theorem sharing_granted (digest : String) :
    sharingRegistry.tables.selectGranted digest =
      if digest = zeroDigest then [(sharingGrant, sharingRow)] else [] := by
  have hgrants : sharingRegistry.tables.grants = [sharingGrant] := by
    rw [sharing_tables]
    rfl
  have hpublications : sharingRegistry.tables.publications = [sharingRow] := by
    rw [sharing_tables]
    rfl
  rw [Registry.Tables.selectGranted, hgrants, hpublications]
  by_cases hdigest : digest = zeroDigest
  · rw [if_pos hdigest, hdigest]
    rfl
  · rw [if_neg hdigest, List.filter_cons_of_neg (by simpa [sharingGrant, eq_comm] using hdigest)]
    rfl

/-- Every principal gets the one blob that is granted. -/
theorem sharing_getBlob (digest principalId : String) :
    (sharingRegistry.getBlob digest principalId).toOption =
      if digest = zeroDigest then some [0x74, 0x65, 0x78, 0x74] else none := by
  rw [Registry.OpenRegistry.getBlob, Registry.getBlob, Registry.canReadBlob, sharing_granted]
  by_cases hdigest : digest = zeroDigest
  · subst hdigest
    have hrecord : Registry.grantedRecord sharingRegistry.service sharingRegistry.reading
        sharingRegistry.tables zeroDigest principalId (sharingGrant, sharingRow) = _ :=
      Registry.grantedRecord_of_row sharingCapsule_valid sharing_accepted sharing_settled
        sharing_reread sharing_rows.1 sharing_rows.2 sharing_unproved rfl List.mem_cons_self
    rw [if_pos rfl, if_pos rfl, List.findSome?_singleton, hrecord]
    rfl
  · rw [if_neg hdigest, if_neg hdigest]
    rfl

/-- Sources with that registry, and without the external one. -/
def sharingSources : NativeSources IntegralFloat where
  env := sampleEnvironment
  digestBytes := fun _ => zeroDigest
  scanBytes := fun _ => false
  store := sharingRegistry
  registry := fun capsuleId version _ =>
    if capsuleId = "a.b" ∧ version = "1.0.0" then some sharingPublication else none
  registry_eq := fun capsuleId version principal => (sharing_read capsuleId version principal).symm
  getBlob := fun digest _ => if digest = zeroDigest then some [0x74, 0x65, 0x78, 0x74] else none
  getBlob_eq := fun digest principal => (sharing_getBlob digest principal.principalId).symm
  authorizer := sampleCompiler.authorizer
  freshness := sampleCompiler.freshness
  gitRoots := []
  externalSources := []
  readGitEvidence := fun _ _ => .error .evidenceUnavailable
  localBytes := fun _ => .error .evidenceUnavailable

/-- The second atom resolves, and its handle does not expand: the handle names the first atom first,
which does not resolve. -/
theorem shared_handle_not_expanded :
    ∃ atom materials, sharingSources.resolve sharingPublication atom ⟨"p"⟩ sampleTask
        "2026-01-02T00:00:00Z" = .ok materials ∧
      ∃ m ∈ materials, sharingSources.expand m.handle ⟨"p"⟩ sampleTask "2026-01-02T00:00:00Z" =
        .error .evidenceUnavailable := by
  have hrun : ((NativeSources.atomOf sharingPublication "b1").bind fun atom =>
      (sharingSources.resolve sharingPublication atom ⟨"p"⟩ sampleTask
        "2026-01-02T00:00:00Z").toOption.map fun materials => materials.map fun m =>
          match sharingSources.expand m.handle ⟨"p"⟩ sampleTask "2026-01-02T00:00:00Z" with
          | .ok _ => none
          | .error code => some code) = some [some .evidenceUnavailable] := by
    decide +kernel
  obtain ⟨atom, _, hresolve⟩ := Option.bind_eq_some_iff.mp hrun
  obtain ⟨materials, hmaterials, hcodes⟩ := Option.map_eq_some_iff.mp hresolve
  refine ⟨atom, materials, Except.toOption_eq_some.mp hmaterials, ?_⟩
  obtain ⟨m, rfl, hm⟩ := List.map_eq_singleton_iff.mp hcodes
  refine ⟨m, List.mem_singleton_self m, ?_⟩
  split at hm
  · cases hm
  · next code hcode => rw [hcode, Option.some.inj hm]

end ContractCapsule.Compile
