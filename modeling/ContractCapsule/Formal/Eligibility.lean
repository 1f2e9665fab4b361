import Mathlib.Data.Finset.Card
import ContractCapsule.Formal.Model
import ContractCapsule.Library.Index

/-!
# Well-Formedness, Eligibility and Identity

The three checks that come before ranking. A capsule is well formed on its own,
eligible for a task and a principal, and consistent with the capsules supplied
beside it: no reference, atom identifier or evidence identifier has two meanings.
-/

namespace ContractCapsule.Formal

open Library

variable {τ κ ν : Type}

/-! ## Section 1: Well-formedness -/

def allowedCompressionClasses : List String :=
  ["P0_EXACT", "P1_STRUCTURED", "P2_EXCERPT", "P3_SUMMARY", "P4_TRANSIENT"]

/-- `_manifest_is_well_formed` -/
def manifestIsWellFormed (m : Manifest) : Bool :=
  m.capsuleId ≠ "" ∧ m.version ≠ "" ∧ m.lifecycle ∈ ["PUBLISHED", "ACTIVE"] ∧
    m.repositories ≠ ∅ ∧ m.pathPrefixes ≠ [] ∧ m.environments ≠ ∅

/-- `_evidence_is_well_formed` -/
def evidenceIsWellFormed (e : Evidence) : Bool :=
  e.evidenceId ≠ "" ∧ e.digest ≠ "" ∧ e.exactText ≠ ""

/-- `_atom_is_well_formed` -/
def atomIsWellFormed (a : Atom) : Bool :=
  a.atomId ≠ "" ∧ a.statement ≠ "" ∧ 0 ≤ a.tokenCost ∧ a.evidenceRefs ≠ ∅ ∧
    a.compressionClass ∈ allowedCompressionClasses

/-- `_identifier_blockers` -/
def identifierBlockers (c : Capsule) : List BlockerCode :=
  if (c.evidence.image Evidence.evidenceId).card ≠ c.evidence.card then [.malformedCapsule]
  else if (c.atoms.image Atom.atomId).card ≠ c.atoms.card then [.malformedCapsule]
  else []

def Capsule.evidenceIds (c : Capsule) : Finset String := c.evidence.image Evidence.evidenceId

/-- `_evidence_blockers` -/
def evidenceBlockers (order : SetOrder) (c : Capsule) : List BlockerCode :=
  (order.evidence c).flatMap fun e => blockIf (¬ evidenceIsWellFormed e) .missingEvidence

/-- `_atom_blockers` -/
def atomBlockers (order : SetOrder) (c : Capsule) : List BlockerCode :=
  (order.atoms c).flatMap fun a =>
    blockIf (¬ atomIsWellFormed a) .malformedCapsule ++
    blockIf (¬ a.evidenceRefs ⊆ c.evidenceIds) .missingEvidence ++
    blockIf (a.isP0 ∧ ¬ c.compressionPolicy.p0Exact) .p0NotExact

/-- `_well_formedness` -/
def wellFormedness (order : SetOrder) (c : Capsule) : List BlockerCode :=
  uniqueBlockers <|
    blockIf (¬ manifestIsWellFormed c.manifest) .malformedCapsule ++
    blockIf (¬ c.integrity.valid) .integrityFailed ++
    identifierBlockers c ++ evidenceBlockers order c ++ atomBlockers order c

variable {order : SetOrder} {c : Capsule}

@[simp] theorem mem_identifierBlockers {b : BlockerCode} :
    b ∈ identifierBlockers c ↔ b = .malformedCapsule ∧
      ((c.evidence.image Evidence.evidenceId).card ≠ c.evidence.card ∨
        (c.atoms.image Atom.atomId).card ≠ c.atoms.card) := by
  unfold identifierBlockers
  split_ifs <;> simp [*]

@[simp] theorem mem_evidenceBlockers {b : BlockerCode} :
    b ∈ evidenceBlockers order c ↔
      b = .missingEvidence ∧ ∃ e ∈ c.evidence, evidenceIsWellFormed e = false := by
  simp only [evidenceBlockers, List.mem_flatMap, SetOrder.mem_evidence, mem_blockIf,
    Bool.not_eq_true]
  constructor
  · rintro ⟨e, he, hbad, rfl⟩
    exact ⟨rfl, e, he, hbad⟩
  · rintro ⟨rfl, e, he, hbad⟩
    exact ⟨e, he, hbad, rfl⟩

/-- Only a P0 atom under an inexact policy makes a capsule report `P0_NOT_EXACT`. -/
theorem p0NotExact_mem_wellFormedness :
    .p0NotExact ∈ wellFormedness order c ↔
      (∃ a ∈ c.atoms, a.isP0 = true) ∧ c.compressionPolicy.p0Exact = false := by
  simp [wellFormedness, atomBlockers, ← and_assoc]

/-- `WF(C)`, the conditions whose failures `_well_formedness` reports. -/
structure WellFormed (c : Capsule) : Prop where
  manifest : manifestIsWellFormed c.manifest = true
  integrity : c.integrity.valid = true
  evidenceIds : Set.InjOn Evidence.evidenceId (c.evidence : Set Evidence)
  atomIds : Set.InjOn Atom.atomId (c.atoms : Set Atom)
  evidence : ∀ e ∈ c.evidence, evidenceIsWellFormed e = true
  atom : ∀ a ∈ c.atoms, atomIsWellFormed a = true
  evidenceRefs : ∀ a ∈ c.atoms, a.evidenceRefs ⊆ c.evidenceIds
  p0Exact : ∀ a ∈ c.atoms, a.isP0 = true → c.compressionPolicy.p0Exact = true

theorem identifierBlockers_eq_nil : identifierBlockers c = [] ↔
    Set.InjOn Evidence.evidenceId (c.evidence : Set Evidence) ∧
      Set.InjOn Atom.atomId (c.atoms : Set Atom) := by
  rw [← Finset.card_image_iff, ← Finset.card_image_iff, identifierBlockers]
  split_ifs <;> simp_all

theorem evidenceBlockers_eq_nil :
    evidenceBlockers order c = [] ↔ ∀ e ∈ c.evidence, evidenceIsWellFormed e = true := by
  simp [evidenceBlockers]

theorem atomBlockers_eq_nil : atomBlockers order c = [] ↔
    ∀ a ∈ c.atoms, atomIsWellFormed a = true ∧ a.evidenceRefs ⊆ c.evidenceIds ∧
      (a.isP0 = true → c.compressionPolicy.p0Exact = true) := by
  simp [atomBlockers]

theorem wellFormedness_eq_nil : wellFormedness order c = [] ↔ WellFormed c := by
  rw [wellFormedness, uniqueBlockers_eq_nil_iff (by simp [atomBlockers])]
  simp only [List.append_eq_nil_iff, blockIf_eq_nil, not_not, identifierBlockers_eq_nil,
    evidenceBlockers_eq_nil, atomBlockers_eq_nil]
  constructor
  · rintro ⟨⟨⟨⟨hmanifest, hintegrity⟩, hevidenceIds, hatomIds⟩, hevidence⟩, hatoms⟩
    exact ⟨hmanifest, hintegrity, hevidenceIds, hatomIds, hevidence, fun a ha => (hatoms a ha).1,
      fun a ha => (hatoms a ha).2.1, fun a ha => (hatoms a ha).2.2⟩
  · intro h
    exact ⟨⟨⟨⟨h.manifest, h.integrity⟩, h.evidenceIds, h.atomIds⟩, h.evidence⟩,
      fun a ha => ⟨h.atom a ha, h.evidenceRefs a ha, h.p0Exact a ha⟩⟩

/-! ## Section 2: Eligibility -/

/-- `str.startswith` -/
def startsWith (s start : String) : Bool := start.toList.isPrefixOf s.toList

/-- `_eligibility_blockers` -/
def eligibilityBlockers (c : Capsule) (task : TaskContext) (principal : Principal) :
    List BlockerCode :=
  uniqueBlockers <|
    blockIf (principal.principalId ∉ c.manifest.authorizedPrincipals) .unauthorizedCapsule ++
    blockIf (task.repository ∉ c.manifest.repositories ∨
      task.environment ∉ c.manifest.environments ∨
      ¬ c.manifest.pathPrefixes.any (startsWith task.path)) .outOfScope ++
    blockIf (¬ task.requiredInterfaces ⊆ c.manifest.provides) .incompatibleInterface ++
    blockIf (∃ e ∈ c.evidence, ¬ e.fresh) .staleEvidence

/-- `Eligible(C, T, P)`: no structural and no eligibility blocker. -/
def Eligible (order : SetOrder) (task : TaskContext) (principal : Principal) (c : Capsule) :
    Prop :=
  wellFormedness order c = [] ∧ eligibilityBlockers c task principal = []

instance {task : TaskContext} {principal : Principal} :
    DecidablePred (Eligible order task principal) :=
  fun _ => inferInstanceAs (Decidable (_ ∧ _))

/-- The task gates of a capsule: authorization, scope, interfaces and freshness. -/
structure Admits (task : TaskContext) (principal : Principal) (c : Capsule) : Prop where
  authorized : principal.principalId ∈ c.manifest.authorizedPrincipals
  repository : task.repository ∈ c.manifest.repositories
  environment : task.environment ∈ c.manifest.environments
  path : ∃ start ∈ c.manifest.pathPrefixes, startsWith task.path start = true
  interfaces : task.requiredInterfaces ⊆ c.manifest.provides
  fresh : ∀ e ∈ c.evidence, e.fresh = true

theorem eligibilityBlockers_eq_nil {task : TaskContext} {principal : Principal} :
    eligibilityBlockers c task principal = [] ↔ Admits task principal c := by
  rw [eligibilityBlockers, uniqueBlockers_eq_nil_iff (by simp)]
  simp only [List.append_eq_nil_iff, blockIf_eq_nil, not_not, not_or, not_exists, not_and,
    List.any_eq_true]
  constructor
  · rintro ⟨⟨⟨hprincipal, hrepository, henvironment, hpath⟩, hinterfaces⟩, hfresh⟩
    exact ⟨hprincipal, hrepository, henvironment, by simpa using hpath, hinterfaces, hfresh⟩
  · rintro ⟨hprincipal, hrepository, henvironment, hpath, hinterfaces, hfresh⟩
    exact ⟨⟨⟨hprincipal, hrepository, henvironment, by simpa using hpath⟩, hinterfaces⟩, hfresh⟩

/-! ## Section 3: Identity across capsules -/

/-- The three dictionaries of `_cross_capsule_identity_blockers`. -/
structure Identities (κ : Type) where
  references : List (String × κ)
  atoms : List Atom
  evidence : List Evidence

variable [DecidableEq κ]

/-- The loop body, `none` when an identifier already has another meaning. -/
def Identities.note (fp : Fingerprints τ κ ν) (order : SetOrder) (known : Identities κ)
    (c : Capsule) : Option (Identities κ) := do
  let references ← agree Prod.fst known.references (c.reference, fp.capsule c)
  let atoms ← agreeAll Atom.atomId known.atoms (order.atoms c)
  let evidence ← agreeAll Evidence.evidenceId known.evidence (order.evidence c)
  return ⟨references, atoms, evidence⟩

/-- `_cross_capsule_identity_blockers` -/
def crossCapsuleIdentityBlockers (fp : Fingerprints τ κ ν) (order : SetOrder)
    (capsules : List Capsule) : List BlockerCode :=
  match capsules.foldlM (Identities.note fp order) ⟨[], [], []⟩ with
  | some _ => []
  | none => [.malformedCapsule]

/-- Within a collection, an identifier has one meaning. -/
structure IdentitiesAgree (fp : Fingerprints τ κ ν) (capsules : List Capsule) : Prop where
  references : ∀ c ∈ capsules, ∀ d ∈ capsules, c.reference = d.reference →
    fp.capsule c = fp.capsule d
  atoms : ∀ c ∈ capsules, ∀ a ∈ c.atoms, ∀ d ∈ capsules, ∀ b ∈ d.atoms,
    a.atomId = b.atomId → a = b
  evidence : ∀ c ∈ capsules, ∀ e ∈ c.evidence, ∀ d ∈ capsules, ∀ f ∈ d.evidence,
    e.evidenceId = f.evidenceId → e = f

/-- One value a key in each dictionary. -/
structure Identities.Keyed (known : Identities κ) : Prop where
  references : (known.references.map Prod.fst).Nodup
  atoms : (known.atoms.map Atom.atomId).Nodup
  evidence : (known.evidence.map Evidence.evidenceId).Nodup

/-- The dictionaries know a capsule. -/
structure Identities.Knows (fp : Fingerprints τ κ ν) (known : Identities κ) (c : Capsule) :
    Prop where
  reference : (c.reference, fp.capsule c) ∈ known.references
  atoms : ∀ a ∈ c.atoms, a ∈ known.atoms
  evidence : ∀ e ∈ c.evidence, e ∈ known.evidence

variable {fp : Fingerprints τ κ ν} {known known' : Identities κ} {capsules : List Capsule}

theorem Identities.note_eq_some (h : known.note fp order c = some known') (hkeyed : known.Keyed) :
    known'.Keyed ∧ known'.Knows fp c ∧ ∀ d, known.Knows fp d → known'.Knows fp d := by
  simp only [note, Option.bind_eq_bind, Option.bind_eq_some_iff, Option.pure_def,
    Option.some.injEq] at h
  obtain ⟨references, hreferences, atoms, hatoms, evidence, hevidence, rfl⟩ := h
  obtain ⟨hrk, hrold, hrnew⟩ := agree_eq_some hreferences hkeyed.references
  obtain ⟨hak, haold, hanew⟩ := agreeAll_eq_some hatoms hkeyed.atoms
  obtain ⟨hek, heold, henew⟩ := agreeAll_eq_some hevidence hkeyed.evidence
  refine ⟨⟨hrk, hak, hek⟩, ⟨hrnew, fun a ha => hanew a ((order.mem_atoms c a).mpr ha),
    fun e he => henew e ((order.mem_evidence c e).mpr he)⟩, fun d hd => ?_⟩
  exact ⟨hrold _ hd.reference, fun a ha => haold a (hd.atoms a ha),
    fun e he => heold e (hd.evidence e he)⟩

theorem Identities.foldlM_eq_some
    (h : capsules.foldlM (Identities.note fp order) known = some known') (hkeyed : known.Keyed) :
    known'.Keyed ∧ (∀ c ∈ capsules, known'.Knows fp c) ∧
      ∀ d, known.Knows fp d → known'.Knows fp d := by
  induction capsules generalizing known with
  | nil =>
    obtain rfl := Option.some.inj h
    exact ⟨hkeyed, by simp, fun _ hd => hd⟩
  | cons c cs ih =>
    obtain ⟨known₁, hnote, hrest⟩ := Option.bind_eq_some_iff.mp h
    obtain ⟨hkeyed₁, hknows, hkeep⟩ := note_eq_some hnote hkeyed
    obtain ⟨hkeyed', hall, hkeep'⟩ := ih hrest hkeyed₁
    refine ⟨hkeyed', fun d hd => ?_, fun d hd => hkeep' d (hkeep d hd)⟩
    rcases List.mem_cons.mp hd with rfl | hd
    · exact hkeep' d hknows
    · exact hall d hd

@[simp] theorem none_notMem_wellFormedness : .none ∉ wellFormedness order c := by
  simp [wellFormedness]

@[simp] theorem none_notMem_eligibilityBlockers {task : TaskContext} {principal : Principal} :
    .none ∉ eligibilityBlockers c task principal := by
  simp [eligibilityBlockers]

@[simp] theorem none_notMem_crossCapsuleIdentityBlockers :
    .none ∉ crossCapsuleIdentityBlockers fp order capsules := by
  unfold crossCapsuleIdentityBlockers
  split <;> simp

/-- Without an identity blocker, identifiers agree. -/
theorem crossCapsuleIdentityBlockers_agree
    (h : crossCapsuleIdentityBlockers fp order capsules = []) : IdentitiesAgree fp capsules := by
  unfold crossCapsuleIdentityBlockers at h
  split at h
  · rename_i known hfold
    obtain ⟨hkeyed, hknows, _⟩ := Identities.foldlM_eq_some hfold
      ⟨List.nodup_nil, List.nodup_nil, List.nodup_nil⟩
    refine ⟨fun c hc d hd href => ?_, fun c hc a ha d hd b hb hid => ?_,
      fun c hc e he d hd f hf hid => ?_⟩
    · exact (Prod.ext_iff.mp (List.inj_on_of_nodup_map hkeyed.references
        (hknows c hc).reference (hknows d hd).reference href)).2
    · exact List.inj_on_of_nodup_map hkeyed.atoms ((hknows c hc).atoms a ha)
        ((hknows d hd).atoms b hb) hid
    · exact List.inj_on_of_nodup_map hkeyed.evidence ((hknows c hc).evidence e he)
        ((hknows d hd).evidence f hf) hid
  · cases h

end ContractCapsule.Formal
