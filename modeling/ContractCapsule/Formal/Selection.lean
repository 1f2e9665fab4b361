import Mathlib.Algebra.BigOperators.Group.Finset.Basic
import Mathlib.Algebra.Ring.Int.Defs
import Mathlib.Data.Finset.Sort
import Mathlib.Data.List.Sort
import Mathlib.Data.Prod.Lex
import Mathlib.Data.String.Basic
import ContractCapsule.Formal.Eligibility
import ContractCapsule.Library.Closure

/-!
# Ranking, Selection and Mandatory Closure

What the compiler and the validator both compute from a sequence of ranked
capsules: the atoms they hold, the selection closed under mandatory dependencies,
the conflicts within it, and what is read off the selected atoms.
-/

namespace ContractCapsule.Formal

open Library

/-! ## Section 1: Ranking -/

/-- The sorting key of a capsule: higher relevance first, then the reference. -/
def rankKey (c : Capsule) : ℤ ×ₗ String := toLex (-∑ a ∈ c.atoms, a.relevance, c.reference)

def rank (capsules : List Capsule) : List Capsule :=
  capsules.insertionSort fun c d => rankKey c ≤ rankKey d

/-! ## Section 2: Selection -/

/-- `_atom_index` -/
def atomIndex (order : SetOrder) (capsules : List Capsule) : List Atom :=
  index Atom.atomId (capsules.flatMap order.atoms)

def atomIds (atoms : List Atom) : Finset String := (atoms.map Atom.atomId).toFinset

/-- Every P0 atom and every relevant atom. -/
def seedIds (capsules : List Capsule) : Finset String :=
  capsules.toFinset.biUnion fun c =>
    (c.atoms.filter fun a => a.isP0 ∨ 0 < a.relevance).image Atom.atomId

def requiresEdges (capsules : List Capsule) : Finset (String × String) :=
  capsules.toFinset.biUnion (·.dependencyGraph.requires)

def declaredConflicts (capsules : List Capsule) : Finset (String × String) :=
  capsules.toFinset.biUnion (·.dependencyGraph.conflicts)

/-- `sorted` of a set of pairs. -/
def sortedEdges (edges : Finset (String × String)) : List (String × String) :=
  ((edges.image toLex).sort (· ≤ ·)).map ofLex

/-- `_dependency_closure`. A scan that changes something adds an indexed atom, so that one
scan more than there are atoms is enough. -/
def dependencyClosure (selected : Finset String) (atomById : List Atom)
    (requires : Finset (String × String)) : Finset String × Finset String :=
  saturate (atomIds atomById) (sortedEdges requires) (atomById.length + 1) selected ∅

def conflictsWithin (selected : Finset String) (declared : Finset (String × String)) :
    Finset (String × String) :=
  declared.filter fun edge => edge.1 ∈ selected ∧ edge.2 ∈ selected

/-- The sorting key of an atom: P0 first, then higher relevance, then the identifier. -/
def atomKey (a : Atom) : Bool ×ₗ ℤ ×ₗ String := toLex (!a.isP0, toLex (-a.relevance, a.atomId))

/-- The atoms of the selected identifiers, sorted. -/
def selectedAtoms (atomById : List Atom) (selected : Finset String) : List Atom :=
  (atomById.filter (·.atomId ∈ selected)).insertionSort fun a b => atomKey a ≤ atomKey b

def p0AtomIds (atoms : List Atom) : Finset String := atomIds (atoms.filter Atom.isP0)

def cost (atoms : List Atom) : ℤ := (atoms.map Atom.tokenCost).sum

def evidenceHandlesOf (atoms : List Atom) : Finset String :=
  atoms.toFinset.biUnion Atom.evidenceRefs

def contentOf (atoms : List Atom) : String := "\n".intercalate (atoms.map Atom.statement)

def policiesAreExact (capsules : List Capsule) : Bool :=
  capsules.all (·.compressionPolicy.p0Exact)

def isDependencyClosed (missing selected : Finset String) (requires : Finset (String × String)) :
    Bool :=
  missing = ∅ ∧ ∀ edge ∈ requires, edge.1 ∉ selected ∨ edge.2 ∈ selected

/-! ## Section 3: Ranking keeps the capsules and is idempotent -/

variable {order : SetOrder} {capsules : List Capsule} {selected : Finset String}
  {requires : Finset (String × String)} {atoms : List Atom}

theorem rank_perm (capsules : List Capsule) : (rank capsules).Perm capsules :=
  List.perm_insertionSort _ _

@[simp] theorem mem_rank {c : Capsule} : c ∈ rank capsules ↔ c ∈ capsules :=
  (rank_perm capsules).mem_iff

@[simp] theorem rank_eq_nil : rank capsules = [] ↔ capsules = [] := by
  rw [← List.length_eq_zero_iff, (rank_perm capsules).length_eq, List.length_eq_zero_iff]

@[simp] theorem rank_rank (capsules : List Capsule) : rank (rank capsules) = rank capsules := by
  have : Std.Total fun c d : Capsule => rankKey c ≤ rankKey d := ⟨fun _ _ => le_total _ _⟩
  have : IsTrans Capsule fun c d => rankKey c ≤ rankKey d := ⟨fun _ _ _ => le_trans⟩
  exact (List.pairwise_insertionSort _ _).insertionSort_eq

/-! ## Section 4: The index -/

@[simp] theorem mem_atomIds {id : String} : id ∈ atomIds atoms ↔ ∃ a ∈ atoms, a.atomId = id := by
  simp [atomIds]

@[simp] theorem mem_p0AtomIds {id : String} :
    id ∈ p0AtomIds atoms ↔ ∃ a ∈ atoms, a.isP0 = true ∧ a.atomId = id := by
  simp [p0AtomIds, and_assoc]

/-- The atoms of a sequence of capsules agree on their identifiers. -/
def AtomsAgree (capsules : List Capsule) : Prop :=
  ∀ c ∈ capsules, ∀ a ∈ c.atoms, ∀ d ∈ capsules, ∀ b ∈ d.atoms, a.atomId = b.atomId → a = b

theorem crossCapsuleIdentityBlockers_atomsAgree {τ κ ν : Type} [DecidableEq κ]
    {fp : Fingerprints τ κ ν} (h : crossCapsuleIdentityBlockers fp order capsules = []) :
    AtomsAgree capsules :=
  (crossCapsuleIdentityBlockers_agree h).atoms

theorem mem_of_mem_atomIndex {a : Atom} (h : a ∈ atomIndex order capsules) :
    ∃ c ∈ capsules, a ∈ c.atoms := by
  simpa using List.mem_flatMap.mp (mem_of_mem_index h)

theorem mem_atomIndex (hagree : AtomsAgree capsules) {a : Atom} :
    a ∈ atomIndex order capsules ↔ ∃ c ∈ capsules, a ∈ c.atoms := by
  refine (mem_index_iff fun a ha b hb hid => ?_).trans (by simp)
  obtain ⟨c, hc, hac⟩ := List.mem_flatMap.mp ha
  obtain ⟨d, hd, hbd⟩ := List.mem_flatMap.mp hb
  exact hagree c hc a ((order.mem_atoms c a).mp hac) d hd b ((order.mem_atoms d b).mp hbd) hid

theorem atomIndex_ids (order : SetOrder) {c : Capsule} (hc : c ∈ capsules) {a : Atom}
    (ha : a ∈ c.atoms) : a.atomId ∈ atomIds (atomIndex order capsules) := by
  have hflat : a ∈ capsules.flatMap order.atoms :=
    List.mem_flatMap.mpr ⟨c, hc, (order.mem_atoms c a).mpr ha⟩
  obtain ⟨b, hb, hid⟩ := exists_mem_index Atom.atomId hflat
  exact mem_atomIds.mpr ⟨b, hb, hid⟩

theorem atomIndex_nodup : (atomIndex order capsules).Nodup :=
  nodup_index.of_map _

@[simp] theorem mem_seedIds {id : String} : id ∈ seedIds capsules ↔
    ∃ c ∈ capsules, ∃ a ∈ c.atoms, (a.isP0 = true ∨ 0 < a.relevance) ∧ a.atomId = id := by
  simp [seedIds, and_assoc]

@[simp] theorem mem_requiresEdges {edge : String × String} :
    edge ∈ requiresEdges capsules ↔ ∃ c ∈ capsules, edge ∈ c.dependencyGraph.requires := by
  simp [requiresEdges]

@[simp] theorem mem_declaredConflicts {edge : String × String} :
    edge ∈ declaredConflicts capsules ↔ ∃ c ∈ capsules, edge ∈ c.dependencyGraph.conflicts := by
  simp [declaredConflicts]

theorem seedIds_subset (order : SetOrder) (capsules : List Capsule) :
    seedIds capsules ⊆ atomIds (atomIndex order capsules) := by
  intro id hid
  obtain ⟨c, hc, a, ha, _, rfl⟩ := mem_seedIds.mp hid
  exact atomIndex_ids order hc ha

/-! ## Section 5: The closure -/

@[simp] theorem mem_sortedEdges {edge : String × String} :
    edge ∈ sortedEdges requires ↔ edge ∈ requires := by
  simp only [sortedEdges, List.mem_map, Finset.mem_sort, Finset.mem_image]
  constructor
  · rintro ⟨_, ⟨e, he, rfl⟩, rfl⟩
    exact he
  · intro he
    exact ⟨toLex edge, ⟨edge, he, rfl⟩, rfl⟩

theorem atomIds_card_lt (atoms : List Atom) : (atomIds atoms).card < atoms.length + 1 := by
  have hle := (atoms.map Atom.atomId).toFinset_card_le
  rw [List.length_map] at hle
  exact Nat.lt_succ_of_le hle

/-- The closure is the least fixed point over the indexed atoms. -/
theorem mem_dependencyClosure {id : String} :
    id ∈ (dependencyClosure selected atoms requires).1 ↔
      Demanded (atomIds atoms) (sortedEdges requires) selected id :=
  saturate_closed (atomIds_card_lt atoms)

theorem dependencyClosure_seeds : selected ⊆ (dependencyClosure selected atoms requires).1 :=
  fun _ hid => mem_dependencyClosure.mpr (.seed hid)

/-- Nothing outside the index is selected. -/
theorem dependencyClosure_subset (h : selected ⊆ atomIds atoms) :
    (dependencyClosure selected atoms requires).1 ⊆ atomIds atoms := by
  intro id hid
  cases mem_dependencyClosure.mp hid with
  | seed hseed => exact h hseed
  | edge _ _ hknown => exact hknown

/-- When nothing is missing, every edge is respected. -/
theorem dependencyClosure_closed
    (hmissing : (dependencyClosure selected atoms requires).2 = ∅) {edge : String × String}
    (hedge : edge ∈ requires)
    (hsource : edge.1 ∈ (dependencyClosure selected atoms requires).1) :
    edge.2 ∈ (dependencyClosure selected atoms requires).1 := by
  obtain ⟨_, _, hedges⟩ := saturate_seeds (atomIds_card_lt atoms) (sortedEdges requires) selected
  have hfound := hedges edge (mem_sortedEdges.mpr hedge) hsource
  split_ifs at hfound
  · exact hfound
  · exact absurd (hmissing ▸ hfound) (Finset.notMem_empty _)

/-! ## Section 6: The selected atoms -/

@[simp] theorem mem_selectedAtoms {a : Atom} :
    a ∈ selectedAtoms atoms selected ↔ a ∈ atoms ∧ a.atomId ∈ selected := by
  simp [selectedAtoms, List.mem_insertionSort]

theorem selectedAtoms_nodup (h : atoms.Nodup) : (selectedAtoms atoms selected).Nodup :=
  (List.perm_insertionSort _ _).nodup_iff.mpr (h.filter _)

@[simp] theorem mem_conflictsWithin {edge : String × String} :
    edge ∈ conflictsWithin selected requires ↔
      edge ∈ requires ∧ edge.1 ∈ selected ∧ edge.2 ∈ selected := by
  simp [conflictsWithin]

@[simp] theorem mem_evidenceHandlesOf {ref : String} :
    ref ∈ evidenceHandlesOf atoms ↔ ∃ a ∈ atoms, ref ∈ a.evidenceRefs := by
  simp [evidenceHandlesOf]

end ContractCapsule.Formal
