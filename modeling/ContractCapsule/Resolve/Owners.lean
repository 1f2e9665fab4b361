import ContractCapsule.Resolve.Conflicts

/-!
# Owners

What is known of every resolved graph, whatever publications its admission carries: each atom has an
owner, an atom leads to the presence of each of its owners, and two versions of one capsule are in
conflict. So the owners of atoms without a conflict are told apart by their identifiers.
-/

namespace ContractCapsule.Resolve

open Library Models

variable {F : Type} [FloatText F]

/-! ## Section 1: The owners of a graph -/

/-- What the assembly makes of every admission. -/
structure ResolvedGraph.Owned (g : ResolvedGraph F) : Prop where
  nodup : (g.atoms.map Atom.atomId).Nodup
  owner : ∀ id ∈ g.atomIds, ∃ ref, ref ∈ g.ownersOf id
  valid : ∀ id, ∀ ref ∈ g.ownersOf id, ref.valid = true
  present : ∀ id, ∀ ref ∈ g.ownersOf id,
    ∃ e ∈ g.edges, e.followed = true ∧ e.source = id ∧ e.target = presence ref
  versions : ∀ id id' a b, a ∈ g.ownersOf id → b ∈ g.ownersOf id' → a ≠ b →
    a.capsuleId = b.capsuleId → ∃ e ∈ g.edges, e.edgeType = .conflicts ∧
      (e.source = presence a ∧ e.target = presence b ∨
        e.source = presence b ∧ e.target = presence a)

/-- The owners of the atoms of a graph are sorted as the inventory has them. -/
theorem lookup_sorted_owners {owners : List (String × List CapsuleRef)}
    (h : (owners.map Prod.fst).Nodup) (id : String) :
    (owners.insertionSort fun a b => a.1 ≤ b.1).lookup id = owners.lookup id := by
  have hperm := List.perm_insertionSort (fun a b : String × List CapsuleRef => a.1 ≤ b.1) owners
  exact (lookup_perm hperm.symm h id).symm

/-- `resolveGraph` gives every atom an owner. -/
theorem resolveGraph_owned {precedence : String → String → Ordering} {sha256 : List Char → String}
    {admission : AdmissionResult F} {task : TaskContext} {g : ResolvedGraph F}
    (h : resolveGraph precedence sha256 admission task = .ok g) : g.Owned := by
  simp only [resolveGraph, Except.bind_eq_ok, Except.pure_eq_ok] at h
  obtain ⟨⟨inv, w₀⟩, hinventory, ⟨roots, w₁⟩, hroots, w₂, hmanifests, w₃, hatomic, rfl⟩ := h
  have hstart := inventory_describes hinventory
  obtain ⟨hgrows₂, hidentities⟩ := manifests_identities hstart.catalogs hmanifests
  have hgrows₃ := atomicEdges_grows hatomic
  have hgrows : w₀.Grows w₃ :=
    ((Wiring.Grows.of_edges (roots_edges hroots)).trans hgrows₂).trans hgrows₃
  -- the owners of an atom are the admitted capsules that it is admitted with
  have howners : ∀ id ref, ref ∈ (((inv.owners.insertionSort fun a b => a.1 ≤ b.1).lookup id).getD []) ↔
      ∃ item ∈ admission.items, item.ref = ref ∧ item.Admits id := by
    intro id ref
    rw [lookup_sorted_owners hstart.ownersNodup]
    exact hstart.owners id ref
  have hperm := List.perm_insertionSort
    (fun a b : Atom (Number F) => a.atomId ≤ b.atomId) inv.atoms
  refine ⟨?_, ?_, ?_, ?_, ?_⟩
  · exact (hperm.map Atom.atomId).nodup_iff.mpr hstart.atomsNodup
  · intro id hid
    rw [ResolvedGraph.atomIds, List.mem_toFinset, (hperm.map Atom.atomId).mem_iff] at hid
    obtain ⟨item, hitem, hadmits⟩ := (hstart.atoms id).mp hid
    exact ⟨item.ref, (howners id item.ref).mpr ⟨item, hitem, rfl, hadmits⟩⟩
  · intro id ref href
    obtain ⟨item, _, rfl, _⟩ := (howners id ref).mp href
    exact valid_ref item
  · intro id ref href
    obtain ⟨item, hitem, rfl, hadmits⟩ := (howners id ref).mp href
    obtain ⟨e, he, hkey, hmandatory⟩ := hgrows.demands (hstart.present item hitem id hadmits)
    simp only [Edge.key, Prod.mk.injEq] at hkey
    obtain ⟨hsource, htarget, hkind⟩ := hkey
    refine ⟨e, (List.mem_insertionSort _).mpr he, ?_, hsource, htarget⟩
    rw [Edge.followed, hkind, hmandatory]
    rfl
  · intro id id' a b ha hb hne hid
    obtain ⟨item, hitem, rfl, _⟩ := (howners id a).mp ha
    obtain ⟨item', hitem', rfl, _⟩ := (howners id' b).mp hb
    have hwired := (hidentities item hitem item' hitem' hne hid).imp hgrows₃.has hgrows₃.has
    rcases hwired with ⟨e, he, hkey⟩ | ⟨e, he, hkey⟩
    · simp only [Edge.key, Prod.mk.injEq] at hkey
      exact ⟨e, (List.mem_insertionSort _).mpr he, hkey.2.2, Or.inl ⟨hkey.1, hkey.2.1⟩⟩
    · simp only [Edge.key, Prod.mk.injEq] at hkey
      exact ⟨e, (List.mem_insertionSort _).mpr he, hkey.2.2, Or.inr ⟨hkey.1, hkey.2.1⟩⟩

/-! ## Section 2: Owners without a conflict -/

/-- The owners of atoms without a conflict have distinct identifiers. -/
theorem ResolvedGraph.Owned.one_version {g : ResolvedGraph F} (h : g.Owned)
    {selected : Finset String} (hnone : g.conflictsFor selected = .ok []) {a b : CapsuleRef}
    (ha : g.OwnsIn a selected) (hb : g.OwnsIn b selected) (hid : a.capsuleId = b.capsuleId) :
    a = b := by
  simp only [ResolvedGraph.conflictsFor, Except.bind_eq_ok, Except.pure_eq_ok] at hnone
  obtain ⟨closed, hnodes, hdetected⟩ := hnone
  have hclosed := closedNodes_eq_ok hnodes
  -- the presence of an owner is in the closed nodes
  have hpresent : ∀ {ref}, g.OwnsIn ref selected → presence ref ∈ closed := by
    rintro ref ⟨id, hin, howns⟩
    obtain ⟨e, he, hfollowed, rfl, htarget⟩ := h.present id ref howns
    rw [← htarget]
    exact hclosed.follows e he hfollowed (hclosed.selected hin)
  by_contra hne
  obtain ⟨id, _, hida⟩ := ha
  obtain ⟨id', _, hidb⟩ := hb
  obtain ⟨e, he, hkind, hends⟩ := h.versions id id' a b hida hidb hne hid
  have hpeace := detectConflicts_eq_nil.mp hdetected e he hkind
  rcases hends with ⟨hsource, htarget⟩ | ⟨hsource, htarget⟩
  · rw [hsource, htarget] at hpeace
    exact hpeace (hpresent ⟨id, ‹_›, hida⟩) (hpresent ⟨id', ‹_›, hidb⟩)
  · rw [hsource, htarget] at hpeace
    exact hpeace (hpresent ⟨id', ‹_›, hidb⟩) (hpresent ⟨id, ‹_›, hida⟩)

end ContractCapsule.Resolve
