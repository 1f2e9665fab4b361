import ContractCapsule.Resolve.Providers

/-!
# Conflict Detection

Every kind of declared conflict is an edge between two nodes, and an edge with both ends in the
closed nodes is found. So when none is found, no conflict that the atoms of the closure or their
owners declare is in the closure.
-/

namespace ContractCapsule.Resolve

open Library Models

variable {F : Type} [FloatText F]

/-! ## Section 1: Detected conflicts -/

/-- No conflict is found exactly when no edge of a conflict has both ends in the set. -/
theorem detectConflicts_eq_nil {selected : Finset String} {edges : List Edge} :
    detectConflicts selected edges = [] ↔
      ∀ e ∈ edges, e.edgeType = .conflicts → e.source ∈ selected → e.target ∉ selected := by
  have hsorted : ∀ pairs : List (String × String),
      pairs.dedup.insertionSort endsLe = [] ↔ pairs = [] := by
    intro pairs
    rw [← List.length_eq_zero_iff, List.length_insertionSort, List.length_eq_zero_iff,
      List.dedup_eq_nil]
  rw [detectConflicts, List.map_eq_nil_iff, hsorted, List.map_eq_nil_iff, List.filter_eq_nil_iff]
  constructor
  · intro h e he hkind hsource htarget
    exact h e he (decide_eq_true ⟨hkind, hsource, htarget⟩)
  · intro h e he hfound
    obtain ⟨hkind, hsource, htarget⟩ := of_decide_eq_true hfound
    exact h e he hkind hsource htarget

/-- No edge of a conflict has both ends in the closed nodes. -/
def Wiring.Peaceful (w : Wiring) (closed : Finset String) : Prop :=
  ∀ source target, w.Has source target .conflicts → source ∈ closed → target ∉ closed

/-! ## Section 2: Compatible atoms -/

/-- No conflict that is declared has both ends in a set of atoms. A capsule is there when one of its
atoms is; each admitted capsule with the identifier that an explicit edge names is an end of it. -/
structure ResolvedGraph.Compatible (g : ResolvedGraph F)
    (precedence : String → String → Ordering) (items : List (AdmittedCapsule F))
    (atomIds : Finset String) : Prop where
  /-- Between atoms, in either direction. -/
  atoms : ∀ a ∈ g.atoms, ∀ b ∈ g.atoms, a.atomId ∈ atomIds → b.atomId ∈ atomIds →
    b.atomId ∉ a.conflictsWith
  /-- Between two versions of one capsule. -/
  identities : ∀ a b, g.OwnsIn a atomIds → g.OwnsIn b atomIds → a.capsuleId = b.capsuleId → a = b
  /-- In a manifest. -/
  manifests : ∀ consumer ∈ items, g.OwnsIn consumer.ref atomIds →
    ∀ declaration ∈ (capsuleOf consumer.published).controlManifest.conflicts,
      ∀ provider ∈ items, g.OwnsIn provider.ref atomIds →
        ¬ provider.Provides precedence declaration
  /-- An explicit edge to an atom with an owner that fits. -/
  explicitAtom : ∀ declaring ∈ items,
    ∀ edge ∈ (capsuleOf declaring.published).dependencyGraph.edges, edge.edgeType = .conflicts →
      g.SourceIn declaring edge atomIds →
        ∀ owner ∈ items, owner.ref ∈ g.ownersOf edge.target → owner.Fits precedence edge →
          edge.target ∉ atomIds
  /-- An explicit edge to a capsule that fits. -/
  explicitCapsule : ∀ declaring ∈ items,
    ∀ edge ∈ (capsuleOf declaring.published).dependencyGraph.edges, edge.edgeType = .conflicts →
      g.SourceIn declaring edge atomIds →
        ∀ target ∈ items, target.ref.capsuleId = edge.target → target.Fits precedence edge →
          ¬ g.OwnsIn target.ref atomIds

section Assembled

variable {precedence : String → String → Ordering} {items : List (AdmittedCapsule F)}
variable {g : ResolvedGraph F} {inv : Inventory F} {w : Wiring} {selected closed : Finset String}

theorem Assembled.peaceful (h : Assembled precedence items g inv w)
    (hnone : detectConflicts closed g.edges = []) : w.Peaceful closed := by
  rintro source target ⟨e, he, hkey⟩ hsource
  simp only [Edge.key, Prod.mk.injEq] at hkey
  obtain ⟨rfl, rfl, hkind⟩ := hkey
  exact detectConflicts_eq_nil.mp hnone e ((h.graphEdges e).mpr he) hkind hsource

/-- An owner of a set of atoms is admitted. -/
theorem Assembled.exists_owner (h : Assembled precedence items g inv w) {r : CapsuleRef}
    {atomIds : Finset String} (howns : g.OwnsIn r atomIds) : ∃ item ∈ items, item.ref = r := by
  obtain ⟨id, _, howner⟩ := howns
  obtain ⟨item, hitem, href, _⟩ := (h.mem_ownersOf id r).mp howner
  exact ⟨item, hitem, href⟩

/-- Closed nodes without a conflict are compatible. -/
theorem Assembled.compatible (h : Assembled precedence items g inv w) (hcoherent : Coherent items)
    (hclosed : g.NodesClosed selected closed) (hpeaceful : w.Peaceful closed) :
    g.Compatible precedence items (closed ∩ g.atomIds) := by
  refine ⟨?_, ?_, ?_, ?_, ?_⟩
  · intro a ha b _ hmem hmem' hconflict
    have hwired := (h.atoms a ((h.graphAtoms a).mp ha)).conflicts b.atomId hconflict
    exact hpeaceful _ _ hwired (Finset.mem_inter.mp hmem).1 (Finset.mem_inter.mp hmem').1
  · intro r r' howns howns' hid
    obtain ⟨a, ha, rfl⟩ := h.exists_owner howns
    obtain ⟨b, hb, rfl⟩ := h.exists_owner howns'
    by_contra hne
    -- the two versions are wired in one of the two directions
    rcases h.identities a ha b hb hne hid with hab | hba
    · exact hpeaceful _ _ hab (h.presence_mem hclosed howns) (h.presence_mem hclosed howns')
    · exact hpeaceful _ _ hba (h.presence_mem hclosed howns') (h.presence_mem hclosed howns)
  · intro consumer hconsumer howns declaration hdeclaration provider hprovider howns' hprovides
    have hwired := (h.manifests consumer hconsumer).conflicts declaration hdeclaration provider
      hprovider hprovides
    exact hpeaceful _ _ hwired (h.presence_mem hclosed howns) (h.presence_mem hclosed howns')
  · intro declaring hdeclaring edge hedge hkind hsource owner howner howns hfits hmem
    obtain ⟨_, _, _, _, source, hstart, hwired⟩ :=
      h.explicit hcoherent hclosed hdeclaring hedge hsource
    obtain ⟨admitting, hadmitting, href, hadmits⟩ := (h.mem_ownersOf _ _).mp howns
    have hfits' : admitting.Fits precedence edge := by
      intro constraint hconstraint
      rw [href]
      exact hfits constraint hconstraint
    have hopposed := hwired.opposedAtom hkind admitting hadmitting hadmits hfits'
    exact hpeaceful _ _ hopposed hstart (Finset.mem_inter.mp hmem).1
  · intro declaring hdeclaring edge hedge hkind hsource target htarget hid hfits howns
    obtain ⟨_, _, _, _, source, hstart, hwired⟩ :=
      h.explicit hcoherent hclosed hdeclaring hedge hsource
    have hopposed := hwired.opposedCapsule hkind target htarget hid hfits
    exact hpeaceful _ _ hopposed hstart (h.presence_mem hclosed howns)

end Assembled

/-- **Conflict detection**: when no conflict is found for a set of atoms, its closure is compatible:
no conflict of an atom, between two versions of a capsule, of a manifest or of an explicit edge has
both ends in it. -/
theorem conflictsFor_compatible {precedence : String → String → Ordering}
    {sha256 : List Char → String} {admission : AdmissionResult F} {task : TaskContext}
    {g : ResolvedGraph F} (hcoherent : Coherent admission.items)
    (hgraph : resolveGraph precedence sha256 admission task = .ok g) {selected C : Finset String}
    (hclose : g.closeAtoms selected = .ok C) (hnone : g.conflictsFor selected = .ok []) :
    g.Compatible precedence admission.items C := by
  obtain ⟨inv, w, hassembled⟩ := resolveGraph_assembled hcoherent hgraph
  obtain ⟨closed, hnodes, rfl⟩ := closeAtoms_eq_ok hclose
  have hconflicts : detectConflicts closed g.edges = [] := by
    rw [ResolvedGraph.conflictsFor, hnodes] at hnone
    exact Except.ok.inj hnone
  exact hassembled.compatible hcoherent (closedNodes_eq_ok hnodes) (hassembled.peaceful hconflicts)

theorem conflictsFor_compatible_sample :
    ∃ g : ResolvedGraph IntegralFloat, g.conflictsFor {"a1"} = .ok [] ∧
      g.Compatible (fun _ _ => .eq) sampleAdmission.items {"a1", "c1"} := by
  obtain ⟨g, hgraph, hclose, hnone⟩ := sampleGraph_closes
  exact ⟨g, hnone, conflictsFor_compatible sampleAdmission_coherent hgraph hclose hnone⟩

end ContractCapsule.Resolve
