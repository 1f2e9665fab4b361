import ContractCapsule.Formal.Recheck
import ContractCapsule.Resolve.Providers

/-!
# The Two Dependency Closures

`_dependency_closure` of the formal model scans the edges round after round, and
`dependency_closure` of the resolver keeps a worklist. Both are the least set that contains the
roots and is closed under the edges they follow. They follow the same edges as long as every target
is known; the formal model stops at a target that is not, and reports it.
-/

namespace ContractCapsule.Formal

open Library
open Relation (ReflTransGen)

/-! ## Section 1: Reachability -/

/-- One atom requires another. -/
def Requires (requires : Finset (String × String)) (source target : String) : Prop :=
  (source, target) ∈ requires

/-- One atom requires another, which is known. -/
def RequiresKnown (atoms : List Atom) (requires : Finset (String × String))
    (source target : String) : Prop :=
  (source, target) ∈ requires ∧ target ∈ atomIds atoms

/-- The roots reach the identifier. -/
def ReachedBy (step : String → String → Prop) (roots : List String) (id : String) : Prop :=
  ∃ root ∈ roots, ReflTransGen step root id

/-- The edges of the resolver's graph that its closure follows are the ones given. -/
def FollowsExactly (edges : List Resolve.Edge) (requires : Finset (String × String)) : Prop :=
  ∀ source target, (source, target) ∈ requires ↔
    ∃ e ∈ edges, e.followed = true ∧ e.source = source ∧ e.target = target

/-! ## Section 2: The closures -/

variable {atoms : List Atom} {requires : Finset (String × String)} {roots : List String}
  {edges : List Resolve.Edge}

/-- The formal closure is what the roots reach through known atoms. -/
theorem mem_dependencyClosure_iff_reached {id : String} :
    id ∈ (dependencyClosure roots.toFinset atoms requires).1 ↔
      ReachedBy (RequiresKnown atoms requires) roots id := by
  rw [mem_dependencyClosure, demanded_iff_reached]
  simp only [mem_sortedEdges, List.mem_toFinset]
  rfl

/-- The missing set is the unknown targets of edges that leave the closure. -/
theorem mem_missing_iff {id : String} :
    id ∈ (dependencyClosure roots.toFinset atoms requires).2 ↔
      id ∉ atomIds atoms ∧ ∃ source ∈ (dependencyClosure roots.toFinset atoms requires).1,
        (source, id) ∈ requires := by
  have hmissing : id ∈ (dependencyClosure roots.toFinset atoms requires).2 ↔ _ :=
    saturate_missing (atomIds_card_lt atoms)
  rw [hmissing]
  simp only [← mem_dependencyClosure, mem_sortedEdges]

/-- The closure of the resolver is what the roots reach. -/
theorem mem_worklistClosure_iff_reached (hedges : FollowsExactly edges requires) {id : String} :
    id ∈ Resolve.dependencyClosure roots edges ↔ ReachedBy (Requires requires) roots id := by
  have hstep : (fun source target => target ∈ Resolve.dependencies edges source) =
      Requires requires := by
    funext source target
    rw [Resolve.mem_dependencies, Requires, hedges source target]
  rw [Resolve.mem_dependencyClosure, hstep]
  rfl

/-- **Both closures are least fixed points.** For all atoms, roots and edges: the formal closure is
exactly the roots and the known atoms that they reach through known atoms; its missing set is
exactly the targets outside of the known atoms of the edges that leave it; the closure of the
resolver is exactly what the roots reach; and the two are equal when every target is known. -/
theorem closures_least (atoms : List Atom) (roots : List String) (edges : List Resolve.Edge)
    (requires : Finset (String × String)) (hedges : FollowsExactly edges requires) :
    (∀ id, id ∈ (dependencyClosure roots.toFinset atoms requires).1 ↔
        ReachedBy (RequiresKnown atoms requires) roots id) ∧
      (∀ id, id ∈ (dependencyClosure roots.toFinset atoms requires).2 ↔
        id ∉ atomIds atoms ∧ ∃ source ∈ (dependencyClosure roots.toFinset atoms requires).1,
          (source, id) ∈ requires) ∧
      (∀ id, id ∈ Resolve.dependencyClosure roots edges ↔
        ReachedBy (Requires requires) roots id) ∧
      ((∀ edge ∈ requires, edge.2 ∈ atomIds atoms) →
        (dependencyClosure roots.toFinset atoms requires).1 =
          Resolve.dependencyClosure roots edges) := by
  refine ⟨fun id => mem_dependencyClosure_iff_reached, fun id => mem_missing_iff,
    fun id => mem_worklistClosure_iff_reached hedges, fun hknown => ?_⟩
  -- with every target known, both follow the same edges
  have hsame : RequiresKnown atoms requires = Requires requires := by
    funext source target
    apply propext
    exact ⟨fun h => h.1, fun h => ⟨h, hknown _ h⟩⟩
  ext id
  rw [mem_dependencyClosure_iff_reached, mem_worklistClosure_iff_reached hedges, hsame]

/-! ## Section 3: An unknown atom on the way -/

/-- Two atoms, and an edge from each side to an atom that is not there. -/
def gapAtoms : List Atom := [sampleAtom, { sampleAtom with atomId := "B1" }]
def gapRequires : Finset (String × String) := {("A1", "U1"), ("U1", "B1")}
def gapEdges : List Resolve.Edge :=
  [⟨"A1", "U1", .requires, true⟩, ⟨"U1", "B1", .requires, true⟩]

theorem followsExactly_gap : FollowsExactly gapEdges gapRequires := by
  intro source target
  simp only [gapEdges, gapRequires, Finset.mem_insert, Finset.mem_singleton, Prod.mk.injEq,
    List.mem_cons, List.not_mem_nil, or_false, exists_eq_or_imp, exists_eq_left]
  constructor
  · rintro (⟨rfl, rfl⟩ | ⟨rfl, rfl⟩)
    · exact Or.inl ⟨rfl, rfl, rfl⟩
    · exact Or.inr ⟨rfl, rfl, rfl⟩
  · rintro (⟨_, rfl, rfl⟩ | ⟨_, rfl, rfl⟩)
    · exact Or.inl ⟨rfl, rfl⟩
    · exact Or.inr ⟨rfl, rfl⟩

/-- A known atom that is reached through an unknown one is not in the formal closure. -/
theorem closure_stops_at_unknown :
    "B1" ∈ atomIds gapAtoms ∧ ReachedBy (Requires gapRequires) ["A1"] "B1" ∧
      "B1" ∉ (dependencyClosure ["A1"].toFinset gapAtoms gapRequires).1 := by
  have hfirst : Requires gapRequires "A1" "U1" := by simp [Requires, gapRequires]
  have hsecond : Requires gapRequires "U1" "B1" := by simp [Requires, gapRequires]
  refine ⟨by simp [atomIds, gapAtoms], ⟨"A1", by simp, (ReflTransGen.single hfirst).tail hsecond⟩, ?_⟩
  rw [mem_dependencyClosure_iff_reached]
  rintro ⟨root, hroot, hpath⟩
  rw [List.mem_singleton] at hroot
  subst hroot
  rcases hpath.cases_head with heq | ⟨next, hstep, _⟩
  · exact absurd heq (by decide)
  · -- the one edge from the root leads to the unknown atom
    obtain ⟨hedge, hknown⟩ := hstep
    have hnext : next = "U1" := by simpa [gapRequires] using hedge
    subst hnext
    simp [atomIds, gapAtoms, sampleAtom] at hknown

theorem closures_least_gap :
    {id | id ∈ Resolve.dependencyClosure ["A1"] gapEdges} =
      {id | ReachedBy (Requires gapRequires) ["A1"] id} :=
  Set.ext (closures_least gapAtoms ["A1"] gapEdges gapRequires followsExactly_gap).2.2.1

end ContractCapsule.Formal
