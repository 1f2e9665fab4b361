import ContractCapsule.Resolve.Declared

/-!
# Provider Closure

What the closure of a set of atoms contains, in terms of the admitted capsules: the private nodes
are the path from an atom to what its owners require, and from a required provider to each of its
atoms.
-/

namespace ContractCapsule.Resolve

open Library Models

variable {F : Type} [FloatText F]

/-! ## Section 1: Closed nodes -/

/-- The worklist has fuel for every edge: it finds all that the seeds lead to. -/
theorem mem_dependencyClosure {seeds : List String} {edges : List Edge} {m : String} :
    m ∈ dependencyClosure seeds edges ↔
      ∃ s ∈ seeds, Relation.ReflTransGen (fun a b => b ∈ dependencies edges a) s m := by
  have hcard := (edges.map Edge.target).toFinset_card_le
  rw [List.length_map] at hcard
  have hdomain : ∀ n, ∀ t ∈ dependencies edges n, t ∈ (edges.map Edge.target).toFinset := by
    intro n t ht
    obtain ⟨e, he, rfl⟩ := List.mem_map.mp ht
    exact List.mem_toFinset.mpr (List.mem_map_of_mem (List.mem_filter.mp he).1)
  apply mem_worklist hdomain
  omega

theorem mem_dependencies {edges : List Edge} {source target : String} :
    target ∈ dependencies edges source ↔
      ∃ e ∈ edges, e.followed = true ∧ e.source = source ∧ e.target = target := by
  simp [dependencies, and_assoc]

/-- A set of nodes is closed under the edges that are followed. -/
def ResolvedGraph.Follows (g : ResolvedGraph F) (closed : Finset String) : Prop :=
  ∀ e ∈ g.edges, e.followed = true → e.source ∈ closed → e.target ∈ closed

/-- A set of nodes is what `closedNodes` makes of a set of atoms. -/
structure ResolvedGraph.NodesClosed (g : ResolvedGraph F) (selected closed : Finset String) :
    Prop where
  atoms : selected ⊆ g.atomIds
  selected : selected ⊆ closed
  follows : g.Follows closed
  nodes : ∀ n ∈ closed, n ∈ g.atomIds ∨ n ∈ g.markers

theorem closedNodes_eq_ok {g : ResolvedGraph F} {selected closed : Finset String}
    (h : g.closedNodes selected = .ok closed) : g.NodesClosed selected closed := by
  simp only [ResolvedGraph.closedNodes, Except.bind_eq_ok, raiseIf_eq_ok, Except.pure_eq_ok,
    not_not] at h
  obtain ⟨_, hselected, _, hnodes, rfl⟩ := h
  refine ⟨hselected, ?_, ?_, ?_⟩
  · intro id hid
    apply mem_dependencyClosure.mpr
    refine ⟨id, List.mem_filter.mpr ⟨?_, decide_eq_true hid⟩, Relation.ReflTransGen.refl⟩
    exact List.mem_toFinset.mp (hselected hid)
  · intro e he hfollowed hsource
    obtain ⟨seed, hseed, hpath⟩ := mem_dependencyClosure.mp hsource
    apply mem_dependencyClosure.mpr
    exact ⟨seed, hseed, hpath.tail (mem_dependencies.mpr ⟨e, he, hfollowed, rfl, rfl⟩)⟩
  · intro n hn
    rcases Finset.mem_union.mp (hnodes hn) with hatom | hmarker
    · exact Or.inl hatom
    · exact Or.inr (List.mem_toFinset.mp hmarker)

theorem closeAtoms_eq_ok {g : ResolvedGraph F} {selected C : Finset String}
    (h : g.closeAtoms selected = .ok C) :
    ∃ closed, g.closedNodes selected = .ok closed ∧ C = closed ∩ g.atomIds := by
  simp only [ResolvedGraph.closeAtoms, Except.bind_eq_ok, Except.pure_eq_ok] at h
  obtain ⟨closed, hclosed, hC⟩ := h
  exact ⟨closed, hclosed, hC.symm⟩

/-- Fewer atoms close to fewer nodes. -/
theorem closedNodes_mono {g : ResolvedGraph F} {selected selected' closed : Finset String}
    (h : g.closedNodes selected = .ok closed) (hatoms : selected' ⊆ g.atomIds)
    (hsub : selected' ⊆ closed) :
    ∃ closed', g.closedNodes selected' = .ok closed' ∧ closed' ⊆ closed := by
  have hclosed := closedNodes_eq_ok h
  have hle : dependencyClosure ((g.atoms.map Atom.atomId).filter (· ∈ selected')) g.edges ⊆ closed := by
    intro n hn
    obtain ⟨seed, hseed, hpath⟩ := mem_dependencyClosure.mp hn
    clear hn
    induction hpath with
    | refl => exact hsub (of_decide_eq_true (List.mem_filter.mp hseed).2)
    | tail _ hedge ih =>
      obtain ⟨e, he, hfollowed, rfl, rfl⟩ := mem_dependencies.mp hedge
      exact hclosed.follows e he hfollowed ih
  refine ⟨_, ?_, hle⟩
  simp only [ResolvedGraph.closedNodes, Except.bind_eq_ok, raiseIf_eq_ok, Except.pure_eq_ok, not_not]
  refine ⟨(), hatoms, (), fun n hn => ?_, trivial⟩
  rcases hclosed.nodes n (hle hn) with hatom | hmarker
  · exact Finset.mem_union_left _ hatom
  · exact Finset.mem_union_right _ (List.mem_toFinset.mpr hmarker)

/-- The closure of atoms contains them, has only atoms, is its own closure, and contains the
closure of every part of it. -/
theorem closeAtoms_closure {g : ResolvedGraph F} {selected C : Finset String}
    (h : g.closeAtoms selected = .ok C) :
    selected ⊆ C ∧ C ⊆ g.atomIds ∧ g.closeAtoms C = .ok C ∧
      ∀ part ⊆ C, ∃ C', g.closeAtoms part = .ok C' ∧ C' ⊆ C := by
  obtain ⟨closed, hnodes, rfl⟩ := closeAtoms_eq_ok h
  have hclosed := closedNodes_eq_ok hnodes
  have hpart : ∀ part ⊆ closed ∩ g.atomIds,
      ∃ C', g.closeAtoms part = .ok C' ∧ C' ⊆ closed ∩ g.atomIds := by
    intro part hpart
    obtain ⟨closed', hclosed', hle⟩ := closedNodes_mono hnodes
      (hpart.trans Finset.inter_subset_right) (hpart.trans Finset.inter_subset_left)
    refine ⟨closed' ∩ g.atomIds, ?_, Finset.inter_subset_inter_right hle⟩
    rw [ResolvedGraph.closeAtoms, hclosed']
    rfl
  refine ⟨Finset.subset_inter hclosed.selected hclosed.atoms, Finset.inter_subset_right, ?_, hpart⟩
  obtain ⟨C', hC', hle⟩ := hpart _ subset_rfl
  have hge : closed ∩ g.atomIds ⊆ C' := by
    obtain ⟨closed', hclosed', rfl⟩ := closeAtoms_eq_ok hC'
    exact Finset.subset_inter (closedNodes_eq_ok hclosed').selected Finset.inter_subset_right
  rw [hC', hle.antisymm hge]

/-! ## Section 2: What closed nodes contain -/

/-- A capsule owns an atom of a set. -/
def ResolvedGraph.OwnsIn (g : ResolvedGraph F) (ref : CapsuleRef) (atomIds : Finset String) : Prop :=
  ∃ id ∈ atomIds, ref ∈ g.ownersOf id

/-- All atoms of the payload of a capsule are in a set. -/
def AdmittedCapsule.IncludedIn (item : AdmittedCapsule F) (atomIds : Finset String) : Prop :=
  ∀ id ∈ item.payload.map Atom.atomId, id ∈ atomIds

section Assembled

variable {precedence : String → String → Ordering} {items : List (AdmittedCapsule F)}
variable {g : ResolvedGraph F} {inv : Inventory F} {w : Wiring} {selected closed : Finset String}

/-- The atoms of the graph are the admitted ones. -/
theorem Assembled.mem_atomIds (h : Assembled precedence items g inv w) (id : String) :
    id ∈ g.atomIds ↔ ∃ item ∈ items, item.Admits id := by
  rw [← h.describes.atoms, ResolvedGraph.atomIds, List.mem_toFinset]
  simp only [List.mem_map, h.graphAtoms]

/-- The owners of an atom are the capsules it is admitted with. -/
theorem Assembled.mem_ownersOf (h : Assembled precedence items g inv w) (id : String)
    (r : CapsuleRef) : r ∈ g.ownersOf id ↔ ∃ item ∈ items, item.ref = r ∧ item.Admits id := by
  rw [h.graphOwners, h.describes.owners]

/-- No atom has a private identifier. -/
theorem Assembled.isPrivate_atom (h : Assembled precedence items g inv w) {id : String}
    (hid : id ∈ g.atomIds) : isPrivate id = false := by
  obtain ⟨item, hitem, hadmits⟩ := (h.mem_atomIds id).mp hid
  exact h.describes.known id ((h.describes.catalogs.known id).mpr ⟨item, hitem, hadmits.1⟩)

/-- Closed nodes are closed under what is demanded. -/
theorem Assembled.demands (h : Assembled precedence items g inv w)
    (hclosed : g.NodesClosed selected closed) {source target : String}
    (hdemands : w.Demands source target) (hsource : source ∈ closed) : target ∈ closed := by
  obtain ⟨e, he, hkey, hmandatory⟩ := hdemands
  simp only [Edge.key, Prod.mk.injEq] at hkey
  obtain ⟨rfl, rfl, hkind⟩ := hkey
  refine hclosed.follows e ((h.graphEdges e).mpr he) ?_ hsource
  rw [Edge.followed, hkind, hmandatory, Bool.and_true, decide_eq_true rfl]

/-- A closed node that is not private is an atom. -/
theorem ResolvedGraph.NodesClosed.mem_atoms (hclosed : g.NodesClosed selected closed) {n : String}
    (hn : n ∈ closed) (hpublic : isPrivate n = false) : n ∈ closed ∩ g.atomIds := by
  refine Finset.mem_inter.mpr ⟨hn, ?_⟩
  rcases hclosed.nodes n hn with hatom | hmarker
  · exact hatom
  · -- a marker is private
    simp only [ResolvedGraph.markers, List.mem_flatMap, List.mem_cons, List.not_mem_nil,
      or_false] at hmarker
    obtain ⟨p, _, rfl | rfl⟩ := hmarker
    · rw [isPrivate_presence] at hpublic
      cases hpublic
    · rw [isPrivate_unitNode] at hpublic
      cases hpublic

/-- A capsule that owns a closed atom is present. -/
theorem Assembled.presence_mem (h : Assembled precedence items g inv w)
    (hclosed : g.NodesClosed selected closed) {item : AdmittedCapsule F}
    (howns : g.OwnsIn item.ref (closed ∩ g.atomIds)) : presence item.ref ∈ closed := by
  obtain ⟨id, hid, howner⟩ := howns
  obtain ⟨owner, howner, href, hadmits⟩ := (h.mem_ownersOf id _).mp howner
  have hpresent := h.describes.present owner howner id hadmits
  rw [href] at hpresent
  exact h.demands hclosed hpresent (Finset.mem_inter.mp hid).1

/-- A provider whose unit is closed is included with its whole payload. -/
theorem Assembled.included (h : Assembled precedence items g inv w)
    (hclosed : g.NodesClosed selected closed) {provider : AdmittedCapsule F}
    (hprovider : provider ∈ items) (hcomplete : provider.IsComplete)
    (hunit : unitNode provider.ref ∈ closed) : provider.IncludedIn (closed ∩ g.atomIds) := by
  intro id hid
  have hadmits : provider.Admits id := ⟨hid, hcomplete.2 id hid⟩
  have hmem := h.demands hclosed (h.describes.united provider hprovider id hadmits) hunit
  exact Finset.mem_inter.mpr ⟨hmem, (h.mem_atomIds id).mpr ⟨provider, hprovider, hadmits⟩⟩

/-- The source of an explicit edge of a capsule is there: an atom that the capsule owns is in the
set, or the edge starts at the capsule and one of its atoms is in the set. -/
def ResolvedGraph.SourceIn (g : ResolvedGraph F) (declaring : AdmittedCapsule F)
    (edge : DependencyEdge (Number F)) (atomIds : Finset String) : Prop :=
  (edge.source ∈ atomIds ∧ declaring.ref ∈ g.ownersOf edge.source) ∨
    (edge.source = declaring.ref.capsuleId ∧ g.OwnsIn declaring.ref atomIds)

/-- An edge whose source is there starts at a closed node. -/
theorem Assembled.startsAt (h : Assembled precedence items g inv w)
    (hclosed : g.NodesClosed selected closed) {declaring : AdmittedCapsule F}
    {edge : DependencyEdge (Number F)} (hsource : g.SourceIn declaring edge (closed ∩ g.atomIds)) :
    ∃ owner ∈ items, owner.ref = declaring.ref ∧ ∃ source ∈ closed, owner.StartsAt edge source := by
  rcases hsource with ⟨hmem, howner⟩ | ⟨hself, howns⟩
  · obtain ⟨owner, howner, href, hadmits⟩ := (h.mem_ownersOf _ _).mp howner
    exact ⟨owner, howner, href, edge.source, (Finset.mem_inter.mp hmem).1, Or.inl ⟨hadmits, rfl⟩⟩
  · obtain ⟨id, _, howner⟩ := id howns
    obtain ⟨owner, howner, href, _⟩ := (h.mem_ownersOf _ _).mp howner
    refine ⟨owner, howner, href, presence declaring.ref, h.presence_mem hclosed howns, Or.inr ?_⟩
    rw [href]
    exact ⟨hself, rfl⟩

end Assembled

/-! ## Section 3: The closure -/

/-- What a closure of atoms is closed under. -/
structure ResolvedGraph.ProviderClosed (g : ResolvedGraph F)
    (precedence : String → String → Ordering) (items : List (AdmittedCapsule F))
    (atomIds : Finset String) : Prop where
  /-- No private node. -/
  atoms : ∀ id ∈ atomIds, isPrivate id = false
  /-- What the atoms require. -/
  requiresAtoms : ∀ atom ∈ g.atoms, atom.atomId ∈ atomIds →
    ∀ target ∈ atom.requiresAtoms, target ∈ atomIds
  /-- The atom that an explicit edge requires. -/
  explicitAtom : ∀ declaring ∈ items,
    ∀ edge ∈ (capsuleOf declaring.published).dependencyGraph.edges,
      Inventory.demands edge = true → g.SourceIn declaring edge atomIds →
        (∀ item ∈ items, item.ref.capsuleId ≠ edge.target) → edge.target ∈ atomIds
  /-- The payload of the one capsule that an explicit edge requires. -/
  explicitCapsule : ∀ declaring ∈ items,
    ∀ edge ∈ (capsuleOf declaring.published).dependencyGraph.edges,
      Inventory.demands edge = true → g.SourceIn declaring edge atomIds →
        (∃ item ∈ items, item.ref.capsuleId = edge.target) →
          ∃ provider ∈ items, declaring.Answers precedence edge provider ∧
            provider.IncludedIn atomIds ∧
            ∀ other ∈ items, declaring.Answers precedence edge other → other.ref = provider.ref
  /-- The payload of the one provider of each requirement of an owner. -/
  manifests : ∀ consumer ∈ items, g.OwnsIn consumer.ref atomIds →
    ∀ declaration ∈ (capsuleOf consumer.published).controlManifest.requires,
      ∃ provider ∈ items, consumer.Meets precedence declaration provider ∧
        provider.IncludedIn atomIds ∧
        ∀ other ∈ items, consumer.Meets precedence declaration other → other.ref = provider.ref

/-- What answers an edge of a capsule depends on its reference and its publication only. -/
theorem AdmittedCapsule.Answers.of_same {precedence : String → String → Ordering}
    {edge : DependencyEdge (Number F)} {a b provider : AdmittedCapsule F} (href : a.ref = b.ref)
    (hpublished : a.published = b.published) (h : a.Answers precedence edge provider) :
    b.Answers precedence edge provider :=
  ⟨h.named, h.complete, h.fits, href ▸ hpublished ▸ h.locked⟩

section Closed

variable {precedence : String → String → Ordering} {items : List (AdmittedCapsule F)}
variable {g : ResolvedGraph F} {inv : Inventory F} {w : Wiring} {selected closed : Finset String}

/-- An explicit edge whose source is there is wired from a closed node. -/
theorem Assembled.explicit (h : Assembled precedence items g inv w) (hcoherent : Coherent items)
    (hclosed : g.NodesClosed selected closed) {declaring : AdmittedCapsule F}
    (hdeclaring : declaring ∈ items) {edge : DependencyEdge (Number F)}
    (hedge : edge ∈ (capsuleOf declaring.published).dependencyGraph.edges)
    (hsource : g.SourceIn declaring edge (closed ∩ g.atomIds)) :
    ∃ owner ∈ items, owner.ref = declaring.ref ∧ owner.published = declaring.published ∧
      ∃ source ∈ closed, EdgeWired precedence items owner edge source w := by
  obtain ⟨owner, howner, href, source, hmem, hstarts⟩ := h.startsAt hclosed hsource
  have hpublished := hcoherent owner howner declaring hdeclaring href
  refine ⟨owner, howner, href, hpublished, source, hmem, ?_⟩
  rw [← hpublished] at hedge
  exact h.publications owner howner edge hedge source hstarts

/-- The closed atoms are closed under every declaration. -/
theorem Assembled.providerClosed (h : Assembled precedence items g inv w)
    (hcoherent : Coherent items) (hclosed : g.NodesClosed selected closed) :
    g.ProviderClosed precedence items (closed ∩ g.atomIds) := by
  refine ⟨?_, ?_, ?_, ?_, ?_⟩
  · intro id hid
    exact h.isPrivate_atom (Finset.mem_inter.mp hid).2
  · intro atom hatom hmem target htarget
    obtain ⟨hpublic, hdemands⟩ := (h.atoms atom ((h.graphAtoms atom).mp hatom)).requires target htarget
    apply hclosed.mem_atoms _ hpublic
    exact h.demands hclosed hdemands (Finset.mem_inter.mp hmem).1
  · intro declaring hdeclaring edge hedge hdemands hsource hatom
    obtain ⟨owner, _, _, _, source, hmem, hwired⟩ :=
      h.explicit hcoherent hclosed hdeclaring hedge hsource
    obtain ⟨hpublic, hdemanded⟩ := hwired.demandedAtom hdemands hatom
    exact hclosed.mem_atoms (h.demands hclosed hdemanded hmem) hpublic
  · intro declaring hdeclaring edge hedge hdemands hsource hcapsule
    obtain ⟨owner, _, href, hpublished, source, hmem, hwired⟩ :=
      h.explicit hcoherent hclosed hdeclaring hedge hsource
    obtain ⟨provider, hprovider, hanswers, hdemanded, hone⟩ :=
      hwired.demandedCapsule hdemands hcapsule
    refine ⟨provider, hprovider, hanswers.of_same href hpublished, ?_, fun other hother hother' => ?_⟩
    · -- from the source to the unit, and from there to each atom
      apply h.included hclosed hprovider hanswers.complete
      exact h.demands hclosed hdemanded hmem
    · exact hone other hother (hother'.of_same href.symm hpublished.symm)
  · intro consumer hconsumer howns declaration hdeclaration
    obtain ⟨provider, hprovider, hmeets, hdemanded, hone⟩ :=
      (h.manifests consumer hconsumer).requires declaration hdeclaration
    refine ⟨provider, hprovider, hmeets, ?_, hone⟩
    -- from the atom to the presence of its owner, and from there to the unit of the provider
    apply h.included hclosed hprovider hmeets.complete
    exact h.demands hclosed hdemanded (h.presence_mem hclosed howns)

end Closed

/-- **Provider closure**: the closure of a set of atoms contains the set and no private node, and is
closed under what its atoms require, under the mandatory explicit edges of the capsules that own
their sources, and under the requirements in the manifests of the owners of its atoms, each of which
has exactly one provider that meets it, included whole. -/
theorem closeAtoms_providerClosed {precedence : String → String → Ordering}
    {sha256 : List Char → String} {admission : AdmissionResult F} {task : TaskContext}
    {g : ResolvedGraph F} (hcoherent : Coherent admission.items)
    (hgraph : resolveGraph precedence sha256 admission task = .ok g) {selected C : Finset String}
    (hclose : g.closeAtoms selected = .ok C) :
    selected ⊆ C ∧ g.ProviderClosed precedence admission.items C := by
  obtain ⟨inv, w, hassembled⟩ := resolveGraph_assembled hcoherent hgraph
  obtain ⟨closed, hnodes, rfl⟩ := closeAtoms_eq_ok hclose
  have hclosed := closedNodes_eq_ok hnodes
  refine ⟨fun id hid => ?_, hassembled.providerClosed hcoherent hclosed⟩
  exact Finset.mem_inter.mpr ⟨hclosed.selected hid, hclosed.atoms hid⟩

/-- A valid capsule of one atom, with what its manifest provides and requires, and the locks that
its requirements need. -/
def sampleNode (capsuleId atomId : String) (provides requires conflicts : List String)
    (locks : List CapsuleDependency) : Capsule (Number IntegralFloat) :=
  { sampleCapsule with
    controlManifest :=
      { sampleCapsule.controlManifest with
        capsuleId := capsuleId, provides := provides, requires := requires, conflicts := conflicts }
    semanticPayload :=
      { sampleCapsule.semanticPayload with
        atoms := sampleCapsule.semanticPayload.atoms.map fun a => { a with atomId := atomId } }
    evidencePlane :=
      { sampleCapsule.evidencePlane with
        records := sampleCapsule.evidencePlane.records.map fun r => { r with atomIds := [atomId] } }
    testsIntegrity :=
      { sampleCapsule.testsIntegrity with
        lock := { sampleCapsule.testsIntegrity.lock with capsuleDependencies := locks } } }

/-- A published capsule with all of its atoms admitted. -/
def sampleItem (capsule : Capsule (Number IntegralFloat)) (h : capsule.valid = true) :
    AdmittedCapsule IntegralFloat where
  published := ⟨⟨capsule, "PUBLISHED", "2026-01-01T00:00:00Z"⟩, h⟩
  atomIds := capsule.semanticPayload.atoms.map Atom.atomId

/-- A consumer with a requirement, and a capsule that meets it. -/
def sampleAdmission : AdmissionResult IntegralFloat where
  items := [
    sampleItem (sampleNode "a.b" "a1" [] ["a/b@>=1.0"] ["a/c@>=1.0"]
      [{ capsuleId := "c.d", version := "1.0.0", digest := zeroDigest }]) (by decide +kernel),
    sampleItem (sampleNode "c.d" "c1" ["a/b/v1"] [] [] []) (by decide +kernel)]
  rejectedCounts := []
  permissionDigest := zeroDigest
  freshnessDigest := zeroDigest

/-- A task. -/
def sampleTask : TaskContext where
  taskId := "k"
  tenant := "t"
  repository := "r"
  paths := ["p"]
  environment := "e"
  text := ""
  risk := .low
  requiredInterfaces := []
  requiredAtomIds := []

theorem sampleAdmission_coherent : Coherent sampleAdmission.items := by
  intro a ha b hb href
  simp only [sampleAdmission, List.mem_cons, List.not_mem_nil, or_false] at ha hb
  rcases ha with rfl | rfl <;> rcases hb with rfl | rfl
  · rfl
  · exact absurd href (by decide +kernel)
  · exact absurd href (by decide +kernel)
  · rfl

/-- The graph of the sample, in which every version is 1.0.0. -/
def sampleGraph : Except CompileError (ResolvedGraph IntegralFloat) :=
  resolveGraph (fun _ _ => .eq) String.ofList sampleAdmission sampleTask

/-- The consumer's atom closes over its provider's, without a conflict. -/
theorem sampleGraph_closes : ∃ g : ResolvedGraph IntegralFloat, sampleGraph = .ok g ∧
    g.closeAtoms {"a1"} = .ok {"a1", "c1"} ∧ g.conflictsFor {"a1"} = .ok [] := by
  have hcomputed : sampleGraph.toOption.any (fun g =>
      decide ((g.closeAtoms {"a1"}).toOption = some {"a1", "c1"}) &&
        decide ((g.conflictsFor {"a1"}).toOption = some [])) = true := by decide +kernel
  obtain ⟨g, hgraph, hg⟩ := (Option.any_eq_true _ _).mp hcomputed
  rw [Bool.and_eq_true] at hg
  exact ⟨g, Except.toOption_eq_some.mp hgraph, Except.toOption_eq_some.mp (of_decide_eq_true hg.1),
    Except.toOption_eq_some.mp (of_decide_eq_true hg.2)⟩

theorem closeAtoms_providerClosed_sample :
    ∃ g : ResolvedGraph IntegralFloat, g.closeAtoms {"a1"} = .ok {"a1", "c1"} ∧
      {"a1"} ⊆ ({"a1", "c1"} : Finset String) ∧
      g.ProviderClosed (fun _ _ => .eq) sampleAdmission.items {"a1", "c1"} := by
  obtain ⟨g, hgraph, hclose, _⟩ := sampleGraph_closes
  exact ⟨g, hclose, closeAtoms_providerClosed sampleAdmission_coherent hgraph hclose⟩

end ContractCapsule.Resolve
