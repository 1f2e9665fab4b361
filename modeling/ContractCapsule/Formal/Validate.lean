import ContractCapsule.Formal.Compile

/-!
# Validating a View

`validate_view` recomputes a view from the capsules the view says were ranked, and
compares. It is given the view, the supplied capsules and the principal; the task
is not among its arguments.
-/

namespace ContractCapsule.Formal

open Library

variable {τ κ ν : Type} [DecidableEq κ]

/-! ## Section 1: Recomputation -/

/-- `_RecomputedView` -/
structure RecomputedView where
  ranked : List Capsule
  selectedAtomIds : Finset String
  selectedAtoms : List Atom
  exactAtomIds : Finset String
  evidenceHandles : Finset String
  evidenceIds : Finset String
  missingDependencies : Finset String
  conflicts : Finset (String × String)
  dependencyClosed : Bool
  p0Preserved : Bool
  p0Cost : ℤ
  selectedCost : ℤ

def RecomputedView.content (r : RecomputedView) : String := contentOf r.selectedAtoms

/-- `_recompute_view` -/
def recomputeView (order : SetOrder) (ranked : List Capsule) : RecomputedView :=
  let atomById := atomIndex order ranked
  let requires := requiresEdges ranked
  let closure := dependencyClosure (seedIds ranked) atomById requires
  let selected := closure.1
  let missing := closure.2
  let atoms := selectedAtoms atomById selected
  { ranked := ranked
    selectedAtomIds := selected
    selectedAtoms := atoms
    exactAtomIds := p0AtomIds atoms
    evidenceHandles := evidenceHandlesOf atoms
    evidenceIds := ranked.toFinset.biUnion Capsule.evidenceIds
    missingDependencies := missing
    conflicts := conflictsWithin selected (declaredConflicts ranked)
    dependencyClosed := isDependencyClosed missing selected requires
    p0Preserved := p0AtomIds atomById ⊆ p0AtomIds atoms ∧ policiesAreExact ranked
    p0Cost := cost (atomById.filter Atom.isP0)
    selectedCost := cost atoms }

/-- `_resolve_ranked_capsules`: the capsules a view ranks, and whether its ranking and phases
are what these capsules give. -/
def resolveRankedCapsules (view : CompiledView τ κ) (supplied : List Capsule) :
    List Capsule × Bool :=
  let capsuleByRef := index Capsule.reference supplied
  let referencesAreValid := view.rankedCapsules.Nodup ∧
    ∀ reference ∈ view.rankedCapsules, (lookup Capsule.reference capsuleByRef reference).isSome
  let ranked := view.rankedCapsules.filterMap (lookup Capsule.reference capsuleByRef)
  let expectedRanked := rank ranked
  (expectedRanked, decide (referencesAreValid ∧
    view.rankedCapsules = expectedRanked.map Capsule.reference ∧
    view.auditPhases = phasesOf ranked ∧
    ¬ (supplied ≠ [] ∧ ranked = [] ∧ view.blockers = [])))

/-! ## Section 2: The validator -/

/-- `_view_metadata_is_consistent` -/
def viewMetadataIsConsistent (view : CompiledView τ κ) (supplied : List Capsule)
    (suppliedFingerprints : List (String × κ)) (recomputed : RecomputedView)
    (rankingIsConsistent : Bool) : Bool :=
  rankingIsConsistent ∧
  view.capsuleRefs = supplied.map Capsule.reference ∧
  view.capsuleFingerprints = suppliedFingerprints ∧
  view.eligibilityChecked = supplied.map Capsule.reference ∧
  view.selectedAtomIds = recomputed.selectedAtomIds ∧
  view.exactAtomIds = recomputed.exactAtomIds ∧
  view.evidenceHandles = recomputed.evidenceHandles ∧
  view.content = recomputed.content ∧
  view.missingDependencies = recomputed.missingDependencies ∧
  view.conflicts = recomputed.conflicts ∧
  view.dependencyClosed = recomputed.dependencyClosed ∧
  view.p0Preserved = recomputed.p0Preserved

/-- `_capsule_validation_blockers` -/
def capsuleValidationBlockers (fp : Fingerprints τ κ ν) (order : SetOrder)
    (supplied : List Capsule) (principal : Principal) : List BlockerCode :=
  uniqueBlockers <|
    crossCapsuleIdentityBlockers fp order supplied ++
    supplied.flatMap fun c =>
      wellFormedness order c ++
      blockIf (principal.principalId ∉ c.manifest.authorizedPrincipals) .unauthorizedCapsule ++
      blockIf (∃ e ∈ c.evidence, ¬ e.fresh) .staleEvidence

/-- `_recomputed_validation_blockers` -/
def recomputedValidationBlockers (view : CompiledView τ κ) (recomputed : RecomputedView) :
    List BlockerCode :=
  blockIf (¬ recomputed.evidenceHandles ⊆ recomputed.evidenceIds) .missingEvidence ++
  blockIf (¬ recomputed.p0Preserved) .p0NotExact ++
  blockIf (recomputed.missingDependencies ≠ ∅ ∨ ¬ recomputed.dependencyClosed)
    .missingMandatoryDependency ++
  blockIf (recomputed.conflicts ≠ ∅) .unresolvedConflict ++
  if view.budgetTokens < recomputed.p0Cost then [.p0BudgetOverflow]
  else blockIf (view.budgetTokens < recomputed.selectedCost) .mandatoryClosureBudgetOverflow

/-- `validate_view` -/
def validateView (fp : Fingerprints τ κ ν) (order : SetOrder) (view : CompiledView τ κ)
    (supplied : List Capsule) (principal : Principal) : ValidationReport κ ν :=
  let suppliedFingerprints := fingerprintsOf fp supplied
  let resolved := resolveRankedCapsules view supplied
  let recomputed := recomputeView order resolved.1
  let unique := uniqueBlockers <|
    view.blockers ++ capsuleValidationBlockers fp order supplied principal ++
    blockIf (view.principalId ≠ principal.principalId) .unauthorizedCapsule ++
    blockIf (¬ viewMetadataIsConsistent view supplied suppliedFingerprints recomputed resolved.2)
      .viewInconsistent ++
    recomputedValidationBlockers view recomputed
  { valid := unique = []
    blockers := unique
    viewFingerprint := fp.view view
    capsuleFingerprints := suppliedFingerprints
    principalId := principal.principalId }

/-! ## Section 3: Valid reports -/

variable {fp : Fingerprints τ κ ν} {order : SetOrder} {view : CompiledView τ κ}
  {ranked supplied : List Capsule} {principal : Principal} {c : Capsule} {a : Atom}

theorem capsuleValidationBlockers_eq_nil :
    capsuleValidationBlockers fp order supplied principal = [] ↔
      crossCapsuleIdentityBlockers fp order supplied = [] ∧ ∀ c ∈ supplied,
        WellFormed c ∧ principal.principalId ∈ c.manifest.authorizedPrincipals ∧
          ∀ e ∈ c.evidence, e.fresh = true := by
  rw [capsuleValidationBlockers, uniqueBlockers_eq_nil_iff (by simp)]
  simp [wellFormedness_eq_nil]

/-- Nothing that `validate_view` checks is wrong; `recomputed` is the recomputed view. -/
structure Accepted (fp : Fingerprints τ κ ν) (order : SetOrder) (view : CompiledView τ κ)
    (supplied : List Capsule) (principal : Principal) (recomputed : RecomputedView) : Prop where
  recorded : ∀ b ∈ view.blockers, b = .none
  identities : crossCapsuleIdentityBlockers fp order supplied = []
  capsules : ∀ c ∈ supplied, WellFormed c ∧
    principal.principalId ∈ c.manifest.authorizedPrincipals ∧ ∀ e ∈ c.evidence, e.fresh = true
  principal : view.principalId = principal.principalId
  consistent : viewMetadataIsConsistent view supplied (fingerprintsOf fp supplied) recomputed
    (resolveRankedCapsules view supplied).2 = true
  handles : recomputed.evidenceHandles ⊆ recomputed.evidenceIds
  p0Preserved : recomputed.p0Preserved = true
  missing : recomputed.missingDependencies = ∅
  dependencyClosed : recomputed.dependencyClosed = true
  conflicts : recomputed.conflicts = ∅
  p0Budget : recomputed.p0Cost ≤ view.budgetTokens
  budget : recomputed.selectedCost ≤ view.budgetTokens

omit [DecidableEq κ] in
theorem recomputedValidationBlockers_eq_nil {recomputed : RecomputedView} :
    recomputedValidationBlockers view recomputed = [] ↔
      recomputed.evidenceHandles ⊆ recomputed.evidenceIds ∧ recomputed.p0Preserved = true ∧
        (recomputed.missingDependencies = ∅ ∧ recomputed.dependencyClosed = true) ∧
        recomputed.conflicts = ∅ ∧ recomputed.p0Cost ≤ view.budgetTokens ∧
        recomputed.selectedCost ≤ view.budgetTokens := by
  unfold recomputedValidationBlockers
  split_ifs with hp0
  · simp [not_le.mpr hp0]
  · simp [not_lt.mp hp0, and_assoc]

theorem validateView_valid :
    (validateView fp order view supplied principal).valid = true ↔
      Accepted fp order view supplied principal
        (recomputeView order (resolveRankedCapsules view supplied).1) := by
  have hnone : .none ∉ capsuleValidationBlockers fp order supplied principal := by
    simp [capsuleValidationBlockers]
  have hnone' : ∀ recomputed, .none ∉ recomputedValidationBlockers view recomputed := by
    intro recomputed
    unfold recomputedValidationBlockers
    split_ifs <;> simp
  simp only [validateView, decide_eq_true_eq, List.append_assoc]
  rw [uniqueBlockers_append_eq_nil (by simp [hnone, hnone'])]
  simp only [List.append_eq_nil_iff, blockIf_eq_nil, not_not, ne_eq,
    capsuleValidationBlockers_eq_nil, recomputedValidationBlockers_eq_nil]
  constructor
  · rintro ⟨hrecorded, ⟨hidentities, hcapsules⟩, hprincipal, hconsistent, hhandles, hp0,
      ⟨hmissing, hclosed⟩, hconflicts, hp0Budget, hbudget⟩
    exact ⟨hrecorded, hidentities, hcapsules, hprincipal, hconsistent, hhandles, hp0, hmissing,
      hclosed, hconflicts, hp0Budget, hbudget⟩
  · intro h
    exact ⟨h.recorded, ⟨h.identities, h.capsules⟩, h.principal, h.consistent, h.handles,
      h.p0Preserved, ⟨h.missing, h.dependencyClosed⟩, h.conflicts, h.p0Budget, h.budget⟩

/-! ## Section 4: What the recomputed values say -/

/-- Every P0 atom of a ranked capsule is selected. -/
theorem recomputeView_p0 (hc : c ∈ ranked) (ha : a ∈ c.atoms) (hp0 : a.isP0 = true) :
    a.atomId ∈ (recomputeView order ranked).selectedAtomIds :=
  dependencyClosure_seeds (mem_seedIds.mpr ⟨c, hc, a, ha, .inl hp0, rfl⟩)

theorem recomputeView_known {id : String}
    (h : id ∈ (recomputeView order ranked).selectedAtomIds) :
    ∃ c ∈ ranked, ∃ a ∈ c.atoms, a.atomId = id := by
  have hknown := dependencyClosure_subset (seedIds_subset order ranked) h
  obtain ⟨a, ha, hid⟩ := mem_atomIds.mp hknown
  obtain ⟨c, hc, hac⟩ := mem_of_mem_atomIndex ha
  exact ⟨c, hc, a, hac, hid⟩

theorem recomputeView_closed (hmissing : (recomputeView order ranked).missingDependencies = ∅)
    (hc : c ∈ ranked) {edge : String × String} (hedge : edge ∈ c.dependencyGraph.requires)
    (hsource : edge.1 ∈ (recomputeView order ranked).selectedAtomIds) :
    edge.2 ∈ (recomputeView order ranked).selectedAtomIds :=
  dependencyClosure_closed hmissing (mem_requiresEdges.mpr ⟨c, hc, hedge⟩) hsource

theorem recomputeView_conflictFree (hconflicts : (recomputeView order ranked).conflicts = ∅)
    (hc : c ∈ ranked) {edge : String × String} (hedge : edge ∈ c.dependencyGraph.conflicts) :
    ¬ (edge.1 ∈ (recomputeView order ranked).selectedAtomIds ∧
      edge.2 ∈ (recomputeView order ranked).selectedAtomIds) := by
  intro hboth
  have hmem : edge ∈ (recomputeView order ranked).conflicts :=
    mem_conflictsWithin.mpr ⟨mem_declaredConflicts.mpr ⟨c, hc, hedge⟩, hboth⟩
  exact Finset.notMem_empty _ (hconflicts ▸ hmem)

/-- The recomputed closure lacks nothing but missing targets. -/
theorem recomputeView_dependencyClosed :
    (recomputeView order ranked).dependencyClosed = true ↔
      (recomputeView order ranked).missingDependencies = ∅ := by
  simp only [recomputeView, isDependencyClosed, decide_eq_true_eq, and_iff_left_iff_imp]
  intro hmissing edge hedge
  exact or_iff_not_imp_left.mpr fun hsource =>
    dependencyClosure_closed hmissing hedge (not_not.mp hsource)

/-- P0 atoms are always among the exact ones, so that only the policies decide. -/
theorem recomputeView_p0Preserved :
    (recomputeView order ranked).p0Preserved = policiesAreExact ranked := by
  have hsubset : p0AtomIds (atomIndex order ranked) ⊆
      (recomputeView order ranked).exactAtomIds := by
    intro id hid
    obtain ⟨a, ha, hp0, rfl⟩ := mem_p0AtomIds.mp hid
    obtain ⟨c, hc, hac⟩ := mem_of_mem_atomIndex ha
    exact mem_p0AtomIds.mpr
      ⟨a, mem_selectedAtoms.mpr ⟨ha, recomputeView_p0 hc hac hp0⟩, hp0, rfl⟩
  have hexact : (recomputeView order ranked).p0Preserved =
      decide (p0AtomIds (atomIndex order ranked) ⊆ (recomputeView order ranked).exactAtomIds ∧
        policiesAreExact ranked = true) := rfl
  rw [hexact]
  simp [hsubset]

theorem recomputeView_handles_subset
    (hrefs : ∀ c ∈ ranked, ∀ a ∈ c.atoms, a.evidenceRefs ⊆ c.evidenceIds) :
    (recomputeView order ranked).evidenceHandles ⊆ (recomputeView order ranked).evidenceIds := by
  intro ref href
  obtain ⟨a, ha, href⟩ := mem_evidenceHandlesOf.mp href
  obtain ⟨c, hc, hac⟩ := mem_of_mem_atomIndex (mem_selectedAtoms.mp ha).1
  exact Finset.mem_biUnion.mpr ⟨c, List.mem_toFinset.mpr hc, hrefs c hc a hac href⟩

/-! ## Section 5: When atoms agree on their identifiers -/

/-- The atoms of a sequence of capsules. -/
def heldAtoms (capsules : List Capsule) : Finset Atom :=
  capsules.toFinset.biUnion (·.atoms)

@[simp] theorem mem_heldAtoms : a ∈ heldAtoms supplied ↔ ∃ c ∈ supplied, a ∈ c.atoms := by
  simp [heldAtoms]

variable (hagree : AtomsAgree supplied) (hranked : ∀ c ∈ ranked, c ∈ supplied)

include hagree hranked

theorem atomsAgree_ranked : AtomsAgree ranked :=
  fun c hc a ha d hd b hb => hagree c (hranked c hc) a ha d (hranked d hd) b hb

/-- The selected atoms are the supplied atoms whose identifiers are selected. -/
theorem mem_recomputeView_selectedAtoms :
    a ∈ (recomputeView order ranked).selectedAtoms ↔
      (∃ c ∈ supplied, a ∈ c.atoms) ∧
        a.atomId ∈ (recomputeView order ranked).selectedAtomIds := by
  refine mem_selectedAtoms.trans ?_
  rw [mem_atomIndex (atomsAgree_ranked hagree hranked)]
  refine and_congr_left fun hselected => ⟨fun ⟨c, hc, ha⟩ => ⟨c, hranked c hc, ha⟩, ?_⟩
  rintro ⟨c, hc, ha⟩
  obtain ⟨d, hd, b, hb, hid⟩ := recomputeView_known hselected
  exact ⟨d, hd, hagree c hc a ha d (hranked d hd) b hb hid.symm ▸ hb⟩

theorem recomputeView_exact (hc : c ∈ ranked) (ha : a ∈ c.atoms) (hp0 : a.isP0 = true) :
    a.atomId ∈ (recomputeView order ranked).exactAtomIds :=
  mem_p0AtomIds.mpr ⟨a, (mem_recomputeView_selectedAtoms hagree hranked).mpr
    ⟨⟨c, hranked c hc, ha⟩, recomputeView_p0 hc ha hp0⟩, hp0, rfl⟩

theorem recomputeView_handles (hc : c ∈ supplied) (ha : a ∈ c.atoms)
    (hselected : a.atomId ∈ (recomputeView order ranked).selectedAtomIds) {ref : String}
    (href : ref ∈ a.evidenceRefs) : ref ∈ (recomputeView order ranked).evidenceHandles :=
  mem_evidenceHandlesOf.mpr
    ⟨a, (mem_recomputeView_selectedAtoms hagree hranked).mpr ⟨⟨c, hc, ha⟩, hselected⟩, href⟩

/-- The recomputed cost is that of the supplied atoms whose identifiers are selected. -/
theorem recomputeView_selectedCost :
    (recomputeView order ranked).selectedCost =
      ∑ a ∈ (heldAtoms supplied).filter
        (·.atomId ∈ (recomputeView order ranked).selectedAtomIds), a.tokenCost := by
  have hset : (heldAtoms supplied).filter
      (·.atomId ∈ (recomputeView order ranked).selectedAtomIds) =
        (recomputeView order ranked).selectedAtoms.toFinset := by
    ext a
    rw [Finset.mem_filter, mem_heldAtoms, List.mem_toFinset,
      mem_recomputeView_selectedAtoms hagree hranked]
  have hnodup : (recomputeView order ranked).selectedAtoms.Nodup :=
    selectedAtoms_nodup atomIndex_nodup
  rw [hset, List.sum_toFinset _ hnodup]
  rfl

end ContractCapsule.Formal
