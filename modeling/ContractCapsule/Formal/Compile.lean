import ContractCapsule.Formal.Selection

/-!
# Compiling a View

`compile_view`: eligibility, ranking, selection with mandatory closure, and the
blockers each of them gives rise to.
-/

namespace ContractCapsule.Formal

variable {τ κ ν : Type} [DecidableEq κ]

/-! ## Section 1: The compiler -/

/-- The capsules that may be ranked: the eligible ones, none under an identity conflict. -/
def eligibleCapsules (fp : Fingerprints τ κ ν) (order : SetOrder) (supplied : List Capsule)
    (task : TaskContext) (principal : Principal) : List Capsule :=
  if crossCapsuleIdentityBlockers fp order supplied = [] then
    supplied.filter fun c => Eligible order task principal c
  else []

/-- The phases a view records when these capsules pass eligibility. -/
def phasesOf (eligible : List Capsule) : List String :=
  "eligibility" :: if eligible = [] then [] else ["ranking"]

def fingerprintsOf (fp : Fingerprints τ κ ν) (supplied : List Capsule) : List (String × κ) :=
  supplied.map fun c => (c.reference, fp.capsule c)

/-- `compile_view` -/
def compileView (fp : Fingerprints τ κ ν) (order : SetOrder) (supplied : List Capsule)
    (task : TaskContext) (principal : Principal) (budget : Budget) (adapter : String) :
    CompiledView τ κ :=
  let globalBlockers := crossCapsuleIdentityBlockers fp order supplied
  let capsuleBlockers := supplied.flatMap fun c =>
    wellFormedness order c ++ eligibilityBlockers c task principal
  let eligible := eligibleCapsules fp order supplied task principal
  let ranked := rank eligible
  let atomById := atomIndex order ranked
  let requires := requiresEdges ranked
  let closure := dependencyClosure (seedIds ranked) atomById requires
  let selected := closure.1
  let missing := closure.2
  let conflicts := conflictsWithin selected (declaredConflicts ranked)
  let atoms := selectedAtoms atomById selected
  let p0Ids := p0AtomIds atomById
  let p0Cost := cost (atomById.filter Atom.isP0)
  { capsuleRefs := supplied.map Capsule.reference
    capsuleFingerprints := fingerprintsOf fp supplied
    taskId := task.taskId
    taskFingerprint := fp.task task
    principalId := principal.principalId
    adapter := adapter
    budgetTokens := budget.tokens
    content := contentOf atoms
    selectedAtomIds := selected
    exactAtomIds := p0AtomIds atoms
    evidenceHandles := evidenceHandlesOf atoms
    eligibilityChecked := supplied.map Capsule.reference
    rankedCapsules := ranked.map Capsule.reference
    auditPhases := phasesOf eligible
    missingDependencies := missing
    conflicts := conflicts
    dependencyClosed := isDependencyClosed missing selected requires
    p0Preserved := p0Ids ⊆ p0AtomIds atoms ∧ policiesAreExact ranked
    blockers := uniqueBlockers <|
      globalBlockers ++ capsuleBlockers ++
      blockIf (missing ≠ ∅) .missingMandatoryDependency ++
      blockIf (conflicts ≠ ∅) .unresolvedConflict ++
      blockIf (¬ policiesAreExact ranked ∧ p0Ids ≠ ∅) .p0NotExact ++
      blockIf (budget.tokens < p0Cost) .p0BudgetOverflow ++
      blockIf (budget.tokens < cost atoms ∧ p0Cost ≤ budget.tokens)
        .mandatoryClosureBudgetOverflow }

/-! ## Section 2: Eligible capsules -/

variable {fp : Fingerprints τ κ ν} {order : SetOrder} {supplied : List Capsule}
  {task : TaskContext} {principal : Principal} {budget : Budget} {adapter : String} {c : Capsule}

@[simp] theorem mem_eligibleCapsules :
    c ∈ eligibleCapsules fp order supplied task principal ↔
      crossCapsuleIdentityBlockers fp order supplied = [] ∧ c ∈ supplied ∧
        Eligible order task principal c := by
  unfold eligibleCapsules
  split_ifs <;> simp [*]

theorem eligibleCapsules_sublist :
    (eligibleCapsules fp order supplied task principal).Sublist supplied := by
  unfold eligibleCapsules
  split_ifs
  · exact List.filter_sublist
  · exact List.nil_sublist _

/-! ## Section 3: Unblocked views -/

/-- Nothing that `compile_view` checks is wrong; `ranked` are the ranked capsules. -/
structure Unblocked (fp : Fingerprints τ κ ν) (order : SetOrder) (supplied : List Capsule)
    (task : TaskContext) (principal : Principal) (view : CompiledView τ κ)
    (ranked : List Capsule) : Prop where
  identities : crossCapsuleIdentityBlockers fp order supplied = []
  eligible : ∀ c ∈ supplied, Eligible order task principal c
  missing : view.missingDependencies = ∅
  conflicts : view.conflicts = ∅
  p0Exact : policiesAreExact ranked = true ∨ p0AtomIds (atomIndex order ranked) = ∅
  p0Budget : cost ((atomIndex order ranked).filter Atom.isP0) ≤ view.budgetTokens
  budget : cost (selectedAtoms (atomIndex order ranked) view.selectedAtomIds) ≤ view.budgetTokens

theorem none_notMem_compileView :
    .none ∉ (compileView fp order supplied task principal budget adapter).blockers := by
  simp [compileView]

theorem compileView_blockers_eq_nil :
    let view := compileView fp order supplied task principal budget adapter
    view.blockers = [] ↔ Unblocked fp order supplied task principal view
      (rank (eligibleCapsules fp order supplied task principal)) := by
  intro view
  have hnone : ∀ c ∈ supplied,
      .none ∉ wellFormedness order c ++ eligibilityBlockers c task principal := by simp
  simp only [view, compileView]
  rw [uniqueBlockers_eq_nil_iff (by simp)]
  simp only [List.append_eq_nil_iff, List.flatMap_eq_nil_iff, blockIf_eq_nil, not_not, not_and_or,
    not_lt]
  constructor
  · rintro ⟨⟨⟨⟨⟨⟨hidentities, heligible⟩, hmissing⟩, hconflicts⟩, hexact⟩, hp0⟩, hbudget⟩
    exact ⟨hidentities, heligible, hmissing, hconflicts, hexact, hp0,
      hbudget.resolve_right fun h => h hp0⟩
  · rintro ⟨hidentities, heligible, hmissing, hconflicts, hexact, hp0, hbudget⟩
    exact ⟨⟨⟨⟨⟨⟨hidentities, heligible⟩, hmissing⟩, hconflicts⟩, hexact⟩, hp0⟩, .inl hbudget⟩

/-- Every capsule supplied to an unblocked view is ranked. -/
theorem Unblocked.eligibleCapsules_eq {view : CompiledView τ κ} {ranked : List Capsule}
    (h : Unblocked fp order supplied task principal view ranked) :
    eligibleCapsules fp order supplied task principal = supplied := by
  rw [eligibleCapsules, if_pos h.identities, List.filter_eq_self]
  exact fun c hc => decide_eq_true (h.eligible c hc)

end ContractCapsule.Formal
