import ContractCapsule.Formal.Eligibility

/-!
# Replacement and Activation

`can_replace` decides whether a capsule may stand in for another one, and `activate`
whether a candidate, made of two capsules, a view and the two reports, becomes active.
Neither recomputes what the other objects report; `activate` compares the identities
that the objects carry.
-/

namespace ContractCapsule.Formal

variable {τ κ ν : Type}

/-! ## Section 1: Replacement -/

/-- `interface_compatible` -/
def interfaceCompatible (old new : Capsule) (task : TaskContext) : Bool :=
  old.manifest.provides ⊆ new.replacementContract.acceptsInterfaces ∧
    task.requiredInterfaces ⊆ new.manifest.provides

/-- `external_action_controlled` -/
def externalActionControlled (task : TaskContext) : Bool :=
  task.preflightCompleted || task.approvalGranted || task.compensationAvailable

/-- `can_replace` -/
def canReplace (fp : Fingerprints τ κ ν) (order : SetOrder) (old new : Capsule)
    (task : TaskContext) : ReplacementDecision τ κ :=
  let contract := new.replacementContract
  let unique := uniqueBlockers <|
    wellFormedness order old ++ wellFormedness order new ++
    blockIf (contract.replaces ≠ some old.reference) .incompatibleReplacementTarget ++
    blockIf (¬ interfaceCompatible old new task) .incompatibleInterface ++
    blockIf (¬ contract.targetEffectsPassed) .targetEffectFailed ++
    blockIf (¬ contract.protectedInvariantsPassed) .protectedInvariantFailed ++
    blockIf contract.forbiddenSpilloverDetected .forbiddenSpillover ++
    blockIf (task.irreversibleExternalAction ∧ ¬ externalActionControlled task)
      .irreversibleSideEffectUncontrolled
  { oldCapsule := old.reference
    newCapsule := new.reference
    oldFingerprint := fp.capsule old
    newFingerprint := fp.capsule new
    taskId := task.taskId
    taskFingerprint := fp.task task
    allowed := unique = []
    targetEffectRealized := contract.targetEffectsPassed
    protectedInvariantsPreserved := contract.protectedInvariantsPassed
    forbiddenSpilloverDetected := contract.forbiddenSpilloverDetected
    interfaceCompatible := interfaceCompatible old new task
    blockers := unique }

/-- Nothing that `can_replace` checks is wrong. -/
structure Replaceable (old new : Capsule) (task : TaskContext) : Prop where
  oldWellFormed : WellFormed old
  newWellFormed : WellFormed new
  replaces : new.replacementContract.replaces = some old.reference
  accepts : old.manifest.provides ⊆ new.replacementContract.acceptsInterfaces
  provides : task.requiredInterfaces ⊆ new.manifest.provides
  targetEffects : new.replacementContract.targetEffectsPassed = true
  protectedInvariants : new.replacementContract.protectedInvariantsPassed = true
  spillover : new.replacementContract.forbiddenSpilloverDetected = false
  external : task.irreversibleExternalAction = true → task.preflightCompleted = true ∨
    task.approvalGranted = true ∨ task.compensationAvailable = true

theorem canReplace_blockers_eq_nil {fp : Fingerprints τ κ ν} {order : SetOrder}
    {old new : Capsule} {task : TaskContext} :
    (canReplace fp order old new task).blockers = [] ↔ Replaceable old new task := by
  simp only [canReplace]
  rw [uniqueBlockers_eq_nil_iff (by simp)]
  simp only [List.append_eq_nil_iff, blockIf_eq_nil, not_not, wellFormedness_eq_nil,
    interfaceCompatible, externalActionControlled, decide_eq_true_eq, Bool.or_eq_true, or_assoc,
    ne_eq]
  constructor
  · rintro ⟨⟨⟨⟨⟨⟨⟨hold, hnew⟩, hreplaces⟩, haccepts, hprovides⟩, htarget⟩, hprotected⟩,
      hspillover⟩, hexternal⟩
    exact ⟨hold, hnew, hreplaces, haccepts, hprovides, htarget, hprotected,
      eq_false_of_ne_true hspillover, fun h => by_contra fun hout => hexternal ⟨h, hout⟩⟩
  · rintro ⟨hold, hnew, hreplaces, haccepts, hprovides, htarget, hprotected, hspillover,
      hexternal⟩
    exact ⟨⟨⟨⟨⟨⟨⟨hold, hnew⟩, hreplaces⟩, haccepts, hprovides⟩, htarget⟩, hprotected⟩,
      ne_true_of_eq_false hspillover⟩, fun ⟨h, hout⟩ => hout (hexternal h)⟩

theorem none_notMem_canReplace {fp : Fingerprints τ κ ν} {order : SetOrder} {old new : Capsule}
    {task : TaskContext} : .none ∉ (canReplace fp order old new task).blockers := by
  simp [canReplace]

/-! ## Section 2: Activation -/

/-- `activate` -/
def activate [DecidableEq τ] [DecidableEq κ] [DecidableEq ν] (fp : Fingerprints τ κ ν)
    (candidate : ActivationCandidate τ κ ν) (boundary : SafeBoundary) : ActivationReceipt :=
  let old := candidate.old
  let new := candidate.new
  let view := candidate.view
  let validation := candidate.validation
  let replacement := candidate.replacement
  let boundaryBlockers := blockIf (¬ boundary.beforeNextAction) .unsafeActivationBoundary
  let candidateBlockers := blockIf ((new.reference, fp.capsule new) ∉ view.capsuleFingerprints ∨
    replacement.oldCapsule ≠ old.reference ∨ replacement.newCapsule ≠ new.reference ∨
    replacement.oldFingerprint ≠ fp.capsule old ∨
    replacement.newFingerprint ≠ fp.capsule new) .candidateMismatch
  let taskBlockers := blockIf (replacement.taskId ≠ view.taskId ∨
    replacement.taskFingerprint ≠ view.taskFingerprint) .taskMismatch
  let validationBlockers := blockIf (validation.viewFingerprint ≠ fp.view view ∨
    validation.capsuleFingerprints ≠ view.capsuleFingerprints ∨
    validation.principalId ≠ view.principalId ∨
    validation.valid ≠ decide (validation.blockers = []) ∨
    replacement.allowed ≠ decide (replacement.blockers = [])) .validationMismatch
  let blockers := uniqueBlockers <|
    boundaryBlockers ++ candidateBlockers ++ taskBlockers ++ validationBlockers ++
    view.blockers ++ validation.blockers ++ replacement.blockers
  { activated := blockers = []
    previousCapsule := old.reference
    activeCapsule := if blockers = [] then new.reference else old.reference
    blockers := blockers }

/-- Nothing that `activate` checks is wrong: each object is bound to the others, and none
reports a blocker. -/
structure Activatable (fp : Fingerprints τ κ ν) (candidate : ActivationCandidate τ κ ν)
    (boundary : SafeBoundary) : Prop where
  boundary : boundary.beforeNextAction = true
  supplied : (candidate.new.reference, fp.capsule candidate.new) ∈
    candidate.view.capsuleFingerprints
  old : candidate.replacement.oldFingerprint = fp.capsule candidate.old
  new : candidate.replacement.newFingerprint = fp.capsule candidate.new
  task : candidate.replacement.taskFingerprint = candidate.view.taskFingerprint
  view : candidate.validation.viewFingerprint = fp.view candidate.view
  capsules : candidate.validation.capsuleFingerprints = candidate.view.capsuleFingerprints
  principal : candidate.validation.principalId = candidate.view.principalId
  viewBlockers : ∀ b ∈ candidate.view.blockers, b = .none
  validationBlockers : ∀ b ∈ candidate.validation.blockers, b = .none
  replacementBlockers : ∀ b ∈ candidate.replacement.blockers, b = .none

theorem activate_activated [DecidableEq τ] [DecidableEq κ] [DecidableEq ν]
    {fp : Fingerprints τ κ ν} {candidate : ActivationCandidate τ κ ν} {boundary : SafeBoundary}
    (h : (activate fp candidate boundary).activated = true) :
    Activatable fp candidate boundary := by
  simp only [activate, decide_eq_true_eq, uniqueBlockers_eq_nil, List.forall_mem_append] at h
  obtain ⟨⟨⟨⟨⟨⟨hboundary, hcandidate⟩, htask⟩, hvalidation⟩, hview⟩, hreport⟩, hdecision⟩ := h
  have hpassed : ∀ {p : Prop} [Decidable p] {blocker : BlockerCode}, blocker ≠ .none →
      (∀ b ∈ blockIf p blocker, b = .none) → ¬ p := by
    intro p _ blocker hne hall hp
    exact hne (hall blocker (mem_blockIf.mpr ⟨hp, rfl⟩))
  have hboundary := hpassed (by simp) hboundary
  have hcandidate := hpassed (by simp) hcandidate
  have htask := hpassed (by simp) htask
  have hvalidation := hpassed (by simp) hvalidation
  simp only [not_or, not_not] at hboundary hcandidate htask hvalidation
  obtain ⟨hsupplied, _, _, hold, hnew⟩ := hcandidate
  obtain ⟨hviewBound, hcapsules, hprincipal, _, _⟩ := hvalidation
  exact ⟨hboundary, hsupplied, hold, hnew, htask.2, hviewBound, hcapsules, hprincipal, hview,
    hreport, hdecision⟩

end ContractCapsule.Formal
