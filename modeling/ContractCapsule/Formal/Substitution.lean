import ContractCapsule.Formal.Forgery
import ContractCapsule.Formal.Replace

/-!
# No Report Substitution

The five objects of a candidate may come from unrelated calls. Fingerprints bind them:
when `activate` accepts, the validation is of this view and of the capsules it was
compiled from, and the decision is about this pair and this task. What each of them
checked then holds of the candidate.
-/

namespace ContractCapsule.Formal

variable {τ κ ν : Type} [DecidableEq κ] {fp : Fingerprints τ κ ν} {order : SetOrder}
  {supplied : List Capsule} {task : TaskContext} {principal : Principal} {budget : Budget}
  {adapter : String}

/-! ## Section 1: Unblocked views meet every obligation -/

theorem compileView_bound :
    Bound (compileView fp order supplied task principal budget adapter)
      (recomputeView order (rank (eligibleCapsules fp order supplied task principal))) :=
  ⟨rfl, rfl, rfl⟩

section Unblocked

variable (h : Unblocked fp order supplied task principal
  (compileView fp order supplied task principal budget adapter)
  (rank (eligibleCapsules fp order supplied task principal)))

include h

theorem Unblocked.mem_ranked {c : Capsule} :
    c ∈ rank (eligibleCapsules fp order supplied task principal) ↔ c ∈ supplied := by
  rw [mem_rank, h.eligibleCapsules_eq]

theorem Unblocked.obligationsMet {c : Capsule} (hc : c ∈ supplied) :
    ObligationsMet (compileView fp order supplied task principal budget adapter) c :=
  compileView_bound.obligationsMet (crossCapsuleIdentityBlockers_atomsAgree h.identities)
    (fun _ => h.mem_ranked.mp) h.missing h.conflicts (h.mem_ranked.mpr hc)

theorem Unblocked.evidencePreserved :
    EvidencePreserved (compileView fp order supplied task principal budget adapter) supplied := by
  intro c hc a ha hid ref href
  have hwf := wellFormedness_eq_nil.mp (h.eligible c hc).1
  have hhandle := compileView_bound.handles_mem
    (crossCapsuleIdentityBlockers_atomsAgree h.identities) (fun _ => h.mem_ranked.mp) hc ha hid href
  exact ⟨⟨c, hc, hwf.evidenceRefs a ha href⟩, hhandle⟩

theorem Unblocked.withinBudget :
    ∑ a ∈ selectedFrom (compileView fp order supplied task principal budget adapter) supplied,
      a.tokenCost ≤ budget.tokens := by
  rw [compileView_bound.cost (crossCapsuleIdentityBlockers_atomsAgree h.identities)
    fun _ => h.mem_ranked.mp]
  exact h.budget

end Unblocked

/-! ## Section 2: Bound candidates -/

/-- Definition 9 for a candidate: the pair is replaceable, the new capsule passes the task's
gates, and the view meets the obligations of all capsules it was compiled from. -/
structure ReplacementCorrect (old new : Capsule) (supplied : List Capsule) (task : TaskContext)
    (principal : Principal) (view : CompiledView τ κ) : Prop where
  replaceable : Replaceable old new task
  admits : Admits task principal new
  obligations : ∀ c ∈ supplied, ObligationsMet view c
  evidence : EvidencePreserved view supplied
  budget : ∑ a ∈ selectedFrom view supplied, a.tokenCost ≤ view.budgetTokens

omit [DecidableEq κ] in
theorem fingerprintsOf_injective (hcapsule : Function.Injective fp.capsule) :
    Function.Injective (fingerprintsOf fp) :=
  List.map_injective_iff.mpr fun _ _ heq => hcapsule (Prod.ext_iff.mp heq).2

/-- **No report substitution**: an activated candidate is the one all reports are about, and the
replacement law holds of it. The sets may be iterated over in another order by each call. -/
theorem activate_no_substitution [DecidableEq τ] [DecidableEq ν]
    (htask : Function.Injective fp.task) (hcapsule : Function.Injective fp.capsule)
    (hview : Function.Injective fp.view) (order₁ order₂ order₃ : SetOrder)
    (K₁ K₂ : List Capsule) (T₁ T₃ : TaskContext) (P₁ P₂ : Principal) (B₁ : Budget) (A₁ : String)
    (v₂ : CompiledView τ κ) (O N O₃ N₃ : Capsule) (boundary : SafeBoundary)
    (hactivated : (activate fp
      { old := O, new := N
        view := compileView fp order₁ K₁ T₁ P₁ B₁ A₁
        validation := validateView fp order₂ v₂ K₂ P₂
        replacement := canReplace fp order₃ O₃ N₃ T₃ } boundary).activated = true) :
    let view := compileView fp order₁ K₁ T₁ P₁ B₁ A₁
    (v₂ = view ∧ K₂ = K₁ ∧ P₂ = P₁ ∧ O₃ = O ∧ N₃ = N ∧ T₃ = T₁) ∧ N ∈ K₁ ∧
      boundary.beforeNextAction = true ∧ ReplacementCorrect O N K₁ T₁ P₁ view := by
  intro view
  have hbound := activate_activated hactivated
  -- what each fingerprint identifies
  have hO : O₃ = O := hcapsule hbound.old
  have hN : N₃ = N := hcapsule hbound.new
  have hT : T₃ = T₁ := htask hbound.task
  have hv : v₂ = view := hview hbound.view
  have hK : K₂ = K₁ := fingerprintsOf_injective hcapsule hbound.capsules
  have hP : P₂ = P₁ := by
    have hid : P₂.principalId = P₁.principalId := hbound.principal
    cases P₂
    cases P₁
    exact congrArg Principal.mk hid
  have hmem : N ∈ K₁ := by
    obtain ⟨c, hc, heq⟩ := List.mem_map.mp hbound.supplied
    have hcN : c = N := hcapsule (Prod.ext_iff.mp heq).2
    exact hcN ▸ hc
  -- what each object without blockers has checked
  have hunblocked := compileView_blockers_eq_nil.mp
    ((forall_eq_none_iff none_notMem_compileView).mp hbound.viewBlockers)
  have hreplaceable := canReplace_blockers_eq_nil.mp
    ((forall_eq_none_iff none_notMem_canReplace).mp hbound.replacementBlockers)
  have hadmits := eligibilityBlockers_eq_nil.mp (hunblocked.eligible N hmem).2
  refine ⟨⟨hv, hK, hP, hO, hN, hT⟩, hmem, hbound.boundary, ?_⟩
  exact ⟨hO ▸ hN ▸ hT ▸ hreplaceable, hadmits, fun c hc => hunblocked.obligationsMet hc,
    hunblocked.evidencePreserved, hunblocked.withinBudget⟩

/-! ## Section 3: A candidate that is activated -/

/-- The exact capsule's successor. -/
def successorCapsule : Capsule :=
  let capsule := sampleCapsule "D" ruleAtom true
  { capsule with
    replacementContract := { capsule.replacementContract with replaces := some "C@1" } }

theorem activate_no_substitution_successor :
    ReplacementCorrect (sampleCapsule "C" sampleAtom true) successorCapsule [successorCapsule]
      sampleTask ⟨"agent"⟩
      (compileView selfFingerprints .sorted [successorCapsule] sampleTask ⟨"agent"⟩ ⟨10⟩
        "adapter") :=
  (activate_no_substitution Function.injective_id Function.injective_id Function.injective_id
    .sorted .sorted .sorted [successorCapsule] [successorCapsule] sampleTask sampleTask ⟨"agent"⟩
    ⟨"agent"⟩ ⟨10⟩ "adapter"
    (compileView selfFingerprints .sorted [successorCapsule] sampleTask ⟨"agent"⟩ ⟨10⟩ "adapter")
    (sampleCapsule "C" sampleAtom true) successorCapsule (sampleCapsule "C" sampleAtom true)
    successorCapsule ⟨true⟩ (by decide +kernel)).2.2.2

end ContractCapsule.Formal
