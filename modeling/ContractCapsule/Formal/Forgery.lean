import ContractCapsule.Formal.Obligations
import ContractCapsule.Formal.Recheck

/-!
# Forged Views

`validate_view` against a view that nobody compiled. A valid report binds every
recorded field to what the ranked capsules give, and so vouches for the obligations
of those. Which capsules are ranked is read from the view itself: an eligible capsule
that the view leaves out is not missed, whatever its obligations.
-/

namespace ContractCapsule.Formal

open Library

variable {τ κ ν : Type} [DecidableEq κ] {fp : Fingerprints τ κ ν} {order : SetOrder}
  {view : CompiledView τ κ} {supplied : List Capsule} {task : TaskContext}
  {principal : Principal} {c : Capsule} {a : Atom}

/-! ## Section 1: What is guaranteed, and when -/

/-- What a valid report is to guarantee of a view. -/
structure ViewSound (order : SetOrder) (view : CompiledView τ κ) (supplied : List Capsule)
    (task : TaskContext) (principal : Principal) : Prop where
  obligations : ∀ c ∈ supplied, Eligible order task principal c → ObligationsMet view c
  evidence : EvidencePreserved view supplied
  budget : ∑ a ∈ selectedFrom view supplied, a.tokenCost ≤ view.budgetTokens

/-- A capsule the view leaves out asks for nothing more: a ranked capsule holds each of its P0
atoms, and the selection respects its edges. -/
structure Spared (view : CompiledView τ κ) (supplied : List Capsule) (c : Capsule) : Prop where
  p0 : ∀ a ∈ c.atoms, a.isP0 = true →
    ∃ d ∈ supplied, d.reference ∈ view.rankedCapsules ∧ a ∈ d.atoms
  closed : ∀ edge ∈ c.dependencyGraph.requires,
    edge.1 ∈ view.selectedAtomIds → edge.2 ∈ view.selectedAtomIds
  conflictFree : ∀ edge ∈ c.dependencyGraph.conflicts,
    ¬ (edge.1 ∈ view.selectedAtomIds ∧ edge.2 ∈ view.selectedAtomIds)

/-! ## Section 2: What a valid report binds -/

omit [DecidableEq κ] in
/-- The capsules a view is checked against: those supplied whose references it ranks. -/
theorem mem_resolveRankedCapsules (hrefs : (supplied.map Capsule.reference).Nodup) :
    c ∈ (resolveRankedCapsules view supplied).1 ↔
      c ∈ supplied ∧ c.reference ∈ view.rankedCapsules := by
  simp only [resolveRankedCapsules, mem_rank, List.mem_filterMap, lookup_index hrefs]
  constructor
  · rintro ⟨_, href, hc, rfl⟩
    exact ⟨hc, href⟩
  · rintro ⟨hc, href⟩
    exact ⟨c.reference, href, hc, rfl⟩

theorem Accepted.bound {recomputed : RecomputedView}
    (h : Accepted fp order view supplied principal recomputed) : Bound view recomputed := by
  have hconsistent := h.consistent
  simp only [viewMetadataIsConsistent, decide_eq_true_eq] at hconsistent
  obtain ⟨_, _, _, _, hselected, hexact, hhandles, _⟩ := hconsistent
  exact ⟨hselected, hexact, hhandles⟩

section Accepted

variable (hrefs : (supplied.map Capsule.reference).Nodup)

include hrefs

omit [DecidableEq κ] in
theorem resolveRankedCapsules_supplied :
    ∀ c ∈ (resolveRankedCapsules view supplied).1, c ∈ supplied :=
  fun _ hc => ((mem_resolveRankedCapsules hrefs).mp hc).1

variable (h : Accepted fp order view supplied principal
  (recomputeView order (resolveRankedCapsules view supplied).1))

include h

/-- The obligations of a ranked capsule are met. -/
theorem Accepted.obligationsMet (hc : c ∈ supplied) (hranked : c.reference ∈ view.rankedCapsules) :
    ObligationsMet view c :=
  h.bound.obligationsMet (crossCapsuleIdentityBlockers_atomsAgree h.identities)
    (resolveRankedCapsules_supplied hrefs) h.missing h.conflicts
    ((mem_resolveRankedCapsules hrefs).mpr ⟨hc, hranked⟩)

theorem Accepted.evidencePreserved : EvidencePreserved view supplied := by
  intro c hc a ha hid ref href
  have hhandle := h.bound.handles_mem (crossCapsuleIdentityBlockers_atomsAgree h.identities)
    (resolveRankedCapsules_supplied hrefs) hc ha hid href
  exact ⟨⟨c, hc, (h.capsules c hc).1.evidenceRefs a ha href⟩, hhandle⟩

theorem Accepted.withinBudget :
    ∑ a ∈ selectedFrom view supplied, a.tokenCost ≤ view.budgetTokens := by
  rw [h.bound.cost (crossCapsuleIdentityBlockers_atomsAgree h.identities)
    (resolveRankedCapsules_supplied hrefs)]
  exact h.budget

/-- A selected atom is an atom of a ranked capsule. -/
theorem Accepted.selected_ranked (hc : c ∈ supplied) (ha : a ∈ c.atoms)
    (hid : a.atomId ∈ view.selectedAtomIds) :
    ∃ d ∈ supplied, d.reference ∈ view.rankedCapsules ∧ a ∈ d.atoms := by
  rw [h.bound.selected] at hid
  obtain ⟨d, hd, b, hb, hsame⟩ := recomputeView_known hid
  obtain ⟨hdsupplied, hdranked⟩ := (mem_resolveRankedCapsules hrefs).mp hd
  have hab := crossCapsuleIdentityBlockers_atomsAgree h.identities c hc a ha d hdsupplied b hb
    hsame.symm
  exact ⟨d, hdsupplied, hdranked, hab ▸ hb⟩

end Accepted

/-! ## Section 3: When a valid report can be relied on -/

/-- **Forged views**: a valid report guarantees what it is to guarantee exactly when every
eligible capsule that the view leaves out is spared. -/
theorem validateView_sound_iff (hrefs : (supplied.map Capsule.reference).Nodup)
    (hvalid : (validateView fp order view supplied principal).valid = true) :
    ViewSound order view supplied task principal ↔
      ∀ c ∈ supplied, Eligible order task principal c → c.reference ∉ view.rankedCapsules →
        Spared view supplied c := by
  have h := validateView_valid.mp hvalid
  constructor
  · intro hsound c hc heligible _
    obtain ⟨hp0, hclosed, hconflictFree⟩ := hsound.obligations c hc heligible
    exact ⟨fun a ha hexact => h.selected_ranked hrefs hc ha (hp0 a ha hexact).1, hclosed,
      hconflictFree⟩
  · intro hspared
    refine ⟨fun c hc heligible => ?_, h.evidencePreserved hrefs, h.withinBudget hrefs⟩
    by_cases hranked : c.reference ∈ view.rankedCapsules
    · exact h.obligationsMet hrefs hc hranked
    · obtain ⟨hp0, hclosed, hconflictFree⟩ := hspared c hc heligible hranked
      refine ⟨fun a ha hexact => ?_, hclosed, hconflictFree⟩
      -- the atom is one of a ranked capsule, whose obligations are met
      obtain ⟨d, hd, hdranked, had⟩ := hp0 a ha hexact
      exact (h.obligationsMet hrefs hd hdranked).p0 a had hexact

/-- The compiled view of one exact capsule. -/
def exactView : CompiledView TaskContext Capsule :=
  compileView selfFingerprints .sorted exactCapsules sampleTask ⟨"agent"⟩ ⟨10⟩ "adapter"

theorem validateView_sound_exact :
    ViewSound .sorted exactView exactCapsules sampleTask ⟨"agent"⟩ := by
  have hvalid : (validateView selfFingerprints .sorted exactView exactCapsules ⟨"agent"⟩).valid =
      true := by decide +kernel
  have hranked : ∀ c ∈ exactCapsules, c.reference ∈ exactView.rankedCapsules := by decide +kernel
  exact (validateView_sound_iff (by decide) hvalid).mpr fun c hc _ hout =>
    absurd (hranked c hc) hout

/-! ## Section 4: A view that leaves a P0 atom out -/

def ruleAtom : Atom :=
  { atomId := "A2", statement := "Never push to main.", compressionClass := "P0_EXACT"
    tokenCost := 4, relevance := 0, evidenceRefs := {"E1"} }

/-- Two eligible capsules, the second with a P0 atom. -/
def ruledCapsules : List Capsule :=
  [sampleCapsule "C" sampleAtom true, sampleCapsule "D" ruleAtom true]

/-- The view of the first capsule, presented as one of both. -/
def forgedView : CompiledView TaskContext Capsule :=
  { exactView with
    capsuleRefs := ruledCapsules.map Capsule.reference
    capsuleFingerprints := fingerprintsOf selfFingerprints ruledCapsules
    eligibilityChecked := ruledCapsules.map Capsule.reference }

/-- The forged view is reported valid, and the P0 atom of an eligible capsule is not selected. -/
theorem validateView_unsound_forged :
    (ruledCapsules.map Capsule.reference).Nodup ∧
      forgedView.taskFingerprint = selfFingerprints.task sampleTask ∧
      (validateView selfFingerprints .sorted forgedView ruledCapsules ⟨"agent"⟩).valid = true ∧
      ¬ ViewSound .sorted forgedView ruledCapsules sampleTask ⟨"agent"⟩ := by
  have heligible : Eligible .sorted sampleTask ⟨"agent"⟩ (sampleCapsule "D" ruleAtom true) := by
    decide +kernel
  have homitted : ruleAtom.atomId ∉ forgedView.selectedAtomIds := by decide +kernel
  refine ⟨by decide, rfl, by decide +kernel, fun hsound => homitted ?_⟩
  exact ((hsound.obligations _ (by simp [ruledCapsules]) heligible).p0 ruleAtom
    (by simp [sampleCapsule]) (by decide)).1

end ContractCapsule.Formal
