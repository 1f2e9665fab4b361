import ContractCapsule.Formal.Validate

/-!
# Obligations of a View

What Definitions 4 to 6 ask of a view on behalf of a capsule: its P0 atoms are
selected and exact, and the selection respects its dependency and conflict edges.
A view whose selection is the recomputed one meets the obligations of every capsule
it was recomputed from.
-/

namespace ContractCapsule.Formal

variable {τ κ : Type}

/-! ## Section 1: Obligations -/

/-- A view meets the obligations of a capsule. -/
structure ObligationsMet (view : CompiledView τ κ) (c : Capsule) : Prop where
  p0 : ∀ a ∈ c.atoms, a.isP0 = true →
    a.atomId ∈ view.selectedAtomIds ∧ a.atomId ∈ view.exactAtomIds
  closed : ∀ edge ∈ c.dependencyGraph.requires,
    edge.1 ∈ view.selectedAtomIds → edge.2 ∈ view.selectedAtomIds
  conflictFree : ∀ edge ∈ c.dependencyGraph.conflicts,
    ¬ (edge.1 ∈ view.selectedAtomIds ∧ edge.2 ∈ view.selectedAtomIds)

/-- The evidence references of the selected atoms resolve and are among the handles. -/
def EvidencePreserved (view : CompiledView τ κ) (supplied : List Capsule) : Prop :=
  ∀ c ∈ supplied, ∀ a ∈ c.atoms, a.atomId ∈ view.selectedAtomIds → ∀ ref ∈ a.evidenceRefs,
    (∃ d ∈ supplied, ref ∈ d.evidenceIds) ∧ ref ∈ view.evidenceHandles

/-- The supplied atoms whose identifiers a view selects. -/
def selectedFrom (view : CompiledView τ κ) (supplied : List Capsule) : Finset Atom :=
  (heldAtoms supplied).filter (·.atomId ∈ view.selectedAtomIds)

/-! ## Section 2: Bound selections -/

/-- The recorded selection is the recomputed one. -/
structure Bound (view : CompiledView τ κ) (recomputed : RecomputedView) : Prop where
  selected : view.selectedAtomIds = recomputed.selectedAtomIds
  exact : view.exactAtomIds = recomputed.exactAtomIds
  handles : view.evidenceHandles = recomputed.evidenceHandles

variable {order : SetOrder} {view : CompiledView τ κ} {ranked supplied : List Capsule}
  {c : Capsule} {a : Atom}

section Bound

variable (h : Bound view (recomputeView order ranked)) (hagree : AtomsAgree supplied)
  (hranked : ∀ c ∈ ranked, c ∈ supplied)

include h hagree hranked

theorem Bound.obligationsMet (hmissing : (recomputeView order ranked).missingDependencies = ∅)
    (hconflicts : (recomputeView order ranked).conflicts = ∅) (hc : c ∈ ranked) :
    ObligationsMet view c := by
  refine ⟨fun a ha hp0 => ⟨?_, ?_⟩, fun edge hedge => ?_, fun edge hedge => ?_⟩
  · rw [h.selected]
    exact recomputeView_p0 hc ha hp0
  · rw [h.exact]
    exact recomputeView_exact hagree hranked hc ha hp0
  · rw [h.selected]
    exact recomputeView_closed hmissing hc hedge
  · rw [h.selected]
    exact recomputeView_conflictFree hconflicts hc hedge

theorem Bound.handles_mem (hc : c ∈ supplied) (ha : a ∈ c.atoms)
    (hid : a.atomId ∈ view.selectedAtomIds) {ref : String} (href : ref ∈ a.evidenceRefs) :
    ref ∈ view.evidenceHandles := by
  rw [h.selected] at hid
  rw [h.handles]
  exact recomputeView_handles hagree hranked hc ha hid href

theorem Bound.cost :
    ∑ a ∈ selectedFrom view supplied, a.tokenCost = (recomputeView order ranked).selectedCost := by
  rw [selectedFrom, h.selected, ← recomputeView_selectedCost hagree hranked]

end Bound

end ContractCapsule.Formal
