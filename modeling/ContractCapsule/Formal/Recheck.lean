import ContractCapsule.Formal.Validate

/-!
# The Recheck of a Compiled View

`validate_view` applied to what `compile_view` made of the same capsules. It finds
the same capsules ranked and recomputes the same view, so that it repeats the
compiler's blockers. One test differs: the compiler reports a ranked policy that is
not exact only when a ranked capsule has a P0 atom, the validator always.
-/

namespace ContractCapsule.Formal

open Library

variable {τ κ ν : Type} [DecidableEq κ] {fp : Fingerprints τ κ ν} {order : SetOrder}
  {supplied : List Capsule} {task : TaskContext} {principal : Principal} {budget : Budget}
  {adapter : String}

/-! ## Section 1: The ranked capsules are found again -/

theorem lookup_reference (hrefs : (supplied.map Capsule.reference).Nodup) {c : Capsule}
    (hc : c ∈ supplied) :
    lookup Capsule.reference (index Capsule.reference supplied) c.reference = some c :=
  (lookup_index hrefs).mpr ⟨hc, rfl⟩

theorem filterMap_lookup_reference (hrefs : (supplied.map Capsule.reference).Nodup)
    {ranked : List Capsule} (hranked : ∀ c ∈ ranked, c ∈ supplied) :
    (ranked.map Capsule.reference).filterMap
      (lookup Capsule.reference (index Capsule.reference supplied)) = ranked := by
  rw [List.filterMap_map]
  calc ranked.filterMap (lookup Capsule.reference (index Capsule.reference supplied) ∘
          Capsule.reference)
      = ranked.filterMap some := List.filterMap_congr fun c hc => lookup_reference hrefs (hranked c hc)
    _ = ranked := List.filterMap_some

theorem phasesOf_rank (eligible : List Capsule) : phasesOf (rank eligible) = phasesOf eligible := by
  simp only [phasesOf, rank_eq_nil]

theorem resolveRankedCapsules_compileView (hrefs : (supplied.map Capsule.reference).Nodup) :
    resolveRankedCapsules (compileView fp order supplied task principal budget adapter) supplied =
      (rank (eligibleCapsules fp order supplied task principal), true) := by
  have hsupplied : ∀ c ∈ rank (eligibleCapsules fp order supplied task principal), c ∈ supplied :=
    fun c hc => (mem_eligibleCapsules.mp (mem_rank.mp hc)).2.1
  have hnodup : ((rank (eligibleCapsules fp order supplied task principal)).map
      Capsule.reference).Nodup :=
    ((rank_perm _).map _).nodup_iff.mpr ((eligibleCapsules_sublist.map _).nodup hrefs)
  have hfound := filterMap_lookup_reference hrefs hsupplied
  have hranked : (compileView fp order supplied task principal budget adapter).rankedCapsules =
      (rank (eligibleCapsules fp order supplied task principal)).map Capsule.reference := rfl
  have hphases : (compileView fp order supplied task principal budget adapter).auditPhases =
      phasesOf (eligibleCapsules fp order supplied task principal) := rfl
  -- a view that ranks nothing of a nonempty supply is blocked
  have hblocked : ¬ (supplied ≠ [] ∧ rank (eligibleCapsules fp order supplied task principal) = [] ∧
      (compileView fp order supplied task principal budget adapter).blockers = []) := by
    rintro ⟨hne, hnil, hunblocked⟩
    have heq := (compileView_blockers_eq_nil.mp hunblocked).eligibleCapsules_eq
    rw [heq] at hnil
    exact hne (rank_eq_nil.mp hnil)
  simp only [resolveRankedCapsules, hranked, hphases, hfound, rank_rank, phasesOf_rank,
    Prod.mk.injEq, true_and, decide_eq_true_eq]
  refine ⟨⟨hnodup, fun reference href => ?_⟩, hblocked⟩
  obtain ⟨c, hc, rfl⟩ := List.mem_map.mp href
  rw [lookup_reference hrefs (hsupplied c hc)]
  rfl

/-! ## Section 2: The blockers of both -/

/-- The recomputed view of a compiled one. -/
def recomputed (fp : Fingerprints τ κ ν) (order : SetOrder) (supplied : List Capsule)
    (task : TaskContext) (principal : Principal) : RecomputedView :=
  recomputeView order (rank (eligibleCapsules fp order supplied task principal))

theorem viewMetadataIsConsistent_compileView :
    viewMetadataIsConsistent (compileView fp order supplied task principal budget adapter) supplied
      (fingerprintsOf fp supplied) (recomputed fp order supplied task principal) true = true := by
  simp only [viewMetadataIsConsistent, decide_eq_true_eq, true_and]
  exact ⟨rfl, rfl, rfl, rfl, rfl, rfl, rfl, rfl, rfl, rfl, rfl⟩

/-- What the compiler reports, in terms of the recomputed view. -/
theorem mem_compileView_blockers {b : BlockerCode} :
    b ∈ (compileView fp order supplied task principal budget adapter).blockers ↔ b ≠ .none ∧
      (b ∈ crossCapsuleIdentityBlockers fp order supplied ∨
      (∃ c ∈ supplied, b ∈ wellFormedness order c ∨ b ∈ eligibilityBlockers c task principal) ∨
      ((recomputed fp order supplied task principal).missingDependencies ≠ ∅ ∧
        b = .missingMandatoryDependency) ∨
      ((recomputed fp order supplied task principal).conflicts ≠ ∅ ∧ b = .unresolvedConflict) ∨
      ((policiesAreExact (recomputed fp order supplied task principal).ranked = false ∧
        p0AtomIds (atomIndex order (recomputed fp order supplied task principal).ranked) ≠ ∅) ∧
        b = .p0NotExact) ∨
      (budget.tokens < (recomputed fp order supplied task principal).p0Cost ∧
        b = .p0BudgetOverflow) ∨
      ((budget.tokens < (recomputed fp order supplied task principal).selectedCost ∧
        (recomputed fp order supplied task principal).p0Cost ≤ budget.tokens) ∧
        b = .mandatoryClosureBudgetOverflow)) := by
  simp only [compileView, mem_uniqueBlockers, List.mem_append, List.mem_flatMap, mem_blockIf,
    or_assoc, Bool.not_eq_true]
  rfl

/-- What the validator reports of the capsules, the compiler reports of them. -/
theorem capsuleValidationBlockers_subset {b : BlockerCode}
    (h : b ∈ capsuleValidationBlockers fp order supplied principal) :
    b ∈ (compileView fp order supplied task principal budget adapter).blockers := by
  simp only [capsuleValidationBlockers, mem_uniqueBlockers, List.mem_append, List.mem_flatMap,
    mem_blockIf] at h
  refine mem_compileView_blockers.mpr ⟨h.1, ?_⟩
  rcases h.2 with hcross | ⟨c, hc, (hwf | ⟨hprincipal, rfl⟩) | ⟨hstale, rfl⟩⟩
  · exact .inl hcross
  · exact .inr (.inl ⟨c, hc, .inl hwf⟩)
  · exact .inr (.inl ⟨c, hc, .inr (by simp [eligibilityBlockers, hprincipal])⟩)
  · obtain ⟨e, he, hfresh⟩ := hstale
    refine .inr (.inl ⟨c, hc, .inr ?_⟩)
    simp only [eligibilityBlockers, mem_uniqueBlockers, List.mem_append, mem_blockIf]
    exact ⟨by simp, .inr ⟨⟨e, he, hfresh⟩, trivial⟩⟩

/-- What the validator reports of the recomputed view, the compiler reports too, apart from
inexact policies. -/
theorem recomputedValidationBlockers_subset {b : BlockerCode}
    (h : b ∈ recomputedValidationBlockers
      (compileView fp order supplied task principal budget adapter)
      (recomputed fp order supplied task principal)) :
    b ∈ (compileView fp order supplied task principal budget adapter).blockers ∨
      (b = .p0NotExact ∧
        policiesAreExact (recomputed fp order supplied task principal).ranked = false) := by
  -- three of the tests compare the recomputed view with what it was recomputed from, and always
  -- pass
  have hhandles : (recomputed fp order supplied task principal).evidenceHandles ⊆
      (recomputed fp order supplied task principal).evidenceIds :=
    recomputeView_handles_subset fun c hc a ha =>
      (wellFormedness_eq_nil.mp (mem_eligibleCapsules.mp (mem_rank.mp hc)).2.2.1).evidenceRefs a ha
  have hbudget : (compileView fp order supplied task principal budget adapter).budgetTokens =
      budget.tokens := rfl
  have hp0 : (recomputed fp order supplied task principal).p0Preserved =
      policiesAreExact (recomputed fp order supplied task principal).ranked :=
    recomputeView_p0Preserved
  have hclosed : (recomputed fp order supplied task principal).dependencyClosed = true ↔
      (recomputed fp order supplied task principal).missingDependencies = ∅ :=
    recomputeView_dependencyClosed
  simp only [recomputedValidationBlockers, List.mem_append, mem_blockIf, hhandles, hp0, hclosed,
    hbudget, not_true_eq_false, false_and, false_or, or_self, Bool.not_eq_true] at h
  rw [mem_compileView_blockers]
  -- each of the others is one that the compiler made of the same view
  rcases h with ((⟨hpolicy, rfl⟩ | ⟨hmissing, rfl⟩) | ⟨hconflicts, rfl⟩) | hcost
  · exact .inr ⟨rfl, hpolicy⟩
  · simp [hmissing]
  · simp [hconflicts]
  · left
    split_ifs at hcost with hover
    · obtain rfl := List.mem_singleton.mp hcost
      simp [hover]
    · obtain ⟨hselected, rfl⟩ := mem_blockIf.mp hcost
      simp [hselected, not_lt.mp hover]

/-- **The recheck**: the compiler's blockers, and `P0_NOT_EXACT` when a ranked policy is not
exact. -/
theorem mem_validateView_compileView (hrefs : (supplied.map Capsule.reference).Nodup)
    {b : BlockerCode} :
    b ∈ (validateView fp order (compileView fp order supplied task principal budget adapter)
        supplied principal).blockers ↔
      b ∈ (compileView fp order supplied task principal budget adapter).blockers ∨
        (b = .p0NotExact ∧
          policiesAreExact (recomputed fp order supplied task principal).ranked = false) := by
  -- the metadata and the principal are those of the compilation, so neither test can fail
  have hconsistent : viewMetadataIsConsistent
      (compileView fp order supplied task principal budget adapter) supplied
      (fingerprintsOf fp supplied) (recomputed fp order supplied task principal) true = true :=
    viewMetadataIsConsistent_compileView
  have hprincipal : (compileView fp order supplied task principal budget adapter).principalId =
      principal.principalId := rfl
  simp only [validateView, resolveRankedCapsules_compileView hrefs, mem_uniqueBlockers,
    List.mem_append, mem_blockIf]
  change b ≠ .none ∧ ((((_ ∨ _) ∨ _) ∨ ¬ viewMetadataIsConsistent _ _ _
    (recomputed fp order supplied task principal) true = true ∧ _) ∨
    b ∈ recomputedValidationBlockers _ (recomputed fp order supplied task principal)) ↔ _
  simp only [hconsistent, hprincipal, ne_eq, not_true_eq_false, false_and, or_false]
  constructor
  · rintro ⟨_, (hview | hcapsules) | hrecomputed⟩
    · exact .inl hview
    · exact .inl (capsuleValidationBlockers_subset hcapsules)
    · exact recomputedValidationBlockers_subset hrecomputed
  · rintro (hview | ⟨rfl, hpolicy⟩)
    · exact ⟨(mem_compileView_blockers.mp hview).1, .inl (.inl hview)⟩
    · have hp0 : (recomputed fp order supplied task principal).p0Preserved = false :=
        recomputeView_p0Preserved.trans hpolicy
      exact ⟨by simp, .inr (by simp [recomputedValidationBlockers, hp0])⟩

/-! ## Section 3: When the recheck agrees -/

/-- Ranked policies that are not exact are reported by the compiler too: there are none, or some
eligible capsule has a P0 atom, or some capsule has both, or identifiers clash. -/
def PoliciesReported (fp : Fingerprints τ κ ν) (order : SetOrder) (supplied : List Capsule)
    (task : TaskContext) (principal : Principal) : Prop :=
  (∀ c ∈ supplied, Eligible order task principal c → c.compressionPolicy.p0Exact = true) ∨
  (∃ c ∈ supplied, Eligible order task principal c ∧ ∃ a ∈ c.atoms, a.isP0 = true) ∨
  (∃ c ∈ supplied, (∃ a ∈ c.atoms, a.isP0 = true) ∧ c.compressionPolicy.p0Exact = false) ∨
  crossCapsuleIdentityBlockers fp order supplied ≠ []

theorem policiesAreExact_ranked :
    policiesAreExact (recomputed fp order supplied task principal).ranked = true ↔
      ∀ c ∈ eligibleCapsules fp order supplied task principal,
        c.compressionPolicy.p0Exact = true := by
  have hranked : (recomputed fp order supplied task principal).ranked =
      rank (eligibleCapsules fp order supplied task principal) := rfl
  simp only [policiesAreExact, hranked, List.all_eq_true, mem_rank]

theorem p0AtomIds_ranked_nonempty :
    p0AtomIds (atomIndex order (recomputed fp order supplied task principal).ranked) ≠ ∅ ↔
      ∃ c ∈ eligibleCapsules fp order supplied task principal, ∃ a ∈ c.atoms, a.isP0 = true := by
  rw [← Finset.nonempty_iff_ne_empty]
  constructor
  · rintro ⟨id, hid⟩
    obtain ⟨a, ha, hp0, _⟩ := mem_p0AtomIds.mp hid
    obtain ⟨c, hc, hac⟩ := mem_of_mem_atomIndex ha
    exact ⟨c, mem_rank.mp hc, a, hac, hp0⟩
  · rintro ⟨c, hc, a, ha, hp0⟩
    -- a capsule is eligible only where identifiers agree, and then the index holds all atoms
    have hagree : AtomsAgree (rank (eligibleCapsules fp order supplied task principal)) := by
      have hsupplied := crossCapsuleIdentityBlockers_atomsAgree (mem_eligibleCapsules.mp hc).1
      exact atomsAgree_ranked hsupplied fun d hd =>
        (mem_eligibleCapsules.mp (mem_rank.mp hd)).2.1
    exact ⟨a.atomId, mem_p0AtomIds.mpr
      ⟨a, (mem_atomIndex hagree).mpr ⟨c, mem_rank.mpr hc, ha⟩, hp0, rfl⟩⟩

/-- The compiler reports `P0_NOT_EXACT` for P0 atoms under inexact policies only. -/
theorem p0NotExact_mem_compileView :
    .p0NotExact ∈ (compileView fp order supplied task principal budget adapter).blockers ↔
      (∃ c ∈ supplied, (∃ a ∈ c.atoms, a.isP0 = true) ∧ c.compressionPolicy.p0Exact = false) ∨
      (policiesAreExact (recomputed fp order supplied task principal).ranked = false ∧
        ∃ c ∈ eligibleCapsules fp order supplied task principal,
          ∃ a ∈ c.atoms, a.isP0 = true) := by
  -- neither the clash of identities nor eligibility is about P0 atoms, so the blocker comes from
  -- the supplied capsules or from the ranked ones
  have hcross : .p0NotExact ∉ crossCapsuleIdentityBlockers fp order supplied := by
    unfold crossCapsuleIdentityBlockers
    split <;> simp
  have heligibility : ∀ c, .p0NotExact ∉ eligibilityBlockers c task principal := by
    simp [eligibilityBlockers]
  rw [mem_compileView_blockers]
  simp [hcross, heligibility, p0NotExact_mem_wellFormedness, p0AtomIds_ranked_nonempty]

/-- **Recheck agreement**: the validator reports of a compiled view what the compiler recorded
exactly when the compiler reports the inexact policies it ranks. -/
theorem recheck_agrees_iff (hrefs : (supplied.map Capsule.reference).Nodup) :
    let view := compileView fp order supplied task principal budget adapter
    let report := validateView fp order view supplied principal
    ((∀ b, b ∈ report.blockers ↔ b ∈ view.blockers) ∧
        (report.valid = true ↔ view.blockers = [])) ↔
      PoliciesReported fp order supplied task principal := by
  intro view report
  -- the validator reports what the compiler recorded, and inexact policies on top of it
  have hmem : ∀ b, b ∈ report.blockers ↔ b ∈ view.blockers ∨ (b = .p0NotExact ∧
      policiesAreExact (recomputed fp order supplied task principal).ranked = false) := fun b =>
    mem_validateView_compileView hrefs
  have hvalid : report.valid = true ↔ report.blockers = [] := by
    simp only [report, validateView, decide_eq_true_eq]
  constructor
  · rintro ⟨hsame, _⟩
    -- an unreported policy is one that only the validator reports
    by_contra hunreported
    simp only [PoliciesReported, not_or, not_not] at hunreported
    obtain ⟨hpolicy, hnoP0, hnoBoth, hcross⟩ := hunreported
    have hinexact : policiesAreExact (recomputed fp order supplied task principal).ranked =
        false := by
      rw [← Bool.not_eq_true, policiesAreExact_ranked]
      exact fun hall => hpolicy fun c hc heligible =>
        hall c (mem_eligibleCapsules.mpr ⟨hcross, hc, heligible⟩)
    have hreported := (hsame .p0NotExact).mp ((hmem _).mpr (.inr ⟨rfl, hinexact⟩))
    rcases p0NotExact_mem_compileView.mp hreported with hboth | ⟨_, c, hc, hp0⟩
    · exact hnoBoth hboth
    · exact hnoP0 ⟨c, (mem_eligibleCapsules.mp hc).2.1, (mem_eligibleCapsules.mp hc).2.2, hp0⟩
  · intro hreported
    -- conversely the one blocker that the validator may add is recorded already
    have hextra : policiesAreExact (recomputed fp order supplied task principal).ranked = false →
        .p0NotExact ∈ view.blockers := by
      intro hinexact
      have hsome : crossCapsuleIdentityBlockers fp order supplied = [] ∧ ∃ d ∈ supplied,
          Eligible order task principal d ∧ d.compressionPolicy.p0Exact = false := by
        rw [← Bool.not_eq_true, policiesAreExact_ranked] at hinexact
        simpa using hinexact
      obtain ⟨hcross, d, hdsupplied, hdeligible, hdexact⟩ := hsome
      refine p0NotExact_mem_compileView.mpr ?_
      -- the policy is exact after all, or one of the compiler's reasons to record it applies
      rcases hreported with hpolicy | ⟨c, hc, heligible, hp0⟩ | hboth | hclash
      · rw [hpolicy d hdsupplied hdeligible] at hdexact
        cases hdexact
      · exact .inr ⟨hinexact, c, mem_eligibleCapsules.mpr ⟨hcross, hc, heligible⟩, hp0⟩
      · exact .inl hboth
      · exact absurd hcross hclash
    have hsame : ∀ b, b ∈ report.blockers ↔ b ∈ view.blockers := by
      intro b
      rw [hmem]
      constructor
      · rintro (hview | ⟨rfl, hinexact⟩)
        · exact hview
        · exact hextra hinexact
      · exact .inl
    -- the view is valid when nothing is reported, which is when nothing was recorded
    refine ⟨hsame, hvalid.trans ?_⟩
    simp only [List.eq_nil_iff_forall_not_mem, hsame]

/-! ## Section 4: Iteration in sorted order -/

def Atom.sortKey (a : Atom) : String ×ₗ String ×ₗ String ×ₗ ℤ ×ₗ ℤ ×ₗ List String :=
  toLex (a.atomId, toLex (a.statement, toLex (a.compressionClass, toLex (a.tokenCost,
    toLex (a.relevance, a.evidenceRefs.sort (· ≤ ·))))))

theorem Atom.sortKey_injective : Function.Injective Atom.sortKey := by
  intro a b h
  simp only [sortKey, EmbeddingLike.apply_eq_iff_eq, Prod.mk.injEq] at h
  obtain ⟨hid, hstatement, hclass, hcost, hrelevance, hsorted⟩ := h
  have hrefs : a.evidenceRefs = b.evidenceRefs := by
    rw [← Finset.sort_toFinset a.evidenceRefs (· ≤ ·), hsorted, Finset.sort_toFinset]
  cases a
  cases b
  simp_all

def Evidence.sortKey (e : Evidence) : String ×ₗ String ×ₗ String ×ₗ Bool :=
  toLex (e.evidenceId, toLex (e.digest, toLex (e.exactText, e.fresh)))

theorem Evidence.sortKey_injective : Function.Injective Evidence.sortKey := by
  intro e f h
  simp only [sortKey, EmbeddingLike.apply_eq_iff_eq, Prod.mk.injEq] at h
  cases e
  cases f
  simp_all

/-- The members of a finite set in the order of an injective key. -/
def sortBy {α β : Type} [LinearOrder β] (key : α → β) (hkey : Function.Injective key)
    (s : Finset α) : List α :=
  letI : LinearOrder α := LinearOrder.lift' key hkey
  s.sort (· ≤ ·)

def SetOrder.sorted : SetOrder where
  atoms c := sortBy Atom.sortKey Atom.sortKey_injective c.atoms
  evidence c := sortBy Evidence.sortKey Evidence.sortKey_injective c.evidence
  nodup_atoms _ := Finset.sort_nodup ..
  nodup_evidence _ := Finset.sort_nodup ..
  mem_atoms _ _ := Finset.mem_sort _
  mem_evidence _ _ := Finset.mem_sort _

/-! ## Section 5: An inexact policy without P0 atoms -/

def sampleAtom : Atom :=
  { atomId := "A1", statement := "Retry twice.", compressionClass := "P1_STRUCTURED"
    tokenCost := 3, relevance := 1, evidenceRefs := {"E1"} }

def sampleEvidence : Evidence :=
  { evidenceId := "E1", digest := "d1", exactText := "retry = 2", fresh := true }

def sampleTask : TaskContext :=
  { taskId := "T1", repository := "repo", path := "src/a.py", environment := "ci"
    requiredInterfaces := {"run"} }

/-- A published capsule with one atom, eligible for the sample task. -/
def sampleCapsule (capsuleId : String) (atom : Atom) (p0Exact : Bool) : Capsule :=
  { manifest :=
      { capsuleId := capsuleId, version := "1", authorizedPrincipals := {"agent"}
        repositories := {"repo"}, pathPrefixes := ["src/"], environments := {"ci"}
        provides := {"run"}, lifecycle := "PUBLISHED" }
    atoms := {atom}
    evidence := {sampleEvidence}
    dependencyGraph := { requires := ∅, conflicts := ∅ }
    replacementContract :=
      { replaces := none, acceptsInterfaces := {"run"}, targetEffectsPassed := true
        protectedInvariantsPassed := true, forbiddenSpilloverDetected := false }
    compressionPolicy := { p0Exact := p0Exact }
    integrity := { valid := true } }

/-- Each value is its own fingerprint. -/
def selfFingerprints : Fingerprints TaskContext Capsule (CompiledView TaskContext Capsule) :=
  ⟨id, id, id⟩

def lenientCapsules : List Capsule := [sampleCapsule "C" sampleAtom false]

def lenientView : CompiledView TaskContext Capsule :=
  compileView selfFingerprints .sorted lenientCapsules sampleTask ⟨"agent"⟩ ⟨10⟩ "adapter"

def lenientReport : ValidationReport Capsule (CompiledView TaskContext Capsule) :=
  validateView selfFingerprints .sorted lenientView lenientCapsules ⟨"agent"⟩

/-- The compiler leaves the view unblocked, the validator reports `P0_NOT_EXACT`. -/
theorem recheck_disagrees_lenient :
    (lenientCapsules.map Capsule.reference).Nodup ∧
      ¬ ((∀ b, b ∈ lenientReport.blockers ↔ b ∈ lenientView.blockers) ∧
        (lenientReport.valid = true ↔ lenientView.blockers = [])) := by
  have hview : lenientView.blockers = [] := by decide +kernel
  have hreport : lenientReport.blockers = [.p0NotExact] := by decide +kernel
  refine ⟨by decide, fun ⟨hsame, _⟩ => ?_⟩
  have hmem := (hsame .p0NotExact).mp (by rw [hreport]; exact List.mem_singleton_self _)
  rw [hview] at hmem
  cases hmem

def exactCapsules : List Capsule := [sampleCapsule "C" sampleAtom true]

theorem recheck_agrees_exact :
    let view := compileView selfFingerprints .sorted exactCapsules sampleTask ⟨"agent"⟩ ⟨10⟩
      "adapter"
    let report := validateView selfFingerprints .sorted view exactCapsules ⟨"agent"⟩
    (∀ b, b ∈ report.blockers ↔ b ∈ view.blockers) ∧
      (report.valid = true ↔ view.blockers = []) :=
  (recheck_agrees_iff (by decide)).mpr (.inl (by decide +kernel))

end ContractCapsule.Formal
