import ContractCapsule.Compile.Session
import ContractCapsule.Resolve.Providers

/-!
# Selection Correctness

What a selection that returned has selected, rendered and recorded. Every step of the selection
either keeps the selected atoms or replaces them by a closed set that contains them, has no
conflict and was rendered within the budget; nothing is used of the counter.
-/

namespace ContractCapsule.Compile

open Library Models Resolve
open Enumeration (wire)

variable {F : Type} [FloatText F]

/-! ## Section 1: Invariants -/

/-- The reasons of selected atoms. -/
def selectionReasons : List String :=
  ["P0_REQUIRED", "TASK_REQUIRED", "RELEVANT", "DEPENDENCY_REQUIRED"]

namespace Compilation

variable (s : Compilation F)

/-- The selected atoms are closed and without a conflict, and they are what was rendered, within the
budget. -/
structure Settled (st : Selection) : Prop where
  atoms : st.selected ⊆ s.graph.atomIds
  closed : s.graph.closeAtoms st.selected = .ok st.selected
  compatible : s.graph.conflictsFor st.selected = .ok []
  conflicts : st.conflicts = []
  rendered : s.render st.selected false = .ok (st.content, st.tokens)
  within : st.tokens.total ≤ st.tokens.available

/-- The reason recorded of an atom that is not selected, when some ranked atoms were considered. -/
def exclusion (done : List (RankedAtom F)) (atomId : String) : String :=
  if ∃ item ∈ done, item.atom.atomId = atomId ∧ item.isMatched = true then "BUDGET_EXCLUDED"
  else "NOT_RELEVANT"

/-- The reasons say which atoms are selected, and of the others which were considered. -/
structure Recorded (done : List (RankedAtom F)) (st : Selection) : Prop where
  selected : ∀ id ∈ st.selected, ∃ reason ∈ selectionReasons, st.reasons id = some reason
  unselected : ∀ id ∈ s.graph.atomIds, id ∉ st.selected → st.reasons id = some (exclusion done id)

/-- The reason of an atom that was added. -/
theorem addReasons_of_mem {reasons : String → Option String} {added : Finset String}
    {reason : String → String} {id : String} (h : id ∈ added) :
    addReasons reasons added reason id = some (reason id) := if_pos h

/-- The reason of an atom that was not. -/
theorem addReasons_of_notMem {reasons : String → Option String} {added : Finset String}
    {reason : String → String} {id : String} (h : id ∉ added) :
    addReasons reasons added reason id = reasons id := if_neg h

variable {s} {st st' : Selection}

/-! ## Section 2: Steps -/

theorem closeWithoutConflict_eq_ok {atomIds closed : Finset String} {conflicts : List Conflict}
    (h : s.closeWithoutConflict atomIds = .ok (closed, conflicts)) :
    atomIds ⊆ closed ∧ closed ⊆ s.graph.atomIds ∧ s.graph.closeAtoms closed = .ok closed ∧
      s.graph.conflictsFor closed = .ok [] ∧ conflicts = [] := by
  simp only [closeWithoutConflict, Except.bind_eq_ok, raiseIf_eq_ok, Except.pure_eq_ok,
    Prod.mk.injEq, not_not] at h
  obtain ⟨found, hclosed, found', hconflicts, _, hnone, rfl, rfl⟩ := h
  subst hnone
  obtain ⟨hsub, hatoms, hself, _⟩ := closeAtoms_closure hclosed
  exact ⟨hsub, hatoms, hself, hconflicts, rfl⟩

/-- Reasons from the list for what is added keep the record. -/
theorem Recorded.add {done : List (RankedAtom F)} (h : s.Recorded done st)
    {closed : Finset String} (hsub : st.selected ⊆ closed) {reason : String → String}
    (hreason : ∀ id, reason id ∈ selectionReasons) {content : List Char} {tokens : TokenAccounting}
    {conflicts : List Conflict} :
    s.Recorded done
      ⟨closed, addReasons st.reasons (closed \ st.selected) reason, content, tokens, conflicts⟩ := by
  refine ⟨fun id hid => ?_, fun id hid hnot => ?_⟩
  · by_cases hold : id ∈ st.selected
    · -- the atom keeps the reason it had
      obtain ⟨old, hmem, hold'⟩ := h.selected id hold
      refine ⟨old, hmem, ?_⟩
      rw [← hold']
      exact addReasons_of_notMem fun hadded => (Finset.mem_sdiff.mp hadded).2 hold
    · exact ⟨_, hreason id, addReasons_of_mem (Finset.mem_sdiff.mpr ⟨hid, hold⟩)⟩
  · rw [← h.unselected id hid fun hold => hnot (hsub hold)]
    exact addReasons_of_notMem fun hadded => hnot (Finset.mem_sdiff.mp hadded).1

/-- A mandatory step adds its seeds to what is selected, and settles. -/
theorem mandatory_settled {seeds : Finset String} {reason : String} {overflow : CompileError}
    (h : s.mandatory seeds reason overflow st = .ok st') :
    st.selected ∪ seeds ⊆ st'.selected ∧ s.Settled st' ∧
      (reason ∈ selectionReasons → ∀ done, s.Recorded done st → s.Recorded done st') := by
  simp only [mandatory, Except.bind_eq_ok, raiseIf_eq_ok, Except.pure_eq_ok] at h
  obtain ⟨⟨closed, conflicts⟩, hclose, ⟨content, tokens⟩, hrender, _, hwithin, rfl⟩ := h
  obtain ⟨hsub, hatoms, hclosed, hcompatible, hconflicts⟩ := closeWithoutConflict_eq_ok hclose
  refine ⟨hsub, ⟨hatoms, hclosed, hcompatible, hconflicts, hrender, not_lt.mp hwithin⟩, ?_⟩
  intro hreason done hrecorded
  apply hrecorded.add (Finset.union_subset_left hsub)
  intro id
  split
  · exact hreason
  · simp [selectionReasons]

omit [FloatText F] in
/-- An atom that needs not be considered changes no exclusion. -/
theorem exclusion_skip {done : List (RankedAtom F)} {item : RankedAtom F} {id : String}
    (h : item.atom.atomId = id → item.isMatched = false) :
    exclusion (done ++ [item]) id = exclusion done id := by
  have hsame : (∃ x ∈ done ++ [item], x.atom.atomId = id ∧ x.isMatched = true) ↔
      ∃ x ∈ done, x.atom.atomId = id ∧ x.isMatched = true := by
    rw [exists_mem_concat, or_iff_left]
    rintro ⟨hid, hmatched⟩
    rw [h hid] at hmatched
    cases hmatched
  simp only [exclusion, hsame]

/-- Considering an atom keeps what is selected, and settles. -/
theorem consider_settled {done : List (RankedAtom F)} {item : RankedAtom F} (hst : s.Settled st)
    (hrecorded : s.Recorded done st) (h : s.consider st item = .ok st') :
    st.selected ⊆ st'.selected ∧ s.Settled st' ∧ s.Recorded (done ++ [item]) st' := by
  rw [consider] at h
  split at h
  -- the atom is selected already or does not match: nothing changes
  · next hskip =>
    rw [Except.ok.injEq] at h
    subst h
    refine ⟨subset_rfl, hst, hrecorded.selected, fun id hid hnot => ?_⟩
    rw [exclusion_skip]
    · exact hrecorded.unselected id hid hnot
    · rintro rfl
      exact hskip.resolve_left hnot
  · next hconsidered =>
    rw [not_or, Bool.not_eq_false] at hconsidered
    simp only [Except.bind_eq_ok] at h
    -- otherwise its closure is rendered, and the count decides
    obtain ⟨⟨closed, conflicts⟩, hclose, ⟨content, tokens⟩, hrender, h⟩ := h
    obtain ⟨hsub, hatoms, hclosed, hcompatible, hconflicts⟩ := closeWithoutConflict_eq_ok hclose
    have hkeeps : st.selected ⊆ closed := Finset.union_subset_left hsub
    have hitem : item.atom.atomId ∈ closed := hsub (by simp)
    split at h
    · -- over the budget: nothing is selected, and the atom is recorded as excluded
      rw [Except.pure_eq_ok] at h
      subst h
      have hother : ∀ id, id ≠ item.atom.atomId →
          addReasons st.reasons {item.atom.atomId} (fun _ => "BUDGET_EXCLUDED") id =
            st.reasons id := fun id hne =>
        addReasons_of_notMem (Finset.mem_singleton.not.mpr hne)
      refine ⟨subset_rfl, { hst with conflicts := hconflicts }, fun id hid => ?_, fun id hid hnot => ?_⟩
      -- what is selected keeps its reason, for the atom considered is not among it
      · have hne : id ≠ item.atom.atomId := fun heq => hconsidered.1 (heq ▸ hid)
        obtain ⟨old, hmem, hold⟩ := hrecorded.selected id hid
        refine ⟨old, hmem, ?_⟩
        rw [← hold]
        exact hother id hne
      -- of the atoms that are not selected, only this one has a new exclusion
      · by_cases heq : id = item.atom.atomId
        · have hexcluded : ∃ x ∈ done ++ [item], x.atom.atomId = id ∧ x.isMatched = true :=
            ⟨item, by simp, heq.symm, hconsidered.2⟩
          rw [exclusion, if_pos hexcluded]
          show addReasons st.reasons {item.atom.atomId} (fun _ => "BUDGET_EXCLUDED") id = _
          exact addReasons_of_mem (Finset.mem_singleton.mpr heq)
        · rw [exclusion_skip fun h => absurd h.symm heq, ← hrecorded.unselected id hid hnot]
          exact hother id heq
    -- within the budget the closure is selected: the atom as relevant, the rest as its dependencies
    · next hwithin =>
      rw [Except.pure_eq_ok] at h
      subst h
      refine ⟨hkeeps, ⟨hatoms, hclosed, hcompatible, hconflicts, hrender, not_lt.mp hwithin⟩, ?_⟩
      have hreason : ∀ id, (if id = item.atom.atomId then "RELEVANT" else "DEPENDENCY_REQUIRED") ∈
          selectionReasons := by
        intro id
        split <;> simp [selectionReasons]
      have hadded := @Recorded.add _ _ _ _ _ hrecorded _ hkeeps _ hreason content tokens conflicts
      -- the atom considered is selected now, so the other exclusions stay as they were
      refine ⟨hadded.selected, fun id hid hnot => ?_⟩
      rw [exclusion_skip fun heq => absurd hitem (heq ▸ hnot)]
      exact hadded.unselected id hid hnot

/-! ## Section 3: The selection -/

variable (s) in
/-- A selection is correct. -/
structure Correct (st : Selection) : Prop where
  /-- It is closed. -/
  atoms : st.selected ⊆ s.graph.atomIds
  closed : s.graph.closeAtoms st.selected = .ok st.selected
  edges : ∀ e ∈ s.graph.edges, e.followed = true → e.source ∈ st.selected →
    e.target ∈ s.graph.atomIds → e.target ∈ st.selected
  /-- It has no conflict. -/
  compatible : s.graph.conflictsFor st.selected = .ok []
  conflicts : st.conflicts = []
  /-- It contains what is mandatory. -/
  p0 : ∀ atom ∈ s.graph.atoms, atom.compressionClass = .p0Exact → atom.atomId ∈ st.selected
  p1 : ∀ item ∈ s.ranked, item.isMatched = true → item.atom.compressionClass = .p1Structured →
    item.atom.atomId ∈ st.selected
  required : ∀ id ∈ s.request.task.requiredAtomIds, id ∈ st.selected
  roots : ∀ id ∈ s.graph.rootAtomIds, id ∈ st.selected
  /-- Its content and its tokens are those of the rendering of the selected atoms. -/
  rendered : ∃ materials sections,
    materialsOf s.compiler.env s.evidence st.selected = .ok materials ∧
    neutralRender s.compiler.env s.expanded s.request.task (rankedOf s.ranked st.selected) materials =
      .ok sections ∧
    renderedContent sections = .ok st.content ∧
    accountTokens sections s.compiler.counter s.request.budget = .ok st.tokens
  within : st.tokens.total ≤ s.request.budget.available
  /-- Its reasons say what is selected, and why the others are not. -/
  reasons : ∀ id ∈ s.graph.atomIds,
    ∃ reason, st.reasons id = some reason ∧ (reason ∈ selectionReasons ↔ id ∈ st.selected)
  excluded : ∀ id ∈ s.graph.atomIds, id ∉ st.selected →
    ∃ item ∈ s.ranked, item.atom.atomId = id ∧
      st.reasons id = some (if item.isMatched then "BUDGET_EXCLUDED" else "NOT_RELEVANT")

/-- What was rendered is what the neutral renderer makes of it. -/
theorem render_eq_ok {selected : Finset String} {expanded : Bool} {content : List Char}
    {tokens : TokenAccounting} (h : s.render selected expanded = .ok (content, tokens)) :
    ∃ materials sections, materialsOf s.compiler.env s.evidence selected = .ok materials ∧
      neutralRender s.compiler.env (if expanded then s.expanded else []) s.request.task
        (rankedOf s.ranked selected) materials = .ok sections ∧
      renderedContent sections = .ok content ∧
      accountTokens sections s.compiler.counter s.request.budget = .ok tokens := by
  simp only [render, Except.bind_eq_ok, raiseIf_eq_ok, Except.pure_eq_ok, not_not,
    Prod.mk.injEq] at h
  obtain ⟨materials, hmaterials, _, _, _, _, sections, _, expected, hexpected, _, rfl, found,
    hcontent, accounted, htokens, rfl, rfl⟩ := h
  exact ⟨materials, sections, hmaterials, hexpected, hcontent, htokens⟩

/-- The record of the tokens has the tokens of the budget. -/
theorem available_of_accountTokens {sections : Sections} {counter : TokenCounter}
    {budget : ViewBudget} {tokens : TokenAccounting}
    (h : accountTokens sections counter budget = .ok tokens) :
    tokens.available = budget.available := by
  simp only [accountTokens, Except.bind_eq_ok, Except.pure_eq_ok] at h
  obtain ⟨_, _, _, _, _, _, _, _, rfl⟩ := h
  rfl

/-- An acceptable result is for an atom of the graph. -/
theorem mem_atomIds_of_acceptable {g : ResolvedGraph F} {result : RankedAtom F}
    (h : acceptable g result = true) : result.atom.atomId ∈ g.atomIds := by
  simp only [acceptable, Bool.and_eq_true, Option.any_eq_true] at h
  obtain ⟨_, atom, hatom, _⟩ := h
  rw [ResolvedGraph.atomIds, List.mem_toFinset]
  have hid : atom.atomId = result.atom.atomId := by
    have hfound := List.find?_some hatom
    exact of_decide_eq_true hfound
  rw [← hid]
  exact List.mem_map_of_mem (List.mem_of_find?_eq_some hatom)

/-- A ranking is accepted when it has as many results as there are atoms, for distinct atoms of the
graph. -/
theorem rank_eq_ok {c : ViewCompiler F} {g : ResolvedGraph F} {request : CompileRequest F}
    {ranked : List (RankedAtom F)} :
    rank c g request = .ok ranked ↔ c.ranker.rankAtoms g.atoms request.task = some ranked ∧
      ranked.length = g.atoms.length ∧ (ranked.map fun item => item.atom.atomId).Nodup ∧
      ranked.all (acceptable g) = true := by
  simp only [rank, Except.bind_eq_ok, orRaise_eq_ok, raiseIf_eq_ok, Except.pure_eq_ok, not_or,
    not_not, Bool.not_eq_false, ne_eq]
  constructor
  · rintro ⟨_, hresults, _, hlength, _, ⟨hnodup, hall⟩, rfl⟩
    exact ⟨hresults, hlength, hnodup, hall⟩
  · rintro ⟨hresults, hlength, hnodup, hall⟩
    exact ⟨ranked, hresults, (), hlength, (), ⟨hnodup, hall⟩, rfl⟩

/-- A ranking has each atom of the graph, once. -/
theorem rank_covers {c : ViewCompiler F} {g : ResolvedGraph F} {request : CompileRequest F}
    {ranked : List (RankedAtom F)} (h : rank c g request = .ok ranked) :
    (ranked.map fun item => item.atom.atomId).Nodup ∧
      ∀ id ∈ g.atomIds, ∃ item ∈ ranked, item.atom.atomId = id := by
  obtain ⟨_, hlength, hnodup, hall⟩ := rank_eq_ok.mp h
  refine ⟨hnodup, ?_⟩
  -- as many distinct atoms of the graph as the graph has atoms are all of them
  have hsub : (ranked.map fun item => item.atom.atomId).toFinset ⊆ g.atomIds := by
    intro id hid
    obtain ⟨item, hitem, rfl⟩ := List.mem_map.mp (List.mem_toFinset.mp hid)
    exact mem_atomIds_of_acceptable (List.all_eq_true.mp hall item hitem)
  have hcard : g.atomIds.card ≤ (ranked.map fun item => item.atom.atomId).toFinset.card := by
    rw [List.toFinset_card_of_nodup hnodup, List.length_map, hlength, ResolvedGraph.atomIds]
    have hle := (g.atoms.map Atom.atomId).toFinset_card_le
    rwa [List.length_map] at hle
  intro id hid
  rw [← Finset.eq_of_subset_of_card_le hsub hcard] at hid
  obtain ⟨item, hitem, hid'⟩ := List.mem_map.mp (List.mem_toFinset.mp hid)
  exact ⟨item, hitem, hid'⟩

omit [FloatText F] in
/-- The reason of an atom that was considered, or was not, when it has one place in the ranking. -/
theorem exclusion_eq {ranked : List (RankedAtom F)}
    (hnodup : (ranked.map fun item => item.atom.atomId).Nodup) {item : RankedAtom F}
    (hitem : item ∈ ranked) :
    exclusion ranked item.atom.atomId =
      if item.isMatched then "BUDGET_EXCLUDED" else "NOT_RELEVANT" := by
  have hiff : (∃ x ∈ ranked, x.atom.atomId = item.atom.atomId ∧ x.isMatched = true) ↔
      item.isMatched = true := by
    constructor
    · rintro ⟨x, hx, hid, hmatched⟩
      rwa [List.inj_on_of_nodup_map hnodup hx hitem hid] at hmatched
    · intro hmatched
      exact ⟨item, hitem, rfl, hmatched⟩
  simp only [exclusion, hiff]

omit [FloatText F] in
theorem exclusion_notMem (ranked : List (RankedAtom F)) (id : String) :
    exclusion ranked id ∉ selectionReasons := by
  unfold exclusion
  split <;> decide

omit [FloatText F] in
theorem exclusion_perm {done done' : List (RankedAtom F)} (h : done.Perm done') (id : String) :
    exclusion done id = exclusion done' id := by
  simp only [exclusion, h.mem_iff]

/-- Before anything is selected, the reasons say so. -/
theorem recorded_unselected : s.Recorded [] s.unselected := by
  refine ⟨fun id hid => ?_, fun id hid _ => ?_⟩
  · cases hid
  · show (if id ∈ s.graph.atomIds then some "NOT_RELEVANT" else none) = _
    rw [if_pos hid]
    rfl

/-- Expanding keeps what is selected and what is recorded, and renders the expansions. -/
theorem expand_eq_ok (hst : s.Settled st) (h : s.expand st = .ok st') :
    st'.selected = st.selected ∧ st'.reasons = st.reasons ∧ st'.conflicts = [] ∧
      st'.tokens.total ≤ st'.tokens.available ∧
      s.render st'.selected (s.expanded ≠ []) = .ok (st'.content, st'.tokens) := by
  rw [expand] at h
  split at h
  · next hnone =>
    rw [Except.ok.injEq] at h
    subst h
    refine ⟨rfl, rfl, hst.conflicts, hst.within, ?_⟩
    rw [hnone]
    exact hst.rendered
  · next hsome =>
    simp only [Except.bind_eq_ok, raiseIf_eq_ok, Except.pure_eq_ok] at h
    obtain ⟨⟨content, tokens⟩, hrender, _, hwithin, rfl⟩ := h
    refine ⟨rfl, rfl, hst.conflicts, not_lt.mp hwithin, ?_⟩
    rw [decide_eq_true hsome]
    exact hrender

/-- The order in which the atoms were considered does not matter to the record. -/
theorem Recorded.perm {done done' : List (RankedAtom F)} (h : s.Recorded done st)
    (hperm : done.Perm done') : s.Recorded done' st where
  selected := h.selected
  unselected id hid hnot := by rw [h.unselected id hid hnot, exclusion_perm hperm]

/-- A selection that returns expands a settled one, which contains what is mandatory and whose
reasons are recorded of the whole ranking. -/
theorem select_settled (h : s.select = .ok st) :
    ∃ last, s.Settled last ∧ s.Recorded s.ranked last ∧ s.p0Seeds ∪ s.taskSeeds ⊆ last.selected ∧
      s.expand last = .ok st := by
  simp only [select, Except.bind_eq_ok] at h
  obtain ⟨exact, hexact, required, hrequired, last, hloop, hexpand⟩ := h
  obtain ⟨hsubP0, _, hrecordP0⟩ := mandatory_settled hexact
  obtain ⟨hsubP1, hsettledP1, hrecordP1⟩ := mandatory_settled hrequired
  have hrecorded : s.Recorded [] required :=
    hrecordP1 (by simp [selectionReasons]) []
      (hrecordP0 (by simp [selectionReasons]) [] recorded_unselected)
  -- the loop keeps what is mandatory, and settles after each atom
  have hloop' := foldlM_invariant
    (fun done (st : Selection) => required.selected ⊆ st.selected ∧ s.Settled st ∧ s.Recorded done st)
    (by
      intro done st item st' hinvariant hstep
      obtain ⟨hkeeps, hsettled, hrecorded⟩ := hinvariant
      obtain ⟨hsub, hsettled', hrecorded'⟩ := consider_settled hsettled hrecorded hstep
      exact ⟨hkeeps.trans hsub, hsettled', hrecorded'⟩)
    ⟨subset_rfl, hsettledP1, hrecorded⟩ hloop
  obtain ⟨hkeeps, hsettled, hrecordedLast⟩ := hloop'
  have hp0 : s.p0Seeds ⊆ required.selected :=
    Finset.subset_union_right.trans (hsubP0.trans (Finset.subset_union_left.trans hsubP1))
  have htask : s.taskSeeds ⊆ required.selected := Finset.subset_union_right.trans hsubP1
  exact ⟨last, hsettled, hrecordedLast.perm (List.perm_insertionSort _ _),
    (Finset.union_subset hp0 htask).trans hkeeps, hexpand⟩

/-- What is selected at the end. -/
theorem selected_of_select (h : s.select = .ok st) :
    st.selected ⊆ s.graph.atomIds ∧ s.graph.closeAtoms st.selected = .ok st.selected ∧
      s.graph.conflictsFor st.selected = .ok [] ∧ st.conflicts = [] ∧
      s.p0Seeds ∪ s.taskSeeds ⊆ st.selected := by
  obtain ⟨last, hsettled, _, hseeds, hexpand⟩ := select_settled h
  obtain ⟨hselected, _, hconflicts, _, _⟩ := expand_eq_ok hsettled hexpand
  rw [hselected]
  exact ⟨hsettled.atoms, hsettled.closed, hsettled.compatible, hconflicts, hseeds⟩

/-- How it is rendered: with the expansions, within the budget. -/
theorem rendered_of_select (h : s.select = .ok st) :
    (∃ materials sections,
      materialsOf s.compiler.env s.evidence st.selected = .ok materials ∧
      neutralRender s.compiler.env s.expanded s.request.task (rankedOf s.ranked st.selected)
        materials = .ok sections ∧
      renderedContent sections = .ok st.content ∧
      accountTokens sections s.compiler.counter s.request.budget = .ok st.tokens) ∧
    st.tokens.total ≤ st.tokens.available := by
  obtain ⟨last, hsettled, _, _, hexpand⟩ := select_settled h
  obtain ⟨_, _, _, hwithin, hrender⟩ := expand_eq_ok hsettled hexpand
  obtain ⟨materials, sections, hmaterials, hsections, hcontent, htokens⟩ := render_eq_ok hrender
  refine ⟨⟨materials, sections, hmaterials, ?_, hcontent, htokens⟩, hwithin⟩
  -- where nothing is expanded, the first rendering stands, which is the same
  by_cases hnone : s.expanded = []
  · simpa [hnone] using hsections
  · simpa [hnone] using hsections

/-- **Selection correctness**: a selection over an accepted ranking that returns is closed, has no
conflict and contains what is mandatory; its content and its tokens are those of exactly what is
selected, within the budget; and its reasons say exactly what is selected. -/
theorem select_correct (hrank : rank s.compiler s.graph s.request = .ok s.ranked)
    (h : s.select = .ok st) : s.Correct st := by
  obtain ⟨hatoms, hclosedAtoms, hcompatible, hconflicts, hseeds⟩ := selected_of_select h
  obtain ⟨hrendered, hwithin⟩ := rendered_of_select h
  obtain ⟨last, hsettled, hrecorded, _, hexpand⟩ := select_settled h
  obtain ⟨hselected, hreasons, _, _, _⟩ := expand_eq_ok hsettled hexpand
  obtain ⟨hnodup, hcovers⟩ := rank_covers hrank
  refine ⟨hatoms, hclosedAtoms, ?_, hcompatible, hconflicts, ?_, ?_, ?_, ?_, hrendered, ?_, ?_, ?_⟩
  -- a followed edge stays within a closed set
  · intro e he hfollowed hsource htarget
    obtain ⟨closed, hclosed, heq⟩ := closeAtoms_eq_ok hclosedAtoms
    rw [heq] at hsource ⊢
    exact Finset.mem_inter.mpr ⟨(closedNodes_eq_ok hclosed).follows e he hfollowed
      (Finset.mem_inter.mp hsource).1, htarget⟩
  -- the seeds are the exact atoms, and what the task requires in three parts
  · intro atom hatom hclass
    apply hseeds
    apply Finset.mem_union_left
    rw [p0Seeds, List.mem_toFinset]
    exact List.mem_map_of_mem (List.mem_filter.mpr ⟨hatom, decide_eq_true hclass⟩)
  · intro item hitem hmatched hclass
    apply hseeds
    apply Finset.mem_union_right
    rw [taskSeeds, p1Seeds, Finset.mem_union, Finset.mem_union, List.mem_toFinset]
    exact Or.inl (Or.inl (List.mem_map.mpr
      ⟨item, List.mem_filter.mpr ⟨hitem, decide_eq_true ⟨hmatched, hclass⟩⟩, rfl⟩))
  · intro id hid
    apply hseeds
    apply Finset.mem_union_right
    rw [taskSeeds, Finset.mem_union, Finset.mem_union, List.mem_toFinset, List.mem_toFinset]
    exact Or.inl (Or.inr hid)
  · intro id hid
    apply hseeds
    apply Finset.mem_union_right
    rw [taskSeeds, Finset.mem_union, List.mem_toFinset]
    exact Or.inr hid
  · obtain ⟨_, _, _, _, _, htokens⟩ := hrendered
    rw [← available_of_accountTokens htokens]
    exact hwithin
  -- of an atom with a reason to be selected the reason stays; any other was considered by the loop
  · intro id hid
    by_cases hin : id ∈ st.selected
    · rw [hreasons]
      obtain ⟨reason, hmem, hreason⟩ := hrecorded.selected id (hselected ▸ hin)
      exact ⟨reason, hreason, iff_of_true hmem hin⟩
    · rw [hreasons]
      refine ⟨_, hrecorded.unselected id hid (hselected ▸ hin), ?_⟩
      exact iff_of_false (exclusion_notMem _ _) hin
  · intro id hid hnot
    obtain ⟨item, hitem, rfl⟩ := hcovers id hid
    refine ⟨item, hitem, rfl, ?_⟩
    rw [hreasons, hrecorded.unselected _ hid (hselected ▸ hnot), exclusion_eq hnodup hitem]

end Compilation

/-! ## Section 4: A sample -/

/-- An environment with one digest. -/
def sampleEnvironment : Environment IntegralFloat where
  sha256 := fun _ => zeroDigest
  precedence := fun _ _ => .eq
  semanticVersion := "2.10.0"
  scanSecrets := fun _ => false
  sourceSpan := fun _ text => .ok (text, none)

/-- The material of a capsule's evidence that every source gives for these atoms. -/
def sampleMaterial (ref : CapsuleRef) (atomIds : List String) : EvidenceMaterial where
  handle := {
    capsule := ref
    evidenceId := "e1"
    atomIds := atomIds
    mode := "CAS"
    contentDigest := zeroDigest
    spanDigest := none
    resolverVersion := "1.0.0" }
  excerpt := "text"
  fullText := "text"

/-- A compiler that ranks all atoms alike and counts every text as one token. -/
def sampleCompiler : ViewCompiler IntegralFloat where
  env := sampleEnvironment
  registry := fun _ _ _ => none
  authorizer := {
    version := "1.0.0"
    authorize := fun _ _ _ _ => some true
    contextDigest := fun _ _ => some zeroDigest }
  freshness := {
    version := "1.0.0"
    check := fun _ _ _ => some true
    contextDigest := some zeroDigest }
  ranker := {
    version := "1.0.0"
    configDigest := zeroDigest
    rankAtoms := fun atoms _ => some (atoms.map fun atom => ⟨atom, some ⟨0⟩, true⟩) }
  counter := {
    modelId := "m"
    profile := "f"
    version := "1.0.0"
    configDigest := zeroDigest
    count := fun _ => some 1 }
  evidence := {
    version := "1.0.0"
    configDigest := zeroDigest
    native := true
    resolve := fun p atom _ _ _ => .ok [sampleMaterial (capsuleRef (capsuleOf p)) [atom.atomId]]
    expand := fun handle _ _ _ => .ok { sampleMaterial handle.capsule [] with handle := handle } }
  renderer := .neutral []

/-- A request with room for some tokens. -/
def sampleRequest (capsules : List (Publication IntegralFloat)) : CompileRequest IntegralFloat where
  capsules := capsules
  task := sampleTask
  principal := ⟨"p"⟩
  budget := {
    modelInputTokens := 100
    systemTokens := 0
    conversationTokens := 0
    toolsTokens := 0
    safetyHeadroomTokens := 0
    bounded := by decide
    nonnegativeAvailable := by decide }
  asOf := "2026-01-02T00:00:00Z"
  modelId := "m"
  tokenizerProfile := "f"
  rendererVersion := neutralVersion
  runtimeConfig := []
  expectedManifestDigest := none
  frozen := by decide +kernel

/-- The atom of the sample capsule under another name, with this class and this statement. -/
def rankedSample (atomId : String) (compressionClass : CompressionClass) (statement : String)
    (isMatched : Bool) : List (RankedAtom IntegralFloat) :=
  sampleCapsule.semanticPayload.atoms.map fun atom =>
    ⟨{ atom with
        atomId := atomId
        compressionClass := compressionClass
        statement := statement }, some ⟨0⟩, isMatched⟩

/-- An exact atom; a relevant atom that requires another one, which is not relevant itself; a
relevant atom for which the budget has no room left; and one that nothing asks for. -/
def sampleRanking : List (RankedAtom IntegralFloat) :=
  rankedSample "a1" .p0Exact "s" true ++ rankedSample "b1" .p2Evidence "s" true ++
    rankedSample "c1" .p1Structured "s" false ++
    rankedSample "d1" .p3Summary "s" true ++
    rankedSample "f1" .p4Transient "s" false

/-- The selection from these atoms, by a compiler that counts characters. -/
def sampleCompilation : Compilation IntegralFloat where
  compiler := { sampleCompiler with
    ranker := { sampleCompiler.ranker with rankAtoms := fun _ _ => some sampleRanking }
    counter := { sampleCompiler.counter with count := fun text => some text.length } }
  request := { sampleRequest [] with
    budget := { (sampleRequest []).budget with
      modelInputTokens := 2200
      bounded := by decide
      nonnegativeAvailable := by decide } }
  graph := {
    atoms := sampleRanking.map RankedAtom.atom
    owners := sampleRanking.map fun item => (item.atom.atomId, [capsuleRef sampleCapsule])
    publications := []
    edges := [⟨"b1", "c1", .requires, true⟩]
    rootAtomIds := ["a1"]
    providers := []
    configDigest := zeroDigest
    version := "1.0.1" }
  ranked := sampleRanking
  evidence := sampleRanking.map fun item =>
    (item.atom.atomId, [sampleMaterial (capsuleRef sampleCapsule)
      (sampleRanking.map fun other => other.atom.atomId)])
  expanded := []

theorem select_correct_ranked : ∃ st, sampleCompilation.select = .ok st ∧
    st.selected = {"a1", "b1", "c1"} ∧
    ["a1", "b1", "c1", "d1", "f1"].map st.reasons =
      [some "P0_REQUIRED", some "RELEVANT", some "DEPENDENCY_REQUIRED", some "BUDGET_EXCLUDED",
        some "NOT_RELEVANT"] ∧
    sampleCompilation.Correct st := by
  -- the characters of the schema are spelled out once, not decoded at every rendering
  have happend : ∀ {s a b : String} {x y : List Char}, s = a ++ b → a = String.ofList x →
      b = String.ofList y → s = String.ofList (x ++ y) := by
    rintro _ _ _ x y rfl rfl rfl
    exact String.ofList_append.symm
  have hschema : schemaText.toList = _ :=
    (congrArg String.toList (happend rfl (happend rfl (happend rfl rfl rfl) rfl) rfl)).trans
      String.toList_ofList
  have hselect : (sampleCompilation.select.toOption.map fun st => decide
      (st.selected = {"a1", "b1", "c1"} ∧ ["a1", "b1", "c1", "d1", "f1"].map st.reasons =
        [some "P0_REQUIRED", some "RELEVANT", some "DEPENDENCY_REQUIRED", some "BUDGET_EXCLUDED",
          some "NOT_RELEVANT"])) = some true := by
    simp only [Compilation.select, Compilation.mandatory, Compilation.expand]
    delta Compilation.consider
    simp only [Compilation.render_neutral (s := sampleCompilation) rfl,
      Compilation.neutralRendering, neutralRender, hschema]
    decide +kernel
  have hrank : rank sampleCompilation.compiler sampleCompilation.graph sampleCompilation.request =
      .ok sampleCompilation.ranked :=
    Compilation.rank_eq_ok.mpr ⟨rfl, rfl, by decide +kernel, by decide +kernel⟩
  obtain ⟨st, hst, hfound⟩ := Option.map_eq_some_iff.mp hselect
  have hok := Except.toOption_eq_some.mp hst
  obtain ⟨hselected, hreasons⟩ := of_decide_eq_true hfound
  exact ⟨st, hok, hselected, hreasons, Compilation.select_correct hrank hok⟩

end ContractCapsule.Compile
