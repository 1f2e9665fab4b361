import ContractCapsule.Resolve.Owners
import ContractCapsule.Compile.Compression

/-!
# The Checks Agree with the Compiler

What the compiler makes passes the independent checks, and what passes them is what a manifest, a
rendering and a count of its own selection make it. The two sides read sources, rankings and owners
by different code, so first each of these is shown to be the same on both.
-/

namespace ContractCapsule.Validate

open Library Models Resolve Compile
open Compilation (rank_eq_ok rank_covers mem_atomIds_of_acceptable selected_of_select
  rendered_of_select)

variable {F : Type} [FloatText F]
variable {c : ViewCompiler F} {g : ResolvedGraph F} {request : CompileRequest F} {now : String}

/-! ## Section 1: Sources -/

/-- An owner is found among the owners of an atom by its key. -/
theorem Owned.any_key (hg : g.Owned) {owner : CapsuleRef} (hvalid : owner.valid = true)
    (id : String) : ((g.ownersOf id).any fun ref => ref.key == owner.key) = true ↔
      owner ∈ g.ownersOf id := by
  rw [List.any_eq_true]
  constructor
  · rintro ⟨ref, href, hkey⟩
    rw [← key_injective (hg.valid id ref href) hvalid (eq_of_beq hkey)]
    exact href
  · intro howner
    exact ⟨owner, howner, beq_self_eq_true _⟩

/-- The members of a record are the same by keys and by references. -/
theorem boundMembers_eq (hg : g.Owned) {owner : CapsuleRef} (hvalid : owner.valid = true)
    (record : EvidenceRecord (Number F)) :
    boundMembers g record owner.key =
      (record.atomIds.filter fun key => owner ∈ g.ownersOf key).insertionSort (· ≤ ·) := by
  have hfilter : (record.atomIds.filter fun id =>
      (g.ownersOf id).any fun ref => ref.key == owner.key) =
        record.atomIds.filter fun key => owner ∈ g.ownersOf key := by
    apply List.filter_congr
    intro id _
    rw [Bool.eq_iff_iff, Owned.any_key hg hvalid, decide_eq_true_iff]
  rw [boundMembers, hfilter]

/-- A material that the compiler accepts of an owner is one that the validation accepts. -/
theorem verifyMaterial_of_bound (hg : g.Owned) {owner : CapsuleRef} (hvalid : owner.valid = true)
    {p : Publication F} {material : EvidenceMaterial} {atomId : String}
    (hsource : verifySource c.env material atomId owner.key = .ok ())
    (hbinding : verifyBinding c material g owner.key p = .ok ()) :
    verifyMaterial c g owner p material = .ok () := by
  simp only [verifySource, Except.bind_eq_ok, raiseIf_eq_ok, Bool.not_eq_false, not_or,
    not_not] at hsource
  obtain ⟨_, hmaterial, _, ⟨hkey, _, hdigest⟩, _⟩ := hsource
  simp only [verifyBinding, Except.bind_eq_ok, orRaise_eq_ok, raiseIf_eq_ok, not_or,
    not_not] at hbinding
  obtain ⟨record, hrecord, ⟨excerpt, span⟩, hspan, hatoms, hcontent, hmode, hspan', hversion,
    hexcerpt⟩ := hbinding
  have hcapsule : material.handle.capsule = owner := by
    apply key_injective _ hvalid hkey
    simp only [materialValid, handleValid, Bool.and_eq_true] at hmaterial
    exact hmaterial.1.1.1.1
  rw [boundMembers_eq hg hvalid] at hatoms
  simp only [verifyMaterial, Except.bind_eq_ok, orRaise_eq_ok, raiseIf_eq_ok, Bool.not_eq_false,
    not_or, not_not]
  exact ⟨(), hmaterial, record, hrecord, (excerpt, span), hspan, hcapsule, hatoms, hcontent,
    hdigest.symm, hmode, hspan', hversion, hexcerpt⟩

/-- The evidence is the same at two instants. -/
def Unchanged (c : ViewCompiler F) (request : CompileRequest F) (now : String) : Prop :=
  ∀ p atom, c.evidence.resolve p atom request.principal request.task now =
    c.evidence.resolve p atom request.principal request.task request.asOf

/-- The validation reads the sources that the compiler reads. -/
theorem verifiedMaterials_of_sources (hg : g.Owned) (hunchanged : Unchanged c request now)
    {evidence : Evidence} (h : sources c g request = .ok evidence) :
    verifiedMaterials c g request now = .ok evidence := by
  apply mapM_of_ok _ h
  intro atom _ entry hentry
  simp only [Except.bind_eq_ok, Except.pure_eq_ok] at hentry ⊢
  obtain ⟨materials, hloop, rfl⟩ := hentry
  refine ⟨materials, foldlM_of_ok ?_ hloop, rfl⟩
  intro owner howner found found' hstep
  have hvalid := hg.valid atom.atomId owner howner
  simp only [ownerSources, Except.bind_eq_ok, orRaise_eq_ok, Except.pure_eq_ok] at hstep
  obtain ⟨p, hp, sources, hresolve, _, _, _, hchecks, _, hsame, rfl⟩ := hstep
  rw [checkAll_eq_ok] at hchecks
  simp only [verifiedOwner, Except.bind_eq_ok, orRaise_eq_ok, Except.pure_eq_ok]
  refine ⟨p, hp, sources, (hunchanged p atom).trans hresolve, (), ?_, (), ?_, rfl⟩
  · rw [raiseIf_eq_ok] at hsame ⊢
    exact hsame
  · rw [checkAll_eq_ok]
    intro material hmaterial
    obtain ⟨_, hsource, hbinding⟩ := (Except.bind_eq_ok _ _ _).mp (hchecks material hmaterial)
    exact verifyMaterial_of_bound hg hvalid hsource hbinding

/-! ## Section 2: Ranking -/

/-- A ranking that the compiler accepts is one that the validation accepts. -/
theorem ranked_of_rank {results : List (RankedAtom F)} (h : rank c g request = .ok results) :
    ranked c g request = .ok results := by
  obtain ⟨hresults, hlength, _, hall⟩ := rank_eq_ok.mp h
  have hids : (results.map fun item => item.atom.atomId).toFinset = g.atomIds := by
    ext id
    rw [List.mem_toFinset, List.mem_map]
    constructor
    · rintro ⟨item, hitem, rfl⟩
      exact mem_atomIds_of_acceptable (List.all_eq_true.mp hall item hitem)
    · intro hid
      exact (rank_covers h).2 id hid
  simp only [ranked, Except.bind_eq_ok, orRaise_eq_ok, raiseIf_eq_ok, Except.pure_eq_ok, not_not,
    Bool.not_eq_false, ne_eq]
  exact ⟨results, hresults, (), hlength, (), hall, (), hids, rfl⟩

/-! ## Section 3: The manifest of a session -/

/-- A manifest that was built is the ordered record of its session. -/
theorem buildManifest_eq_ok {s : Session F} {m : ViewManifest}
    (h : s.buildManifest c.env = .ok m) :
    ∃ links, s.graph.closureLinks s.selected = .ok links ∧ m = ordered F (s.manifest c.env links) := by
  simp only [Session.buildManifest, validateManifest, Except.bind_eq_ok, Except.pure_eq_ok] at h
  obtain ⟨_, _, links, hlinks, _, _, rfl⟩ := h
  exact ⟨links, hlinks, rfl⟩

/-- What a session decides, of each atom and each of its owners. -/
theorem mem_decisions {s : Session F} {d : DecisionRecord} :
    d ∈ s.decisions ↔ ∃ atom ∈ s.graph.atoms, ∃ owner ∈ s.graph.ownersOf atom.atomId,
      d = s.decision atom.atomId owner := by
  simp only [Session.decisions, List.mem_flatMap, List.mem_map, eq_comm]

/-- The decisions of a built manifest are those of its session. -/
theorem perm_decisions {s : Session F} (links : List ClosureLink) :
    (ordered F (s.manifest c.env links)).decisions.Perm s.decisions :=
  List.perm_insertionSort _ _

section Built

variable {s : Session F} {links : List ClosureLink} {view : CompiledView}

theorem mem_view_decisions (hview : view.manifest = ordered F (s.manifest c.env links))
    {d : DecisionRecord} : d ∈ view.manifest.decisions ↔ d ∈ s.decisions := by
  rw [hview]
  exact (perm_decisions links).mem_iff

/-- The decisions of a view have the keys that the validation expects. -/
theorem keys_of_built (hview : view.manifest = ordered F (s.manifest c.env links)) :
    (view.manifest.decisions.map decisionKey).toFinset = (expectedKeys s.graph).toFinset := by
  have hkeys : s.decisions.map decisionKey = expectedKeys s.graph := by
    simp only [Session.decisions, expectedKeys, List.map_flatMap, List.map_map]
    rfl
  rw [← hkeys, hview]
  exact List.toFinset_eq_of_perm _ _ ((perm_decisions links).map decisionKey)

/-- A view selects what its session selected. -/
theorem selectedOf_built (hg : s.graph.Owned) (hatoms : s.selected ⊆ s.graph.atomIds)
    (hview : view.manifest = ordered F (s.manifest c.env links)) : selectedOf view = s.selected := by
  ext id
  simp only [selectedOf, List.mem_toFinset, List.mem_map, List.mem_filter, decide_eq_true_eq,
    mem_view_decisions hview, mem_decisions]
  constructor
  · rintro ⟨d, ⟨⟨atom, _, owner, _, rfl⟩, hselected⟩, rfl⟩
    simpa [Session.decision] using hselected
  · intro hid
    obtain ⟨atom, hatom, rfl⟩ := List.mem_map.mp (List.mem_toFinset.mp (hatoms hid))
    -- the atom has an owner, and the decision for it is recorded
    obtain ⟨owner, howner⟩ := hg.owner atom.atomId (hatoms hid)
    refine ⟨_, ⟨⟨atom, hatom, owner, howner, rfl⟩, ?_⟩, rfl⟩
    exact if_pos hid

/-- The outcomes of a view say what is selected. -/
theorem outcome_built (hview : view.manifest = ordered F (s.manifest c.env links))
    {d : DecisionRecord} (hd : d ∈ view.manifest.decisions) :
    d.outcome = .selected ↔ d.atomId ∈ s.selected := by
  obtain ⟨atom, _, owner, _, rfl⟩ := mem_decisions.mp ((mem_view_decisions hview).mp hd)
  show (if atom.atomId ∈ s.selected then Outcome.selected else .excluded) = .selected ↔ _
  by_cases hin : atom.atomId ∈ s.selected
  · rw [if_pos hin]
    exact iff_of_true rfl hin
  · rw [if_neg hin]
    exact iff_of_false (by decide) hin

/-- The owners of what is selected are the capsules of the view, when no two are versions of one. -/
theorem capsules_built (hg : s.graph.Owned)
    (hnone : s.graph.conflictsFor s.selected = .ok [])
    (hview : view.manifest = ordered F (s.manifest c.env links)) :
    ownersIn s.graph s.selected = view.manifest.capsules := by
  have howns : ∀ ref ∈ s.participating, s.graph.OwnsIn ref s.selected := by
    intro ref href
    obtain ⟨atom, hatom, howner⟩ := List.mem_flatMap.mp (mem_of_mem_index href)
    exact ⟨atom.atomId, of_decide_eq_true (List.mem_filter.mp hatom).2, howner⟩
  have hnodup : (s.participating.map CapsuleRef.capsuleId).Nodup := by
    apply List.Nodup.map_on
    · intro a ha b hb hid
      exact hg.one_version hnone (howns a ha) (howns b hb) hid
    · exact List.Nodup.of_map CapsuleRef.key nodup_index
  rw [hview]
  show _ = (if (s.participating.map CapsuleRef.capsuleId).Nodup then s.participating
    else []).insertionSort _
  rw [if_pos hnodup]
  rfl

/-- The reason that a view records of an atom is the one of its session. -/
theorem reasonsOf_built (hview : view.manifest = ordered F (s.manifest c.env links))
    {atom : Atom (Number F)} (hatom : atom ∈ s.graph.atoms) {owner : CapsuleRef}
    (howner : owner ∈ s.graph.ownersOf atom.atomId) :
    reasonsOf view atom.atomId = some ((s.reasons atom.atomId).getD "COMPILATION_BLOCKED") := by
  have hmem : s.decision atom.atomId owner ∈ view.manifest.decisions.reverse := by
    rw [List.mem_reverse, mem_view_decisions hview, mem_decisions]
    exact ⟨atom, hatom, owner, howner, rfl⟩
  rw [reasonsOf]
  cases hfind : view.manifest.decisions.reverse.find? fun d => d.atomId = atom.atomId with
  | none =>
    have hnone := List.find?_eq_none.mp hfind _ hmem
    exact absurd (decide_eq_true rfl) hnone
  | some d =>
    have hid : d.atomId = atom.atomId := by
      have hfound := List.find?_some hfind
      exact of_decide_eq_true hfound
    have hd := List.mem_reverse.mp (List.mem_of_find?_eq_some hfind)
    obtain ⟨other, _, owner', _, rfl⟩ := mem_decisions.mp ((mem_view_decisions hview).mp hd)
    rw [Option.map_some, ← hid]
    rfl

/-- A session with the reasons that its view records has the same manifest. -/
theorem manifest_reasonsOf (hview : view.manifest = ordered F (s.manifest c.env links)) :
    { s with reasons := reasonsOf view }.manifest c.env links = s.manifest c.env links := by
  have hdecisions : { s with reasons := reasonsOf view }.decisions = s.decisions := by
    simp only [Session.decisions]
    apply List.flatMap_congr
    intro atom hatom
    apply List.map_congr_left
    intro owner howner
    simp only [Session.decision, reasonsOf_built hview hatom howner, Option.getD_some]
  simp only [Session.manifest, hdecisions]
  rfl

end Built

/-! ## Section 4: What the compiler made -/

/-- What is known of a compilation that returned a view. -/
structure Compiled (c : ViewCompiler F) (request : CompileRequest F) (view : CompiledView)
    (p : Prepared F) (st : Selection) (links : List ClosureLink) : Prop where
  configured : configure c request = .ok (p.expanded, p.services)
  admitted :
    (c.resolver request.asOf).resolve request.capsules request.task request.principal = .ok p.admission
  resolved : resolveGraph c.env.precedence c.env.sha256 p.admission request.task = .ok p.graph
  evidence : sources c p.graph request = .ok p.evidence
  ranked : rank c p.graph request = .ok p.ranked
  selected : (p.compilation c request).select = .ok st
  linked : p.graph.closureLinks st.selected = .ok links
  built : (p.session request st).buildManifest c.env = .ok view.manifest
  manifest : view.manifest = ordered F ((p.session request st).manifest c.env links)
  content : view.content = st.content
  report : view.validation = ⟨true, []⟩
  handles : view.evidenceHandles = evidenceHandles c.env p.evidence st.selected
  valid : viewValid view = true
  expected : mismatches c.env request view.manifest = false

/-- `compileView` returns what a compilation made. -/
theorem compileView_eq_ok {view : CompiledView} (h : compileView c request = .ok view) :
    ∃ p st links, Compiled c request view p st links := by
  -- the outer handler changes errors only
  have hrun : run c request = .ok view := by
    unfold compileView at h
    cases hdo : (do
      validateRequest c.env request
      run c request) with
    | error e =>
      rw [hdo] at h
      cases h
    | ok found =>
      rw [hdo] at h
      obtain ⟨_, _, hfound⟩ := (Except.bind_eq_ok _ _ _).mp hdo
      cases h
      exact hfound
  -- the stages of the run, in their order
  simp only [run, Except.bind_eq_ok, raiseIf_eq_ok, Except.pure_eq_ok, Bool.not_eq_true] at hrun
  obtain ⟨p, hprepare, st, hselect, _, _, made, hresult, _, hexpected, rfl⟩ := hrun
  simp only [prepare, Except.bind_eq_ok, Except.pure_eq_ok] at hprepare
  obtain ⟨⟨expanded, services⟩, hconfigured, admission, hadmitted, graph, hgraph, evidence,
    hevidence, _, _, ranked, hranked, rfl⟩ := hprepare
  simp only [result, Except.bind_eq_ok, raiseIf_eq_ok, Except.pure_eq_ok, Bool.not_eq_false]
    at hresult
  obtain ⟨manifest, hmanifest, _, hvalid, rfl⟩ := hresult
  obtain ⟨links, hlinks, hordered⟩ := buildManifest_eq_ok hmanifest
  exact ⟨_, st, links, hconfigured, hadmitted, hgraph, hevidence, hranked, hselect, hlinks, hmanifest,
    hordered, rfl, rfl, rfl, hvalid, hexpected⟩

section Complete

variable {view : CompiledView} {p : Prepared F} {st : Selection} {links : List ClosureLink}

/-- What every view has to select is what the compilation starts from. -/
theorem mandatoryAtoms_eq : mandatoryAtoms p.graph request p.ranked =
    (p.compilation c request).p0Seeds ∪ (p.compilation c request).taskSeeds := by
  simp only [mandatoryAtoms, Compilation.p0Seeds, Compilation.taskSeeds, Compilation.p1Seeds,
    Prepared.compilation, ← Finset.union_assoc]
  exact Finset.union_right_comm _ _ _

/-- What was compiled passes the check of its membership. -/
theorem Compiled.membership (h : Compiled c request view p st links) :
    membership view p.graph request p.ranked = .ok st.selected := by
  have hg := resolveGraph_owned h.resolved
  obtain ⟨hatoms, hself, hcompatible, hnone, hseeds⟩ := selected_of_select h.selected
  have hselected : selectedOf view = st.selected := selectedOf_built hg hatoms h.manifest
  have hmandatory : mandatoryAtoms p.graph request p.ranked ⊆ st.selected := by
    rw [mandatoryAtoms_eq]
    exact hseeds
  -- a part of a closed selection closes within it
  obtain ⟨closed, hclosed, hwithin⟩ := (closeAtoms_closure hself).2.2.2 _ hmandatory
  have hconflicts : view.manifest.conflicts = [] := by
    rw [h.manifest]
    show canonicalOrder F Conflict.dump st.conflicts = []
    rw [hnone]
    rfl
  have hclosure : links.toFinset = view.manifest.closure.toFinset := by
    have hperm : view.manifest.closure.Perm links := by
      rw [h.manifest]
      exact List.perm_insertionSort _ links
    exact (List.toFinset_eq_of_perm _ _ hperm).symm
  simp only [Validate.membership, Except.bind_eq_ok, raiseIf_eq_ok, Except.pure_eq_ok, not_not,
    not_or, ne_eq, hselected]
  refine ⟨(), keys_of_built h.manifest, closed, hclosed, (), hwithin, st.selected, hself, (),
    rfl, (), ?_, [], hcompatible, (), ⟨rfl, hconflicts⟩, (), ?_, links, h.linked, (), hclosure, trivial⟩
  · rintro ⟨d, hd, hdiffers⟩
    exact hdiffers (outcome_built h.manifest hd)
  · exact capsules_built hg hcompatible h.manifest

/-- What was compiled passes the check of its manifest. -/
theorem Compiled.checkManifest (h : Compiled c request view p st links) :
    checkManifest view request c p.graph p.admission st.selected = .ok () := by
  obtain ⟨_, _, expanded, hexpanded, services, hservices, hpair⟩ := by
    have hconfigured := h.configured
    simp only [configure, Except.bind_eq_ok, Except.pure_eq_ok] at hconfigured
    exact hconfigured
  rw [Prod.mk.injEq] at hpair
  obtain ⟨rfl, rfl⟩ := hpair
  obtain ⟨_, _, _, hnone, _⟩ := selected_of_select h.selected
  have hbuilt := h.built
  simp only [Session.buildManifest, Except.bind_eq_ok] at hbuilt
  obtain ⟨_, hatoms, found, hfound, hmanifest⟩ := hbuilt
  have hlinks : found = links := Except.ok.inj (hfound.symm.trans h.linked)
  subst hlinks
  -- the session that the checks build is the compiler's, but for the reasons
  have htokens : view.manifest.tokens = st.tokens := by
    rw [h.manifest]
    rfl
  have hsession : rebuiltSession view request p.graph p.admission st.selected p.expanded p.services =
      { p.session request st with reasons := reasonsOf view } := by
    rw [rebuiltSession, htokens]
    simp only [Prepared.session, hnone]
  simp only [Validate.checkManifest, Except.bind_eq_ok, raiseIf_eq_ok, Bool.not_eq_true]
  refine ⟨p.expanded, hexpanded, p.services, hservices, view.manifest, ?_, (), not_not.mpr rfl,
    h.expected⟩
  -- the reasons are read off the manifest, and give the same manifest again
  rw [hsession]
  simp only [Session.buildManifest, Except.bind_eq_ok]
  exact ⟨(), hatoms, found, hfound, (congrArg _ (manifest_reasonsOf h.manifest)).trans hmanifest⟩

/-- Strings that are sorted and stand once stay as they are. -/
theorem uniqueStrings_uniqueStrings (values : List String) :
    uniqueStrings (uniqueStrings values) = uniqueStrings values := by
  have hnodup : (uniqueStrings values).Nodup :=
    (List.perm_insertionSort _ _).nodup_iff.mpr (List.nodup_dedup values)
  have hsorted : (uniqueStrings values).Pairwise (· ≤ ·) := List.pairwise_insertionSort _ _
  rw [uniqueStrings, hnodup.dedup, hsorted.insertionSort_eq]

/-- What was compiled passes the checks. -/
theorem Compiled.independentChecks (h : Compiled c request view p st links)
    {handles : List String} (hneutral : c.renderer = .neutral handles) :
    independentChecks view request c p.graph p.evidence p.admission = .ok view.manifest.tokens := by
  -- the selection is rendered and counted as the checks do it again
  obtain ⟨⟨materials, sections, hmaterials, hsections, hcontent, htokens⟩, hwithin⟩ :=
    rendered_of_select h.selected
  have hmanifestTokens : view.manifest.tokens = st.tokens := by
    rw [h.manifest]
    rfl
  -- the expansions were computed when the compiler was configured, sorted and without repetition
  have hexpanded : expansionIds request c.renderer = .ok p.expanded := by
    have hconfigured := h.configured
    simp only [configure, Except.bind_eq_ok, Except.pure_eq_ok, Prod.mk.injEq] at hconfigured
    obtain ⟨_, _, expanded, hexpanded, _, _, rfl, _⟩ := hconfigured
    exact hexpanded
  have hsame : p.expanded = view.manifest.expandedEvidence := by
    simp only [expansionIds, Except.bind_eq_ok, Except.pure_eq_ok] at hexpanded
    obtain ⟨_, _, requested, _, _, _, hunique⟩ := hexpanded
    rw [h.manifest]
    show _ = uniqueStrings p.expanded
    rw [← hunique, uniqueStrings_uniqueStrings]
  -- the handles of the view are those of the materials of its selection
  have hhandles : materials.map EvidenceMaterial.handle = view.evidenceHandles := by
    simp only [materialsOf, Except.bind_eq_ok, Except.pure_eq_ok] at hmaterials
    obtain ⟨_, _, rfl⟩ := hmaterials
    exact h.handles.symm
  simp only [Validate.independentChecks, Except.bind_eq_ok, raiseIf_eq_ok, Except.pure_eq_ok, not_not,
    not_or, ne_eq, Bool.not_eq_false, not_lt]
  -- each check finds what the compiler recorded
  refine ⟨(), h.valid, (), ⟨?_, ?_⟩, p.ranked, ranked_of_rank h.ranked, st.selected, h.membership,
    materials, hmaterials, (), hhandles, p.expanded, hexpanded, (), hsame, sections, hsections, (), ?_,
    st.content, hcontent, (), h.content.symm, st.tokens, htokens, (), ⟨hmanifestTokens.symm, hwithin⟩,
    (), h.checkManifest, hmanifestTokens.symm⟩
  · rw [h.report]
  · rw [h.manifest]
    rfl
  · rw [hneutral]
    rfl

end Complete

/-! ## Section 5: What passes -/

/-- What a view is that passes the checks. -/
structure Sound (c : ViewCompiler F) (request : CompileRequest F) (admission : AdmissionResult F)
    (g : ResolvedGraph F) (sources : Evidence) (view : CompiledView) : Prop where
  /-- Its selection is closed. -/
  closed : g.closeAtoms (selectedOf view) = .ok (selectedOf view)
  /-- Its selection has no conflict. -/
  compatible : g.conflictsFor (selectedOf view) = .ok []
  /-- Its decisions are one for each atom and each owner, by what is selected. -/
  decided : ∀ key, key ∈ view.manifest.decisions.map decisionKey ↔ key ∈ expectedKeys g
  outcomes : ∀ d ∈ view.manifest.decisions, d.outcome = .selected ↔ d.atomId ∈ selectedOf view
  /-- Over the ranking of the graph, its selection contains the closure of what is mandatory, and it is
  what the neutral renderer makes of its selection, counted within the budget. -/
  rendered : ∃ results expanded materials sections,
    ranked c g request = .ok results ∧
    (∃ closure, g.closeAtoms (mandatoryAtoms g request results) = .ok closure ∧
      closure ⊆ selectedOf view) ∧
    expansionIds request c.renderer = .ok expanded ∧
    materialsOf c.env sources (selectedOf view) = .ok materials ∧
    neutralRender c.env expanded request.task (rankedOf results (selectedOf view)) materials =
      .ok sections ∧
    renderedContent sections = .ok view.content ∧
    accountTokens sections c.counter request.budget = .ok view.manifest.tokens ∧
    view.evidenceHandles = materials.map EvidenceMaterial.handle
  within : view.manifest.tokens.total ≤ request.budget.available
  /-- Its manifest is the one of its selection and of the reasons that it records. -/
  manifest : ∃ expanded services, expansionIds request c.renderer = .ok expanded ∧
    serviceSnapshot c = .ok services ∧
    (rebuiltSession view request g admission (selectedOf view) expanded services).buildManifest c.env =
      .ok view.manifest
  report : view.validation = ⟨true, []⟩

/-- A selection that passed is the one of the decisions. -/
theorem membership_eq_ok {view : CompiledView} {results : List (RankedAtom F)}
    {selected : Finset String} (h : membership view g request results = .ok selected) :
    selected = selectedOf view ∧ g.closeAtoms selected = .ok selected ∧
      g.conflictsFor selected = .ok [] ∧
      (view.manifest.decisions.map decisionKey).toFinset = (expectedKeys g).toFinset ∧
      (∀ d ∈ view.manifest.decisions, d.outcome = .selected ↔ d.atomId ∈ selected) ∧
      ∃ closure, g.closeAtoms (mandatoryAtoms g request results) = .ok closure ∧
        closure ⊆ selected := by
  simp only [membership, Except.bind_eq_ok, raiseIf_eq_ok, Except.pure_eq_ok, not_not, not_or,
    ne_eq] at h
  obtain ⟨_, hkeys, closure, hclosure, _, hwithin, closed, hclosed, _, hself, _, houtcomes, conflicts,
    hconflicts, _, ⟨hnone, _⟩, _, _, _, _, _, _, rfl⟩ := h
  subst hself hnone
  refine ⟨rfl, hclosed, hconflicts, hkeys, fun d hd => ?_, closure, hclosure, hwithin⟩
  by_contra hdiffers
  exact houtcomes ⟨d, hd, hdiffers⟩

/-- **Agreement of the checks with the compiler**: with the stock renderer, and evidence that did not
change, a view that was compiled passes the independent checks over what is computed again; and
whatever view passes them is sound. -/
theorem checks_agree {handles : List String} (hneutral : c.renderer = .neutral handles) :
    (∀ now, Unchanged c request now → ∀ view, compileView c request = .ok view →
      ∃ admission g sources tokens, recomputed c request now = .ok (admission, g, sources) ∧
        independentChecks view request c g sources admission = .ok tokens) ∧
    ∀ now admission g sources, recomputed c request now = .ok (admission, g, sources) →
      ∀ view tokens, independentChecks view request c g sources admission = .ok tokens →
        Sound c request admission g sources view := by
  constructor
  -- what is computed again is what was prepared, since the evidence did not change
  · intro now hunchanged view hview
    obtain ⟨p, st, links, h⟩ := compileView_eq_ok hview
    refine ⟨p.admission, p.graph, p.evidence, _, ?_, h.independentChecks hneutral⟩
    simp only [recomputed, Except.bind_eq_ok, Except.pure_eq_ok]
    exact ⟨_, h.admitted, _, h.resolved, _,
      verifiedMaterials_of_sources (resolveGraph_owned h.resolved) hunchanged h.evidence, rfl⟩
  -- conversely every check that passed says one part of what a sound view is
  · intro now admission g sources _ view tokens h
    simp only [independentChecks, Except.bind_eq_ok, raiseIf_eq_ok, Except.pure_eq_ok, not_not, not_or,
      ne_eq, Bool.not_eq_false, not_lt] at h
    obtain ⟨_, hvalid, _, ⟨hreport, _⟩, results, hresults, selected, hmembership, materials, hmaterials,
      _, hhandles, expanded, hexpanded, _, _, sections, hsections, _, _, content, hcontent, _, rfl,
      accounted, htokens, _, ⟨hsame, hwithin⟩, _, hmanifest, rfl⟩ := h
    obtain ⟨rfl, hclosed, hcompatible, hkeys, houtcomes, hmandatory⟩ := membership_eq_ok hmembership
    simp only [checkManifest, Except.bind_eq_ok, raiseIf_eq_ok, not_not, ne_eq] at hmanifest
    obtain ⟨expanded', hexpanded', services, hservices, manifest, hbuilt, _, rfl, _⟩ := hmanifest
    refine ⟨hclosed, hcompatible, fun key => ?_, houtcomes, ?_, ?_, ?_, ?_⟩
    · rw [← List.mem_toFinset, hkeys, List.mem_toFinset]
    · rw [hsame] at htokens
      exact ⟨results, expanded, materials, sections, hresults, hmandatory, hexpanded, hmaterials,
        hsections, hcontent, htokens, hhandles.symm⟩
    -- the checks count anew, against the budget of the request
    · rw [← hsame, ← Compilation.available_of_accountTokens htokens]
      exact hwithin
    · exact ⟨expanded', services, hexpanded', hservices, hbuilt⟩
    -- a valid report without success would have a blocker, so this one has none
    · simp only [viewValid, Bool.and_eq_true] at hvalid
      obtain ⟨⟨⟨⟨⟨_, hconsistent⟩, _⟩, _⟩, _⟩, _⟩ := hvalid
      simp only [reportValid, hreport, Bool.and_eq_true, beq_iff_eq] at hconsistent
      have hblockers : view.validation.blockers = [] := List.isEmpty_iff.mp hconsistent.1.symm
      cases hvalidation : view.validation with
      | mk isValid blockers =>
        rw [hvalidation] at hreport hblockers
        subst hreport hblockers
        rfl

/-- The atom of the sample capsule in a scope of the sample task, with this name and class and the
atoms that it requires. -/
def currentAtom (atomId : String) (compressionClass : CompressionClass)
    (requiresAtoms : List String) : List (Atom (Number IntegralFloat)) :=
  sampleCapsule.semanticPayload.atoms.map fun atom =>
    { atom with
      atomId := atomId
      scope := ["path:p"]
      refreshPolicy := "immutable"
      compressionClass := compressionClass
      requiresAtoms := requiresAtoms }

/-- A capsule with an exact atom that requires another one, and a third atom that neither does. -/
def currentCapsule : Capsule (Number IntegralFloat) :=
  { sampleCapsule with
    semanticPayload :=
      { sampleCapsule.semanticPayload with
        atoms := currentAtom "a1" .p0Exact ["b1"] ++ currentAtom "b1" .p3Summary [] ++
          currentAtom "c1" .p3Summary [] }
    evidencePlane :=
      { sampleCapsule.evidencePlane with
        records := sampleCapsule.evidencePlane.records.map fun record =>
          { record with atomIds := ["a1", "b1", "c1"] } } }

theorem currentCapsule_valid : currentCapsule.valid = true := by
  have hsample := Capsule.valid_iff.mp sampleCapsule_valid
  apply Capsule.valid_iff.mpr
  exact { hsample with
    semanticPayload := by decide +kernel
    evidencePlane := by decide +kernel
    referencesClosed := by decide +kernel }

/-- The capsule, published. -/
def currentPublication : Publication IntegralFloat :=
  ⟨⟨currentCapsule, "PUBLISHED", "2026-01-01T00:00:00Z"⟩, currentCapsule_valid⟩

/-- The request of the capsule. -/
abbrev currentRequest : CompileRequest IntegralFloat := sampleRequest [currentPublication]

/-- The compiler of the samples, with that capsule in its registry. It finds the exact atom relevant
only. -/
def currentCompiler : ViewCompiler IntegralFloat :=
  { sampleCompiler with
    env := { sampleEnvironment with
      sha256 := fun text => if text = "text".toList then zeroDigest else "" }
    registry := fun _ _ _ => some currentPublication
    ranker := { sampleCompiler.ranker with
      rankAtoms := fun atoms _ => some (atoms.map fun atom =>
        ⟨atom, some ⟨0⟩, decide (atom.compressionClass = .p0Exact)⟩) }
    evidence := { sampleCompiler.evidence with
      resolve := fun p _ _ _ _ => .ok [sampleMaterial (capsuleRef (capsuleOf p)) ["a1", "b1", "c1"]] } }

theorem checks_agree_dependent :
    ∃ view admission g sources tokens,
      compileView currentCompiler currentRequest = .ok view ∧
        selectedOf view = {"a1", "b1"} ∧
        independentChecks view currentRequest currentCompiler g sources admission =
          .ok tokens ∧
        Sound currentCompiler currentRequest admission g sources view := by
  have hrender : ∀ (p : Prepared IntegralFloat) selected expanded,
      (p.compilation currentCompiler currentRequest).render selected expanded =
        (p.compilation currentCompiler currentRequest).neutralRendering selected
          (if expanded then p.expanded else []) :=
    fun _ => Compilation.render_neutral _ rfl
  have hcompiled : ((compileView currentCompiler currentRequest).toOption.map
      fun view => decide (selectedOf view = {"a1", "b1"})) = some true := by
    -- a manifest is as valid as its ordered form, which need not be computed for the check
    simp only [compileView, run, Compilation.select, Compilation.mandatory, Compilation.expand,
      hrender, result, Session.buildManifest, validateManifest, bind_assoc, pure_bind, viewValid,
      manifestValid_ordered]
    decide +kernel
  obtain ⟨view, hview, hselected⟩ := Option.map_eq_some_iff.mp hcompiled
  have hneutral : currentCompiler.renderer = .neutral [] := rfl
  obtain ⟨hcomplete, hsound⟩ := checks_agree hneutral
  obtain ⟨admission, g, sources, tokens, hrecomputed, hchecks⟩ :=
    hcomplete "2026-01-02T00:00:00Z" (fun _ _ => rfl) view (Except.toOption_eq_some.mp hview)
  exact ⟨view, admission, g, sources, tokens, Except.toOption_eq_some.mp hview,
    of_decide_eq_true hselected, hchecks, hsound _ admission g sources hrecomputed view tokens hchecks⟩

end ContractCapsule.Validate
