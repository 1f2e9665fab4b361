import Mathlib.Algebra.BigOperators.Group.List.Lemmas
import Mathlib.Data.Prod.Lex
import ContractCapsule.Library.Sorting
import ContractCapsule.Compile.Compiler

/-!
# Independence of the Order of Capsules

Two compilations of one request whose capsules come in different orders. The admission looks at
groups of publications and is free of the order; the digest of the request lists the publications
by a stable sort, so it is free of the order exactly when publications that the sort does not tell
apart are projected alike.
-/

namespace ContractCapsule.Compile

open Library Models Resolve

variable {F : Type} [FloatText F]

/-! ## Section 1: The admission -/

/-- The order of publication keys is the one of pairs. -/
theorem keyLe_iff (a b : String × String) :
    EligibilityResolver.keyLe a b ↔ toLex a ≤ toLex b := by
  rw [EligibilityResolver.keyLe, Prod.Lex.toLex_le_toLex]

section Admission

variable {r : EligibilityResolver F} {task : TaskContext} {principal : Principal}

open EligibilityResolver (publicationKey)

/-- What an admission makes of one publication. -/
def admitOne (r : EligibilityResolver F) (task : TaskContext) (principal : Principal)
    (p : Publication F) : Except CompileError (AdmittedCapsule F × List CompileError) :=
  if p.val.registryStatus ≠ "PUBLISHED" then .error .lifecycleDenied
  else r.admitCapsule (capsuleOf p) task principal

/-- The codes that the admission of a publication counts. -/
def deniedCodes : Except CompileError (AdmittedCapsule F × List CompileError) → List CompileError
  | .ok admitted => admitted.2
  | .error code => [code]

/-- Publications of one key and one identity are admitted alike. -/
theorem admitOne_congr {p q : Publication F} (hkey : publicationKey p = publicationKey q)
    (hidentity : r.identity p = r.identity q) :
    admitOne r task principal p = admitOne r task principal q := by
  simp only [EligibilityResolver.identity, publicationKey, Prod.mk.injEq] at hkey hidentity
  simp only [admitOne, EligibilityResolver.admitCapsule, EligibilityResolver.verified, hkey.1, hkey.2,
    hidentity.1, hidentity.2]

/-- The publications that an admission groups under a key. -/
abbrev group (capsules : List (Publication F)) (key : String × String) : List (Publication F) :=
  capsules.filter fun p => publicationKey p = key

/-- A group of one identity starts with a publication that is admitted like any other of it. -/
theorem head?_group_perm {capsules capsules' : List (Publication F)} (h : capsules.Perm capsules')
    {key : String × String} (hagrees : ((group capsules key).map r.identity).dedup.length = 1) :
    ((group capsules key).head?).map (admitOne r task principal) =
      ((group capsules' key).head?).map (admitOne r task principal) := by
  have hperm : (group capsules key).Perm (group capsules' key) := h.filter _
  obtain ⟨identity, hone⟩ := List.length_eq_one_iff.mp hagrees
  -- the members of the group differ in nothing that the admission looks at
  have hsame : ∀ p ∈ group capsules key, r.identity p = identity := by
    intro p hp
    have hmem := List.mem_dedup.mpr (List.mem_map_of_mem (f := r.identity) hp)
    rw [hone] at hmem
    exact List.mem_singleton.mp hmem
  have hkeys : ∀ p ∈ group capsules key, publicationKey p = key := fun p hp =>
    of_decide_eq_true (List.mem_filter.mp hp).2
  cases hfirst : group capsules key with
  | nil => rw [hfirst] at hperm; rw [hperm.nil_eq]
  | cons p ps =>
    cases hfirst' : group capsules' key with
    | nil => rw [hfirst, hfirst'] at hperm; exact absurd hperm.eq_nil (List.cons_ne_nil _ _)
    | cons q qs =>
      have hp : p ∈ group capsules key := by rw [hfirst]; exact List.mem_cons_self
      have hq : q ∈ group capsules key := by
        rw [hperm.mem_iff, hfirst']
        exact List.mem_cons_self
      rw [List.head?_cons, List.head?_cons, Option.map_some, Option.map_some]
      congr 1
      apply admitOne_congr
      · rw [hkeys p hp, hkeys q hq]
      · rw [hsame p hp, hsame q hq]

/-- The admission is the same for every order of the publications. -/
theorem resolve_perm {capsules capsules' : List (Publication F)} (h : capsules.Perm capsules') :
    r.resolve capsules task principal = r.resolve capsules' task principal := by
  have hkeys : (capsules.map publicationKey).dedup.insertionSort EligibilityResolver.keyLe =
      (capsules'.map publicationKey).dedup.insertionSort EligibilityResolver.keyLe :=
    sort_dedup_perm keyLe_iff toLex.injective (h.map _)
  have hgroup : ∀ key, (group capsules key).Perm (group capsules' key) := fun key => h.filter _
  have hagrees : ∀ key, ((group capsules key).map r.identity).dedup.length =
      ((group capsules' key).map r.identity).dedup.length := fun key =>
    ((hgroup key).map _).dedup.length_eq
  have hconflicts : (r.unique capsules).2 = (r.unique capsules').2 := by
    simp only [EligibilityResolver.unique, hkeys, hagrees, (hgroup _).length_eq]
  -- each key has one group, in which both orders find the same capsule
  have hresults : ((r.unique capsules).1.map (admitOne r task principal)) =
      ((r.unique capsules').1.map (admitOne r task principal)) := by
    simp only [EligibilityResolver.unique, hkeys, hagrees, List.map_filterMap]
    apply List.filterMap_congr
    intro key hkey
    have hone := of_decide_eq_true (List.mem_filter.mp hkey).2
    exact head?_group_perm h ((hagrees key).trans hone)
  have hadmitted : ∀ publications, r.admitAll task principal publications =
      ((publications.map (admitOne r task principal)).filterMap fun result =>
          (decision result).map Prod.fst,
        (publications.map (admitOne r task principal)).flatMap deniedCodes) := fun _ => rfl
  simp only [EligibilityResolver.resolve, hadmitted, hresults, hconflicts]

end Admission

/-! ## Section 2: The identity of a request -/

/-- Publications of one identifier, version and digest have one projection. -/
def TiesAgree (capsules : List (Publication F)) : Prop :=
  ∀ p ∈ capsules, ∀ q ∈ capsules, capsuleRef (capsuleOf p) = capsuleRef (capsuleOf q) →
    canonicalText (publicationProjection p) = canonicalText (publicationProjection q)

/-- The request with its capsules in another order. -/
def withCapsules (request : CompileRequest F) (capsules : List (Publication F)) :
    CompileRequest F :=
  { request with capsules := capsules }

/-- The key of the order of the projection. -/
def projectionKey (p : Publication F) : Lex (String × Lex (String × String)) :=
  let ref := capsuleRef (capsuleOf p)
  toLex (ref.capsuleId, toLex (ref.version, ref.digest))

theorem projectionLe_iff (p q : Publication F) :
    projectionLe p q ↔ projectionKey p ≤ projectionKey q := by
  simp only [projectionLe, projectionKey, Prod.Lex.toLex_le_toLex]

theorem projectionKey_eq_iff (p q : Publication F) :
    projectionKey p = projectionKey q ↔
      capsuleRef (capsuleOf p) = capsuleRef (capsuleOf q) := by
  cases hp : capsuleRef (capsuleOf p) with
  | mk id version digest =>
    cases hq : capsuleRef (capsuleOf q) with
    | mk id' version' digest' =>
      simp [projectionKey, hp, hq]

/-- The publications of a request in the order of its projection. -/
theorem projected_eq (capsules : List (Publication F)) :
    capsules.insertionSort projectionLe = sortBy projectionKey capsules :=
  insertionSort_congr projectionLe_iff capsules

/-- Two requests that differ in the order of their capsules have one projection exactly when the
projected publications are the same in order. -/
theorem projection_eq_iff (request : CompileRequest F) (capsules capsules' : List (Publication F)) :
    canonicalText (compileRequestProjection (withCapsules request capsules)) =
        canonicalText (compileRequestProjection (withCapsules request capsules')) ↔
      (sortBy projectionKey capsules).map (fun p => canonicalText (publicationProjection p)) =
        (sortBy projectionKey capsules').map fun p => canonicalText (publicationProjection p) := by
  rw [canonicalText_eq_iff_same]
  simp only [compileRequestProjection, withCapsules]
  refine (Json.same_object (by rfl) (by simp)).trans ?_
  simp only [List.map_cons, List.map_nil, List.forall₂_cons, List.forall₂_nil_left_iff,
    Json.Same.refl, and_true, Json.same_array, projected_eq]
  rw [← List.forall₂_eq_eq_eq, List.forall₂_map_left_iff, List.forall₂_map_right_iff,
    List.forall₂_map_left_iff, List.forall₂_map_right_iff]
  simp only [canonicalText_eq_iff_same]

/-- When the publications that are not told apart agree, every order has one digest. -/
theorem projection_perm {request : CompileRequest F} {capsules capsules' : List (Publication F)}
    (h : capsules.Perm capsules') (hties : TiesAgree capsules) :
    canonicalText (compileRequestProjection (withCapsules request capsules)) =
      canonicalText (compileRequestProjection (withCapsules request capsules')) := by
  rw [projection_eq_iff]
  apply map_sortBy_perm h
  intro p hp q hq hkey
  exact hties p hp q hq ((projectionKey_eq_iff p q).mp hkey)

/-! ## Section 3: Two runs -/

/-- Compilations of two orders with one digest have one result. -/
theorem compileView_perm {c : ViewCompiler F} {request : CompileRequest F}
    {capsules capsules' : List (Publication F)} (h : capsules.Perm capsules')
    (hdigest : canonicalText (compileRequestProjection (withCapsules request capsules)) =
      canonicalText (compileRequestProjection (withCapsules request capsules'))) :
    compileView c (withCapsules request capsules) = compileView c (withCapsules request capsules') := by
  -- the admission is the only place where the publications are read, apart from the digest
  have hprepare : prepare c (withCapsules request capsules) =
      prepare c (withCapsules request capsules') := by
    have hadmission : ∀ asOf task principal,
        (c.resolver asOf).resolve (withCapsules request capsules).capsules task principal =
          (c.resolver asOf).resolve (withCapsules request capsules').capsules task principal :=
      fun _ _ _ => resolve_perm h
    simp only [prepare, hadmission]
    rfl
  have hselect : ∀ p : Prepared F, (p.compilation c (withCapsules request capsules)).select =
      (p.compilation c (withCapsules request capsules')).select := fun _ => rfl
  have hmanifest : ∀ (p : Prepared F) st links,
      (p.session (withCapsules request capsules) st).manifest c.env links =
        (p.session (withCapsules request capsules') st).manifest c.env links := by
    intro p st links
    simp only [Session.manifest, Prepared.session, snapshotDigest, hdigest]
    rfl
  have hresult : ∀ (p : Prepared F) st,
      result c.env (p.session (withCapsules request capsules) st) p.evidence st.content =
        result c.env (p.session (withCapsules request capsules') st) p.evidence st.content := by
    intro p st
    simp only [result, Session.buildManifest, hmanifest]
    rfl
  have hrun : run c (withCapsules request capsules) = run c (withCapsules request capsules') := by
    simp only [run, hprepare, hselect, hresult]
    rfl
  simp only [compileView, hrun]
  rfl

/-! ## Section 4: Services that admit nothing -/

/-- Services that admit nothing. -/
def idleCompiler (sha256 : List Char → String) : ViewCompiler F where
  env := {
    sha256 := sha256
    precedence := fun _ _ => .eq
    semanticVersion := "2.10.0"
    scanSecrets := fun _ => false
    sourceSpan := fun _ text => .ok (text, none) }
  registry := fun _ _ _ => none
  authorizer := {
    version := "1.0.0"
    authorize := fun _ _ _ _ => none
    contextDigest := fun _ _ => some zeroDigest }
  freshness := {
    version := "1.0.0"
    check := fun _ _ _ => none
    contextDigest := some zeroDigest }
  ranker := {
    version := "1.0.0"
    configDigest := zeroDigest
    rankAtoms := fun _ _ => some [] }
  counter := {
    modelId := "m"
    profile := "f"
    version := "1.0.0"
    configDigest := zeroDigest
    count := fun _ => some 0 }
  evidence := {
    version := "1.0.0"
    configDigest := zeroDigest
    native := true
    resolve := fun _ _ _ _ _ => .error .evidenceUnavailable
    expand := fun _ _ _ _ => .error .evidenceUnavailable }
  renderer := .neutral []

/-- A request of those services, without capsules. -/
def idleRequest : CompileRequest F where
  capsules := []
  task := sampleTask
  principal := ⟨"p"⟩
  budget := {
    modelInputTokens := 0
    systemTokens := 0
    conversationTokens := 0
    toolsTokens := 0
    safetyHeadroomTokens := 0
    bounded := by decide
    nonnegativeAvailable := by decide }
  asOf := "2026-01-02T00:00:00Z"
  modelId := "m"
  tokenizerProfile := "f"
  rendererVersion := neutralVersion
  runtimeConfig := []
  expectedManifestDigest := none
  frozen := rfl

/-- The graph of an admission that admits nothing. -/
def idleGraph (configDigest : String) : ResolvedGraph F :=
  ⟨[], [], [], [], [], [], configDigest, "1.0.1"⟩

variable (sha256 : List Char → String)

/-- Each capsule of a request is denied at most once before any is looked at. -/
theorem unique_length (r : EligibilityResolver F) (capsules : List (Publication F)) :
    (r.unique capsules).1.length + (r.unique capsules).2.length ≤ capsules.length := by
  -- a group that agrees keeps its first member, and any other one is denied member by member
  have hparts : ∀ (agrees : String × String → Prop) [DecidablePred agrees]
      (keys : List (String × String)),
      ((keys.filter agrees).filterMap fun key => (group capsules key).head?).length +
        ((keys.filter fun key => ¬ agrees key).flatMap fun key =>
          List.replicate (group capsules key).length CompileError.conflictingPublication).length ≤
        (keys.map fun key => (group capsules key).length).sum := by
    intro agrees _ keys
    induction keys with
    | nil => simp
    | cons key keys ih =>
      have hfirst : ((group capsules key).head?.toList).length ≤ (group capsules key).length := by
        cases group capsules key <;> simp
      simp only [List.filter_cons, List.map_cons, List.sum_cons]
      by_cases hagrees : agrees key
      · generalize (group capsules key).length = n at hfirst ⊢
        cases hhead : (group capsules key).head? with
        | none =>
          simp only [hagrees, hhead, decide_true, if_true, not_true_eq_false, decide_false,
            Bool.false_eq_true, if_false, List.filterMap_cons]
          omega
        | some p =>
          rw [hhead] at hfirst
          simp only [hagrees, decide_true, if_true, not_true_eq_false, decide_false,
            Bool.false_eq_true, if_false, List.filterMap_cons, hhead, List.length_cons,
            Option.toList_some, List.length_nil] at hfirst ⊢
          omega
      · simp only [hagrees, decide_false, Bool.false_eq_true, if_false, not_false_eq_true,
          decide_true, if_true, List.flatMap_cons, List.length_append, List.length_replicate]
        omega
  -- the groups of the distinct keys are the capsules, counted once each
  have hsum : (((capsules.map EligibilityResolver.publicationKey).dedup.insertionSort
      EligibilityResolver.keyLe).map fun key => (group capsules key).length).sum =
        capsules.length := by
    have hcounts := List.sum_map_count_dedup_eq_length
      (capsules.map EligibilityResolver.publicationKey)
    rw [List.length_map] at hcounts
    rw [((List.perm_insertionSort _ _).map _).sum_nat, ← hcounts]
    refine congrArg List.sum (List.map_congr_left fun key _ => ?_)
    change _ = List.countP (fun found => decide (found = key)) (capsules.map _)
    rw [List.countP_map, List.countP_eq_length_filter]
    rfl
  rw [← hsum]
  exact hparts _ _

/-- The counts of some codes are counts that a manifest can have. -/
theorem countsValid_counts {codes : List CompileError} (h : codes.length ≤ maxCount) :
    countsValid (EligibilityResolver.counts codes) = true := by
  simp only [countsValid, EligibilityResolver.counts, List.all_map, List.all_eq_true,
    Function.comp_apply, Bool.and_eq_true, decide_eq_true_eq]
  intro text htext
  rw [uniqueStrings, List.mem_insertionSort, List.mem_dedup, List.mem_map] at htext
  obtain ⟨code, _, rfl⟩ := htext
  refine ⟨by cases code <;> rfl, ?_⟩
  have hle := List.count_le_length (a := code.code) (l := codes.map CompileError.code)
  rw [List.length_map] at hle
  omega

/-- The idle services deny every capsule. -/
theorem idle_admission (capsules : List (Publication F)) (h : capsules.length ≤ maxCount) :
    ∃ counts permission freshness, countsValid counts = true ∧
      ((idleCompiler sha256).resolver (F := F) "2026-01-02T00:00:00Z").resolve capsules sampleTask ⟨"p"⟩ =
        .ok ⟨[], counts, permission, freshness⟩ := by
  generalize hr : (idleCompiler sha256).resolver (F := F) "2026-01-02T00:00:00Z" = r
  -- a publication is denied by its status or by the registry, which knows none
  have hdenied : ∀ p : Publication F, ∃ code, admitOne r sampleTask ⟨"p"⟩ p = .error code := by
    intro p
    rw [← hr]
    unfold admitOne
    split
    · exact ⟨_, rfl⟩
    · exact ⟨.registryIntegrity, rfl⟩
  -- so of any publications none is admitted and each is denied once
  have hall : ∀ publications : List (Publication F),
      (r.admitAll sampleTask ⟨"p"⟩ publications).1 = [] ∧
        (r.admitAll sampleTask ⟨"p"⟩ publications).2.length = publications.length := by
    intro publications
    induction publications with
    | nil => exact ⟨rfl, rfl⟩
    | cons p ps ih =>
      obtain ⟨code, hcode⟩ := hdenied p
      unfold admitOne at hcode
      simp only [EligibilityResolver.admitAll, List.map_cons, hcode] at ih ⊢
      exact ⟨ih.1, congrArg Nat.succ ih.2⟩
  obtain ⟨hnone, hlength⟩ := hall (r.unique capsules).1
  -- the snapshot is there all the same: the digest and the version that it records are well formed
  have hsnapshot : ∃ permission freshness,
      r.snapshot sampleTask ⟨"p"⟩ = .ok (permission, freshness) := by
    have hdigest : isDigest zeroDigest = true := by decide +kernel
    have hversion : isSemVer "1.0.0" = true := by decide +kernel
    rw [← hr]
    simp only [EligibilityResolver.snapshot, Except.bind_eq_ok, raiseIf_eq_ok, Except.pure_eq_ok]
    refine ⟨_, _, zeroDigest, rfl, zeroDigest, rfl, (), ?_, rfl⟩
    simp [ViewCompiler.resolver, idleCompiler, hdigest, hversion]
  obtain ⟨permission, freshness, hsnapshot⟩ := hsnapshot
  refine ⟨EligibilityResolver.counts ((r.unique capsules).2 ++
    (r.admitAll sampleTask ⟨"p"⟩ (r.unique capsules).1).2),
    permission, freshness, countsValid_counts ?_, ?_⟩
  · have hunique := unique_length r capsules
    rw [List.length_append, hlength]
    omega
  · simp only [EligibilityResolver.resolve, hsnapshot, Except.ok_bind, raiseIf_of_not, ne_eq,
      not_true_eq_false, not_false_eq_true, hnone]
    rfl

/-- A stamp that is made can stand in a manifest. -/
theorem stamp_valid {env : Environment F} {name version configDigest : String} {isComputed : Bool}
    {made : ServiceStamp} (hname : name ≠ "")
    (h : stamp env name version configDigest isComputed = .ok made) : stampValid made = true := by
  simp only [stamp, scan, Except.bind_eq_ok, raiseIf_eq_ok, Except.pure_eq_ok] at h
  obtain ⟨_, hversion, _, _, _, _, _, _, rfl⟩ := h
  simp [stampValid, isNonEmpty, hname, hversion]

/-- The stamps of the services can stand in a manifest. -/
theorem serviceSnapshot_valid {c : ViewCompiler F} {services : List ServiceStamp}
    (h : serviceSnapshot c = .ok services) (hversion : c.env.semanticVersion ≠ "") :
    services.all stampValid = true := by
  simp only [serviceSnapshot, Except.bind_eq_ok, Except.pure_eq_ok] at h
  obtain ⟨_, hranker, _, htokenizer, _, hrenderer, _, hevidence, rfl⟩ := h
  simp only [List.all_cons, stamp_valid (by decide) hranker, stamp_valid (by decide) htokenizer,
    stamp_valid (by decide) hrenderer, stamp_valid (by decide) hevidence]
  simp [stampValid, isNonEmpty, hversion]

/-- The idle services are configured, and their stamps can stand in a manifest. -/
theorem idle_configure (capsules : List (Publication F)) :
    ∃ services, configure (idleCompiler sha256) (withCapsules idleRequest capsules) =
        .ok ([], services) ∧
      services.all stampValid = true := by
  have hdigest : isDigest zeroDigest = true := by decide +kernel
  have hversion : isSemVer "1.0.0" = true := by decide +kernel
  -- the version of a renderer and a digest that is computed are not checked
  have hstamp : ∀ name version digest isComputed, version ≠ "" →
      (isComputed = false → isDigest digest = true) →
      (name ≠ "renderer" → isSemVer version = true) →
      stamp (idleCompiler (F := F) sha256).env name version digest isComputed =
        .ok ⟨name, version, digest⟩ := by
    intro name version digest isComputed hnonempty hchecked hsemantic
    simp only [stamp, scan, Except.bind_eq_ok, raiseIf_eq_ok, Except.pure_eq_ok]
    refine ⟨(), hnonempty, (), ?_, (), ?_, (), Bool.false_ne_true, trivial⟩
    · rintro ⟨hcomputed, hinvalid⟩
      rw [hchecked hcomputed] at hinvalid
      cases hinvalid
    · rintro ⟨hname, hinvalid⟩
      rw [hsemantic hname] at hinvalid
      cases hinvalid
  have hnonempty : "1.0.0" ≠ "" := by decide
  have hservices : ∃ services, serviceSnapshot (idleCompiler (F := F) sha256) = .ok services := by
    simp only [serviceSnapshot, Except.bind_eq_ok]
    exact ⟨_, _, hstamp _ _ _ _ hnonempty (fun _ => hdigest) fun _ => hversion,
      _, hstamp _ _ _ _ hnonempty (fun _ => hdigest) fun _ => hversion,
      _, hstamp _ _ _ _ (show neutralVersion ≠ "" by decide) (by intro h; cases h)
        (by intro h; exact absurd rfl h),
      _, hstamp _ _ _ _ hnonempty (fun _ => hdigest) fun _ => hversion, rfl⟩
  obtain ⟨services, hservices⟩ := hservices
  refine ⟨services, ?_, serviceSnapshot_valid hservices (show "2.10.0" ≠ "" by decide)⟩
  simp only [configure, Except.bind_eq_ok]
  exact ⟨(), rfl, [], rfl, services, hservices, rfl⟩

/-- What the idle services have prepared when their selection starts. -/
def idlePrepared (services : List ServiceStamp) (admission : AdmissionResult F)
    (configDigest : String) : Prepared F :=
  ⟨[], services, admission, idleGraph configDigest, [], []⟩

/-- The idle services reach their selection. -/
theorem idle_prepare {capsules : List (Publication F)} (h : capsules.length ≤ maxCount) :
    ∃ services admission configDigest, services.all stampValid = true ∧
      countsValid admission.rejectedCounts = true ∧
      prepare (idleCompiler sha256) (withCapsules idleRequest capsules) =
        .ok (idlePrepared services admission configDigest) := by
  obtain ⟨services, hconfigure, hstamps⟩ := idle_configure sha256 capsules
  obtain ⟨counts, permission, freshness, hcounts, hadmission⟩ :=
    idle_admission sha256 capsules h
  -- without items there is nothing to wire, whatever the task
  have hgraph : ∃ configDigest, resolveGraph (F := F) (idleCompiler (F := F) sha256).env.precedence
      sha256 ⟨[], counts, permission, freshness⟩ sampleTask = .ok (idleGraph configDigest) :=
    ⟨_, rfl⟩
  obtain ⟨configDigest, hgraph⟩ := hgraph
  refine ⟨services, ⟨[], counts, permission, freshness⟩, configDigest, hstamps, hcounts, ?_⟩
  simp only [prepare, Except.bind_eq_ok, hconfigure, Except.ok.injEq]
  exact ⟨_, rfl, _, hadmission, _, hgraph, [], rfl, ∅, rfl, [], rfl, rfl⟩

/-- The selection of the idle graph is empty. -/
theorem idle_select (capsules : List (Publication F)) (services : List ServiceStamp)
    (admission : AdmissionResult F) (configDigest : String) :
    ∃ st, ((idlePrepared services admission configDigest).compilation (idleCompiler sha256)
        (withCapsules idleRequest capsules)).select = .ok st ∧
      st.selected = ∅ ∧ st.conflicts = [] ∧ tokensValid st.tokens = true ∧
      st.tokens.total ≤ st.tokens.available := by
  generalize hs : (idlePrepared services admission configDigest).compilation
    (idleCompiler sha256) (withCapsules idleRequest capsules) = s
  have hrenderer : s.compiler.renderer = .neutral [] := by rw [← hs]; rfl
  have hclose : s.closeWithoutConflict ∅ = .ok (∅, []) := by rw [← hs]; rfl
  -- nothing is rendered for no atoms, and nothing costs no tokens
  have hneutral : ∃ content tokens, s.neutralRendering ∅ [] = .ok (content, tokens) ∧
      tokensValid tokens = true ∧ tokens.total ≤ tokens.available := by
    have hrendered : ∃ sections, neutralRender (F := F) (idleCompiler sha256).env [] sampleTask [] [] =
        .ok sections ∧ ∃ content, renderedContent sections = .ok content ∧ ∃ tokens,
        accountTokens sections (idleCompiler (F := F) sha256).counter (idleRequest (F := F)).budget =
          .ok tokens ∧ tokens.total = 0 := ⟨_, rfl, _, rfl, _, rfl, rfl⟩
    obtain ⟨sections, hsections, content, hcontent, tokens, htokens, hzero⟩ := hrendered
    refine ⟨content, tokens, ?_, accountTokens_valid htokens, hzero ▸ Nat.zero_le _⟩
    rw [← hs]
    simp only [Compilation.neutralRendering, Except.bind_eq_ok]
    exact ⟨[], rfl, (), rfl, (), rfl, sections, hsections, content, hcontent, tokens, htokens, rfl⟩
  obtain ⟨content, tokens, hneutral, hvalid, hwithin⟩ := hneutral
  -- both mandatory steps therefore start from nothing and end with nothing
  have hmandatory : ∀ seeds reason overflow st, st.selected ∪ seeds = ∅ → ∃ reasons,
      s.mandatory seeds reason overflow st = .ok ⟨∅, reasons, content, tokens, []⟩ := by
    intro seeds reason overflow st hempty
    simp only [Compilation.mandatory, hempty, hclose, Except.ok_bind,
      Compilation.render_neutral s hrenderer, Bool.false_eq_true, if_false, hneutral,
      gt_iff_lt, raiseIf_of_not, Nat.not_lt.mpr hwithin, not_false_eq_true]
    exact ⟨_, rfl⟩
  obtain ⟨reasons, hexact⟩ := hmandatory s.p0Seeds "P0_REQUIRED" .p0Overflow s.unselected
    (by rw [← hs]; rfl)
  obtain ⟨reasons', hrequired⟩ := hmandatory s.taskSeeds "TASK_REQUIRED" .p1Overflow
    ⟨∅, reasons, content, tokens, []⟩ (by rw [← hs]; rfl)
  -- and the loop over the ranked atoms has nothing to consider
  have hranked : s.ranked = [] := by rw [← hs]; rfl
  have hexpanded : s.expanded = [] := by rw [← hs]; rfl
  have hexpand : s.expand ⟨∅, reasons', content, tokens, []⟩ =
      .ok ⟨∅, reasons', content, tokens, []⟩ := by
    simp [Compilation.expand, hexpanded]
  refine ⟨⟨∅, reasons', content, tokens, []⟩, ?_, rfl, rfl, hvalid, hwithin⟩
  unfold Compilation.select
  rw [hexact, Except.ok_bind, hrequired, Except.ok_bind, hranked]
  exact hexpand

/-- A session whose manifest passes its checks, and whose tokens fit, has a view. -/
theorem result_of_valid {env : Environment F} {s : Session F} {evidence : Evidence}
    {links : List ClosureLink} (content : List Char) (hselected : s.selected ⊆ s.graph.atomIds)
    (hlinks : s.graph.closureLinks s.selected = .ok links)
    (hvalid : manifestValid (s.manifest env links) = true)
    (hhandles : (evidenceHandles env evidence s.selected).all handleValid = true)
    (hwithin : s.tokens.total ≤ s.tokens.available) :
    result env s evidence content = .ok {
      content := content
      manifest := ordered F (s.manifest env links)
      validation := { isValid := true, blockers := [] }
      evidenceHandles := evidenceHandles env evidence s.selected } := by
  have hbuilt : s.buildManifest env = .ok (ordered F (s.manifest env links)) := by
    simp only [Session.buildManifest, validateManifest, hselected, hlinks, hvalid, Except.ok_bind,
      raiseIf_of_not, not_true_eq_false, not_false_eq_true, Bool.true_eq_false]
    rfl
  -- the view repeats what the manifest holds, so its own checks add nothing
  have hview : viewValid {
      content := content
      manifest := ordered F (s.manifest env links)
      validation := { isValid := true, blockers := [] }
      evidenceHandles := evidenceHandles env evidence s.selected } = true := by
    have hreport : reportValid { isValid := true, blockers := [] } = true := rfl
    have htokens : (ordered F (s.manifest env links)).tokens = s.tokens := rfl
    have hreported : (ordered F (s.manifest env links)).validation =
        { isValid := true, blockers := [] } := rfl
    simp only [viewValid, manifestValid_ordered, hvalid, hreport, hhandles, hreported, htokens,
      hwithin, decide_true]
    rfl
  simp only [result, hbuilt, Except.ok_bind, hview, raiseIf_of_not, not_false_eq_true,
    Bool.true_eq_false]
  rfl

/-- The manifest of a session that has nothing but stamps and counts. -/
theorem idle_manifestValid {s : Session F} (env : Environment F)
    {capsules : List (Publication F)} (hrequest : s.request = withCapsules idleRequest capsules)
    (hgraph : ∃ configDigest, s.graph = idleGraph configDigest)
    (hrejected : countsValid s.admission.rejectedCounts = true)
    (hservices : s.services.all stampValid = true) (hexpanded : s.expanded = [])
    (hconflicts : s.conflicts = []) (htokens : tokensValid s.tokens = true) :
    manifestValid (s.manifest env []) = true := by
  obtain ⟨configDigest, hgraph⟩ := hgraph
  have hversion : isSemVer compilerVersion = true := by decide +kernel
  have htime : isTimestampString "2026-01-02T00:00:00Z" = true := by decide +kernel
  -- every list of the manifest but the stamps and the counts is empty
  have hparticipating : s.participating = [] := by rw [Session.participating, hgraph]; rfl
  have hdecisions : s.decisions = [] := by rw [Session.decisions, hgraph]; rfl
  have hproviders : s.graph.providers = [] := by rw [hgraph]; rfl
  have hstamp : stampValid (graphStamp s.graph) = true := by rw [hgraph]; rfl
  simp only [manifestValid, Session.manifest, hparticipating, hdecisions, hproviders, hrequest,
    hrejected, hexpanded, hconflicts, htokens, hversion, List.all_append, hservices, List.all_cons,
    hstamp, withCapsules, idleRequest, htime, List.filter_nil]
  rfl

/-- The idle services compile every request of theirs, and record its identity. -/
theorem idle_compiles {capsules : List (Publication F)} (h : capsules.length ≤ maxCount) :
    ∃ view, compileView (idleCompiler sha256) (withCapsules idleRequest capsules) = .ok view ∧
      view.manifest.requestDigest =
        sha256 (canonicalText (compileRequestProjection (withCapsules idleRequest capsules))) := by
  obtain ⟨services, admission, configDigest, hstamps, hcounts, hprepare⟩ :=
    idle_prepare sha256 h
  obtain ⟨st, hselect, hselected, hconflicts, htokens, hwithin⟩ :=
    idle_select sha256 capsules services admission configDigest
  generalize hp : idlePrepared services admission configDigest = p at hprepare hselect
  generalize hs : p.session (withCapsules idleRequest capsules) st = s
  -- the session is made of the parts that were prepared and selected
  have hrequest : s.request = withCapsules idleRequest capsules := by rw [← hs]; rfl
  have hempty : s.selected = ∅ := by rw [← hs]; exact hselected
  have hgraph : s.graph = idleGraph configDigest := by rw [← hs, ← hp]; rfl
  have hrefused : s.admission = admission := by rw [← hs, ← hp]; rfl
  have hstamped : s.services = services := by rw [← hs, ← hp]; rfl
  have hexpanded : s.expanded = [] := by rw [← hs, ← hp]; rfl
  have hunopposed : s.conflicts = [] := by rw [← hs]; exact hconflicts
  have hcounted : s.tokens = st.tokens := by rw [← hs]; rfl
  have hlinks : s.graph.closureLinks s.selected = .ok [] := by rw [hgraph, hempty]; rfl
  have hvalid := idle_manifestValid (idleCompiler sha256).env hrequest ⟨configDigest, hgraph⟩
    (hrefused ▸ hcounts) (hstamped ▸ hstamps) hexpanded hunopposed (hcounted ▸ htokens)
  have hhandles : (evidenceHandles (idleCompiler (F := F) sha256).env p.evidence s.selected).all
      handleValid = true := by
    rw [← hp]
    rfl
  have hresult := result_of_valid st.content (hempty ▸ Finset.empty_subset _) hlinks hvalid hhandles
    (hcounted ▸ hwithin)
  have hrequested : validateRequest (idleCompiler (F := F) sha256).env
      (withCapsules idleRequest capsules) = .ok () := rfl
  have hchecked : finalChecks p.graph (withCapsules idleRequest capsules) st.selected = .ok () := by
    rw [← hp, hselected]
    rfl
  refine ⟨{
    content := st.content
    manifest := ordered F (s.manifest (idleCompiler sha256).env [])
    validation := { isValid := true, blockers := [] }
    evidenceHandles := evidenceHandles (idleCompiler (F := F) sha256).env p.evidence s.selected },
    ?_, ?_⟩
  -- each step of the compilation succeeds on these parts, and its result is the ordered manifest
  · unfold compileView run
    rw [hrequested, Except.ok_bind, hprepare, Except.ok_bind, hselect, Except.ok_bind, hs, hchecked,
      Except.ok_bind, hresult, Except.ok_bind]
    rfl
  · rw [← hrequest]
    rfl

/-! ## Section 5: When the order makes no difference -/

/-- What a caller sees of a compilation: the code of a failure, or the content and the manifest. -/
def outcome (view : Except CompileError CompiledView) :
    Except CompileError (List Char × ViewManifest) :=
  view.map fun v => (v.content, v.manifest)

/-- Orders that have one digest agree wherever the projection does not tell publications apart. -/
theorem tiesAgree_of_projections (request : CompileRequest F) {capsules : List (Publication F)}
    (h : ∀ capsules' : List (Publication F), capsules'.Perm capsules →
      canonicalText (compileRequestProjection (withCapsules request capsules')) =
        canonicalText (compileRequestProjection (withCapsules request capsules))) :
    TiesAgree capsules := by
  classical
  intro p hp q hq hsame
  -- either of the two can be put in front, where a stable sort keeps it among its ties
  have hpfirst := (List.perm_cons_erase hp).symm
  have hqfirst := (List.perm_cons_erase hq).symm
  have himages := (projection_eq_iff request _ _).mp ((h _ hpfirst).trans (h _ hqfirst).symm)
  apply tie_of_map_sortBy (hpfirst.trans hqfirst.symm) ?_ himages
  exact (projectionKey_eq_iff p q).mpr hsame

variable {sha256} in
/-- Compilation is independent of the order of its publications exactly when those of one
identifier, version and digest are projected alike. -/
theorem compileView_order_independent_iff (hsha256 : Function.Injective sha256)
    {capsules : List (Publication F)} (hlength : capsules.length ≤ maxCount) :
    (∀ c : ViewCompiler F, c.env.sha256 = sha256 → ∀ (request : CompileRequest F)
      (capsules' : List (Publication F)), capsules'.Perm capsules →
        outcome (compileView c (withCapsules request capsules')) =
          outcome (compileView c (withCapsules request capsules))) ↔
      TiesAgree capsules := by
  constructor
  · intro hindependent
    apply tiesAgree_of_projections idleRequest
    intro capsules' hperm
    -- the idle services compile both orders, so the two digests have to be the same
    obtain ⟨view, hview, hdigest⟩ := idle_compiles sha256 hlength
    obtain ⟨view', hview', hdigest'⟩ := idle_compiles sha256
      (hperm.length_eq.trans_le hlength)
    have hsame := hindependent (idleCompiler sha256) rfl idleRequest capsules' hperm
    rw [hview, hview'] at hsame
    have hmanifest : view'.manifest = view.manifest := congrArg Prod.snd (Except.ok.inj hsame)
    apply hsha256
    rw [← hdigest, ← hdigest', hmanifest]
  · intro hties c _ request capsules' hperm
    rw [compileView_perm hperm (projection_perm hperm.symm hties).symm]

/-- The sample capsule under a registry status. -/
def samplePublication (status : String) : Publication IntegralFloat :=
  ⟨⟨sampleCapsule, status, "2026-01-01T00:00:00Z"⟩, sampleCapsule_valid⟩

theorem compileView_order_independent_iff_sample :
    (∀ c : ViewCompiler IntegralFloat, c.env.sha256 = String.ofList →
      ∀ (request : CompileRequest IntegralFloat) (capsules' : List (Publication IntegralFloat)),
        capsules'.Perm [samplePublication "PUBLISHED", samplePublication "PUBLISHED"] →
          outcome (compileView c (withCapsules request capsules')) =
            outcome (compileView c (withCapsules request
              [samplePublication "PUBLISHED", samplePublication "PUBLISHED"]))) ↔
      TiesAgree [samplePublication "PUBLISHED", samplePublication "PUBLISHED"] :=
  compileView_order_independent_iff (fun _ _ h => String.ofList_injective h) (by decide)

/-- Two entries of one capsule, one of them not published, have a manifest for each order. -/
theorem order_of_statuses_recorded :
    (compileView (idleCompiler String.ofList) (withCapsules idleRequest
      [samplePublication "PUBLISHED", samplePublication "REVOKED"])).toOption.map
        (fun v => v.manifest.requestDigest) ≠
    (compileView (idleCompiler String.ofList) (withCapsules idleRequest
      [samplePublication "REVOKED", samplePublication "PUBLISHED"])).toOption.map
        (fun v => v.manifest.requestDigest) := by
  obtain ⟨view, hview, hdigest⟩ := idle_compiles String.ofList
    (show [samplePublication "PUBLISHED", samplePublication "REVOKED"].length ≤ maxCount by decide)
  obtain ⟨view', hview', hdigest'⟩ := idle_compiles String.ofList
    (show [samplePublication "REVOKED", samplePublication "PUBLISHED"].length ≤ maxCount by decide)
  rw [hview, hview']
  simp only [Except.toOption, Option.map_some, hdigest, hdigest', ne_eq, Option.some.injEq]
  intro hsame
  have htexts := (projection_eq_iff idleRequest _ _).mp (String.ofList_injective hsame)
  have hkey : projectionKey (samplePublication "PUBLISHED") =
      projectionKey (samplePublication "REVOKED") := rfl
  have htie := tie_of_map_sortBy (List.Perm.swap _ _ _) hkey htexts
  have hstatus := (Json.same_object (by rfl) (by simp)).mp (canonicalText_eq_iff_same.mp htie)
  simp [Json.same_string, samplePublication] at hstatus

end ContractCapsule.Compile
