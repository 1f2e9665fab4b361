import ContractCapsule.Library.Loops
import ContractCapsule.Library.Table
import ContractCapsule.Twin.Subjects

/-!
# What a Bound Execution Guarantees

The guarantees that `parse_execution_contract` establishes before anything runs: the bindings of the
profile and the clauses of the contract correspond one to one, every binding expects what the role
of its clause says, and the programs under test share no identifier, path or bytes with the programs
that judge them.

`parseExecutionContract_governs` puts them together.
-/

namespace ContractCapsule.Twin

open Library Models

variable {F : Type} [FloatText F]

/-! ## Section 1: Paths of clauses -/

/-- The path of a clause. -/
def clausePathOf (collection : String) (index : ℕ) : String :=
  collection ++ "/" ++ toString index

/-- The index of a path is what follows its last slash. -/
theorem clausePathOf_inj {a b : String} {i j : ℕ} (h : clausePathOf a i = clausePathOf b j) :
    a = b ∧ i = j := by
  have hdigits : ∀ n : ℕ, ∀ c ∈ (Nat.toDigits 10 n).reverse, (c != '/') = true := by
    intro n c hc
    have hdigit := Json.isDigit_toDigits (List.mem_reverse.mp hc)
    rw [bne_iff_ne]
    intro hslash
    rw [hslash] at hdigit
    exact absurd hdigit (by decide)
  have hlists : (Nat.toDigits 10 i).reverse ++ '/' :: a.toList.reverse =
      (Nat.toDigits 10 j).reverse ++ '/' :: b.toList.reverse := by
    have hreverse := congrArg (fun s => s.toList.reverse) h
    simpa [clausePathOf, Nat.toString_eq_ofList_toDigits] using hreverse
  -- both lists are cut at their first slash
  have hindex := congrArg (List.takeWhile (· != '/')) hlists
  rw [List.takeWhile_append_of_pos (hdigits i), List.takeWhile_append_of_pos (hdigits j)] at hindex
  have hname := congrArg (List.dropWhile (· != '/')) hlists
  rw [List.dropWhile_append_of_pos (hdigits i), List.dropWhile_append_of_pos (hdigits j)] at hname
  simp only [bne_self_eq_false, Bool.false_eq_true, not_false_eq_true, List.takeWhile_cons_of_neg,
    List.dropWhile_cons_of_neg, List.append_nil, List.reverse_inj, List.cons.injEq,
    true_and] at hindex hname
  refine ⟨String.toList_injective hname, ?_⟩
  calc
    i = Nat.ofDigitChars 10 (Nat.toDigits 10 i) 0 := Nat.ofDigitChars_ten_toDigits.symm
    _ = Nat.ofDigitChars 10 (Nat.toDigits 10 j) 0 := by rw [hindex]
    _ = j := Nat.ofDigitChars_ten_toDigits

/-- The paths of the clauses of a collection. -/
theorem paths_collectionClauses (collection : String × CheckRole × CheckPhase × List String) :
    (collectionClauses collection).map Clause.path =
      (List.range collection.2.2.2.length).map (clausePathOf collection.1) := by
  apply List.ext_getElem
  · simp [collectionClauses]
  · intro index _ _
    simp [collectionClauses, clausePathOf]

/-- The clauses of a contract. -/
def clausesOf (contract : ReplacementContract (Number F)) : List Clause :=
  (clauseCollections contract).flatMap collectionClauses

omit [FloatText F] in
/-- No two clauses of a contract have one path. -/
theorem nodup_paths_clausesOf (contract : ReplacementContract (Number F)) :
    ((clausesOf contract).map Clause.path).Nodup := by
  have hnames : ((clauseCollections contract).map Prod.fst).Nodup := by
    show ["preconditions", "target_effects", "protected_invariants", "forbidden_spillover",
      "verification/static", "verification/behavioral", "verification/differential"].Nodup
    decide
  rw [clausesOf, List.map_flatMap, List.nodup_flatMap]
  constructor
  · intro collection _
    rw [paths_collectionClauses]
    apply List.Nodup.map _ List.nodup_range
    intro i j hij
    exact (clausePathOf_inj hij).2
  · apply (List.pairwise_map.mp hnames).imp
    -- a common path would have one collection
    intro a b hne path ha hb
    simp only [paths_collectionClauses] at ha hb
    obtain ⟨i, _, hi⟩ := List.mem_map.mp ha
    obtain ⟨j, _, hj⟩ := List.mem_map.mp hb
    exact hne (clausePathOf_inj (hi.trans hj.symm)).1

/-! ## Section 2: Coverage -/

/-- A binding checks a clause. -/
structure Checks (host : ContractHost F) (check : CheckBinding) (clause : Clause) : Prop where
  path : check.clausePath = clause.path
  role : check.role = clause.role
  phase : check.phase = clause.phase
  text : check.clauseSha256 = host.digestText clause.text

/-- What the role of a binding makes it expect, and the trees that its phase lets it probe. -/
structure ExpectsByRole (check : CheckBinding) : Prop where
  guard : check.role = .precondition ∨ check.role = .static ∨ check.role = .behavioral ∨
    check.role = .invariant → check.oldExpected = some true ∧ check.newExpected = some true
  target : check.role = .target → check.newExpected = some true
  spillover : check.role = .spillover →
    check.oldExpected = some false ∧ check.newExpected = some false
  differential : check.role = .differential → check.pairExpected = some true
  probes : ∀ probe ∈ check.subjectProbes, probe.inputState = .initial ∨
    (check.phase = .pair ∧ (probe.inputState = .oldFinal ∨ probe.inputState = .newFinal)) ∨
    (check.phase ≠ .pair ∧ probe.inputState = .current)

theorem expectsByRole_of_expectations {check : CheckBinding} (h : expectations check = .ok ()) :
    ExpectsByRole check := by
  simp only [expectations, Except.bind_eq_ok, raiseIf_eq_ok, not_and_not_right, not_exists,
    Prod.mk.injEq, ne_eq] at h
  obtain ⟨_, hguard, _, htarget, _, hspillover, _, hdifferential, hprobes⟩ := h
  refine ⟨hguard, htarget, hspillover, hdifferential, ?_⟩
  intro probe hprobe
  have hstate := hprobes probe hprobe
  by_cases hphase : check.phase = .pair
  · rw [if_pos hphase] at hstate
    simp only [List.mem_cons, List.not_mem_nil, or_false] at hstate
    exact hstate.imp_right fun h => Or.inl ⟨hphase, h⟩
  · rw [if_neg hphase] at hstate
    simp only [List.mem_cons, List.not_mem_nil, or_false] at hstate
    exact hstate.imp_right fun h => Or.inr ⟨hphase, h⟩

/-- The bindings of a profile and the clauses of a contract correspond one to one. -/
structure Covers (host : ContractHost F) (contract : ReplacementContract (Number F))
    (profile : ExecutionProfile (Number F)) : Prop where
  checkIds : (profile.checks.map CheckBinding.checkId).Nodup
  probeIds : (profile.checks.flatMap fun check =>
    check.subjectProbes.map SubjectProbe.probeId).Nodup
  /-- Every binding checks a clause, and expects what its role says. -/
  bound : ∀ check ∈ profile.checks, (∃ clause ∈ clausesOf contract, Checks host check clause) ∧
    ExpectsByRole check
  /-- Every clause is checked by exactly one binding. -/
  checked : ∀ clause ∈ clausesOf contract,
    ∃! check, check ∈ profile.checks ∧ Checks host check clause
  /-- Each of the three behavioral roles is checked, and some target changes the behavior. -/
  behavioral : ∀ role : CheckRole, role.isBehavioral = true →
    ∃ check ∈ profile.checks, check.role = role
  changes : ∃ check ∈ profile.checks, check.role = .target ∧ check.oldExpected = some false

theorem covers_of_checkCoverage {host : ContractHost F} {request : ReplacementRequest F}
    {profile : ExecutionProfile (Number F)} (h : checkCoverage host request profile = .ok ()) :
    Covers host request.contract profile := by
  simp only [checkCoverage, clauses, Except.bind_eq_ok, raiseIf_eq_ok, Except.pure_eq_ok, not_or,
    not_not, ne_eq] at h
  obtain ⟨found, ⟨_, hnonempty, rfl⟩, _, hids, _, ⟨hpaths, hequal⟩, _, hprobes, _, hchecks,
    hchanges⟩ := h
  rw [checkAll_eq_ok] at hchecks
  have hnodup := nodup_paths_clausesOf request.contract
  have hbound : ∀ check ∈ profile.checks,
      (∃ clause ∈ clausesOf request.contract, Checks host check clause) ∧
        ExpectsByRole check := by
    intro check hcheck
    have hone := hchecks check hcheck
    simp only [checkClause, Except.bind_eq_ok, orRaise_eq_ok, raiseIf_eq_ok, not_not, ne_eq,
      Prod.mk.injEq] at hone
    obtain ⟨clause, hclause, _, ⟨hrole, hphase, htext⟩, hexpects⟩ := hone
    have hpath : clause.path = check.clausePath := by simpa using List.find?_some hclause
    exact ⟨⟨clause, List.mem_of_find?_eq_some hclause, hpath.symm, hrole, hphase, htext⟩,
      expectsByRole_of_expectations hexpects⟩
  -- a clause whose path a binding names is the one that the binding checks
  have hsame : ∀ check ∈ profile.checks, ∀ clause ∈ clausesOf request.contract,
      check.clausePath = clause.path → Checks host check clause := by
    intro check hcheck clause hclause hpath
    obtain ⟨other, hother, hchecked⟩ := (hbound check hcheck).1
    have heq : other = clause :=
      eq_of_key_eq hnodup hother hclause (hchecked.path.symm.trans hpath)
    rwa [heq] at hchecked
  have hchecked : ∀ clause ∈ clausesOf request.contract,
      ∃ check ∈ profile.checks, Checks host check clause := by
    intro clause hclause
    have hmem : clause.path ∈ (profile.checks.map CheckBinding.clausePath).toFinset := by
      rw [hequal, List.mem_toFinset]
      exact List.mem_map_of_mem hclause
    obtain ⟨check, hcheck, hpath⟩ := List.mem_map.mp (List.mem_toFinset.mp hmem)
    exact ⟨check, hcheck, hsame check hcheck clause hclause hpath⟩
  refine ⟨hids, hprobes, hbound, ?_, ?_, by simpa using hchanges⟩
  · intro clause hclause
    obtain ⟨check, hcheck, hone⟩ := hchecked clause hclause
    refine ⟨check, ⟨hcheck, hone⟩, ?_⟩
    intro other hother
    exact eq_of_key_eq hpaths hother.1 hcheck (hother.2.path.trans hone.path.symm)
  · intro role hrole
    -- the collection of the role is not empty, and its first clause is checked
    have hcollection : ∃ collection ∈ clauseCollections request.contract,
        collection.2.1 = role := by
      simp only [CheckRole.isBehavioral, decide_eq_true_eq] at hrole
      rcases hrole with rfl | rfl | rfl <;> simp [clauseCollections]
    obtain ⟨collection, hmem, rfl⟩ := hcollection
    have hsome : collection.2.2.2 ≠ [] := by
      intro hnil
      apply hnonempty
      rw [List.any_eq_true]
      exact ⟨collection, hmem, by simp [hrole, hnil]⟩
    obtain ⟨text, texts, htexts⟩ := List.exists_cons_of_ne_nil hsome
    have hclause : ⟨clausePathOf collection.1 0, collection.2.1, collection.2.2.1, text⟩ ∈
        clausesOf request.contract := by
      apply List.mem_flatMap.mpr
      refine ⟨collection, hmem, ?_⟩
      simp [collectionClauses, htexts, clausePathOf, List.mapIdx_cons]
    obtain ⟨check, hcheck, hone⟩ := hchecked _ hclause
    exact ⟨check, hcheck, hone.role⟩

/-! ## Section 3: Separation -/

/-- The artifacts that are run as part of what is tested. -/
def subjectArtifacts (profile : ExecutionProfile (Number F)) : List String :=
  profile.executor.artifactIds ++ profile.checks.flatMap fun check =>
    check.subjectProbes.flatMap fun probe => probe.artifactIds

/-- The artifacts that judge what is tested. -/
def checkerArtifacts (profile : ExecutionProfile (Number F)) : List String :=
  profile.checks.flatMap fun check => check.artifactIds

/-- An artifact is a locked test of a capsule, with the bytes that were locked. -/
structure Locked (host : ContractHost F) (capsule : Capsule (Number F)) (artifact : Artifact) :
    Prop where
  test : ∃ test ∈ capsule.testsIntegrity.tests, test.testId = artifact.testId ∧
    test.path = artifact.path ∧ kindOf test.kind = artifact.kind ∧ test.digest = artifact.digest
  bytes : host.digestBytes artifact.data = artifact.digest

/-- What is tested shares nothing with what judges it, and both are locked. -/
structure Separated (host : ContractHost F) (bound : BoundExecution F) : Prop where
  locked : ∀ id ∈ subjectArtifacts bound.profile ++ checkerArtifacts bound.profile,
    ∃ artifact, artifactOf bound.artifacts id = some artifact ∧ artifact.testId = id ∧
      Locked host bound.request.newCapsule artifact
  apart : ∀ id ∈ subjectArtifacts bound.profile, ∀ id' ∈ checkerArtifacts bound.profile,
    ∀ artifact artifact', artifactOf bound.artifacts id = some artifact →
      artifactOf bound.artifacts id' = some artifact' →
      id ≠ id' ∧ host.casefold artifact.path ≠ host.casefold artifact'.path ∧
        artifact.data ≠ artifact'.data

theorem artifactOf_eq_some {artifacts : List Artifact} {id : String} {artifact : Artifact}
    (h : artifactOf artifacts id = some artifact) : artifact ∈ artifacts ∧ artifact.testId = id :=
  ⟨List.mem_reverse.mp (List.mem_of_find?_eq_some h), by simpa using List.find?_some h⟩

/-- An invocation uses artifacts that are there. -/
theorem invocationArtifacts_eq_ok {artifacts : List Artifact} {kind : ArtifactKind}
    {invocation : Invocation} {ids : List String}
    (h : invocationArtifacts artifacts kind invocation = .ok ids) :
    ids = invocation.artifactIds ∧
      ∀ id ∈ invocation.artifactIds, ∃ artifact, artifactOf artifacts id = some artifact := by
  simp only [invocationArtifacts, Except.bind_eq_ok, raiseIf_eq_ok, orRaise_eq_ok,
    Except.pure_eq_ok, not_exists, not_and] at h
  obtain ⟨_, hthere, _, _, _, _, rfl⟩ := h
  refine ⟨rfl, ?_⟩
  intro id hid
  exact Option.ne_none_iff_exists'.mp (hthere id hid)

/-- The test set of a capsule that was verified holds locked artifacts only. -/
theorem locked_of_verifyTest {host : ContractHost F} {capsule : Capsule (Number F)}
    {artifacts : List Artifact}
    (hsame : (artifacts.map Artifact.testId).toFinset =
      (capsule.testsIntegrity.tests.map TestDefinition.testId).toFinset)
    (htests : ∀ test ∈ capsule.testsIntegrity.tests,
      verifyTest host capsule.testsIntegrity.artifactChecksums artifacts test = .ok ())
    {id : String} {artifact : Artifact} (h : artifactOf artifacts id = some artifact) :
    Locked host capsule artifact := by
  obtain ⟨hmem, rfl⟩ := artifactOf_eq_some h
  -- the artifact is one of those listed, so a test of the capsule has its id and was verified
  have hlisted : artifact.testId ∈
      (capsule.testsIntegrity.tests.map TestDefinition.testId).toFinset := by
    rw [← hsame, List.mem_toFinset]
    exact List.mem_map_of_mem hmem
  obtain ⟨test, htest, hid⟩ := List.mem_map.mp (List.mem_toFinset.mp hlisted)
  have hverified := htests test htest
  simp only [verifyTest, Except.bind_eq_ok, orRaise_eq_ok, raiseIf_eq_ok, not_or, not_not, ne_eq,
    Prod.mk.injEq] at hverified
  obtain ⟨found, hfound, _, ⟨hpath, hkind, hdigest⟩, _, hbytes⟩ := hverified
  -- the test names this artifact
  rw [hid, h] at hfound
  obtain rfl := Option.some.inj hfound
  exact ⟨⟨test, htest, hid, hpath.symm, hkind.symm, hdigest.symm⟩, hbytes.trans hdigest.symm⟩

theorem not_mem_of_overlap {xs ys : List String} (h : ¬ overlap xs ys = true) {x : String}
    (hx : x ∈ xs) : x ∉ ys := by
  intro hy
  apply h
  rw [overlap, List.any_eq_true]
  exact ⟨x, hx, by simpa using hy⟩

/-- What `_verify_artifacts` collects of one binding. -/
theorem checkArtifacts_eq_ok {artifacts : List Artifact} {check : CheckBinding}
    {used : List String × List String} (h : checkArtifacts artifacts check = .ok used) :
    used = (check.artifactIds, check.subjectProbes.flatMap fun probe => probe.artifactIds) ∧
      ∀ id ∈ used.1 ++ used.2, ∃ artifact, artifactOf artifacts id = some artifact := by
  -- the ids of a binding are those of the check and those of its probes, all looked up
  simp only [checkArtifacts, Except.bind_eq_ok, Except.pure_eq_ok] at h
  obtain ⟨checker, hchecker, probes, hprobes, rfl⟩ := h
  have hmap := mapM_eq_map hprobes fun probe _ ids hids => (invocationArtifacts_eq_ok hids).1
  obtain ⟨rfl, hthere⟩ := invocationArtifacts_eq_ok hchecker
  refine ⟨by rw [hmap, List.flatMap_def], ?_⟩
  intro id hid
  rcases List.mem_append.mp hid with hid | hid
  · exact hthere id hid
  · rw [hmap] at hid
    obtain ⟨_, hids, hid⟩ := List.mem_flatten.mp hid
    obtain ⟨probe, hprobe, rfl⟩ := List.mem_map.mp hids
    obtain ⟨_, _, hrun⟩ := value_of_mem_mapM hprobes hprobe
    exact (invocationArtifacts_eq_ok hrun).2 id hid

theorem separated_of_verifyArtifacts {host : ContractHost F} {request : ReplacementRequest F}
    {profile : ExecutionProfile (Number F)} {artifacts : List Artifact}
    (h : verifyArtifacts host request profile artifacts = .ok ()) :
    Separated host ⟨request, profile, artifacts⟩ := by
  simp only [verifyArtifacts, Except.bind_eq_ok, raiseIf_eq_ok, not_or, not_not, ne_eq] at h
  obtain ⟨_, ⟨_, hsame⟩, _, htests, executor, hexecutor, used, hused, hdisjoint⟩ := h
  rw [checkAll_eq_ok] at htests
  have hlocked : ∀ {id : String} {artifact : Artifact},
      artifactOf artifacts id = some artifact → Locked host request.newCapsule artifact :=
    fun h => locked_of_verifyTest hsame htests h
  -- what was collected from the executor and the checks are the two lists of the profile
  obtain ⟨rfl, hexecuted⟩ := invocationArtifacts_eq_ok hexecutor
  have hmap := mapM_eq_map hused fun check _ pair hpair => (checkArtifacts_eq_ok hpair).1
  have hcheckers : (used.map Prod.fst).flatten = checkerArtifacts profile := by
    rw [hmap, List.map_map, checkerArtifacts, List.flatMap_def]
    rfl
  have hsubjects : profile.executor.artifactIds ++ (used.map Prod.snd).flatten =
      subjectArtifacts profile := by
    rw [hmap, List.map_map, subjectArtifacts, List.flatMap_def]
    rfl
  rw [hcheckers, hsubjects] at hdisjoint
  simp only [disjoint, raiseIf_eq_ok, not_or] at hdisjoint
  obtain ⟨hids, hpaths, hbytes⟩ := hdisjoint
  -- every id on either list was looked up when it was collected
  have hthere : ∀ id ∈ subjectArtifacts profile ++ checkerArtifacts profile,
      ∃ artifact, artifactOf artifacts id = some artifact := by
    have hchecks : ∀ check ∈ profile.checks, ∀ id ∈ check.artifactIds ++
        check.subjectProbes.flatMap (fun probe => probe.artifactIds),
        ∃ artifact, artifactOf artifacts id = some artifact := by
      intro check hcheck id hid
      obtain ⟨pair, _, hpair⟩ := value_of_mem_mapM hused hcheck
      obtain ⟨rfl, hall⟩ := checkArtifacts_eq_ok hpair
      exact hall id hid
    intro id hid
    simp only [subjectArtifacts, checkerArtifacts, List.mem_append, List.mem_flatMap] at hid
    rcases hid with (hid | ⟨check, hcheck, probe, hprobe, hid⟩) | ⟨check, hcheck, hid⟩
    · exact hexecuted id hid
    · apply hchecks check hcheck id
      exact List.mem_append_right _ (List.mem_flatMap.mpr ⟨probe, hprobe, hid⟩)
    · exact hchecks check hcheck id (List.mem_append_left _ hid)
  constructor
  · intro id hid
    obtain ⟨artifact, hartifact⟩ := hthere id hid
    exact ⟨artifact, hartifact, (artifactOf_eq_some hartifact).2, hlocked hartifact⟩
  · intro id hid id' hid' artifact artifact' hartifact hartifact'
    -- both artifacts are among those that were compared
    have hused : artifact ∈ (subjectArtifacts profile).filterMap (artifactOf artifacts) :=
      List.mem_filterMap.mpr ⟨id, hid, hartifact⟩
    have hused' : artifact' ∈ (checkerArtifacts profile).filterMap (artifactOf artifacts) :=
      List.mem_filterMap.mpr ⟨id', hid', hartifact'⟩
    refine ⟨?_, ?_, ?_⟩
    · rintro rfl
      exact not_mem_of_overlap hids hid hid'
    · intro hpath
      apply not_mem_of_overlap hpaths (List.mem_map_of_mem hused)
      rw [hpath]
      exact List.mem_map_of_mem hused'
    · -- equal bytes would have equal digests
      intro hdata
      apply not_mem_of_overlap hbytes (List.mem_map_of_mem hused)
      have hdigest : artifact.digest = artifact'.digest := by
        rw [← (hlocked hartifact).bytes, ← (hlocked hartifact').bytes, hdata]
      rw [hdigest]
      exact List.mem_map_of_mem hused'

/-! ## Section 4: Bound executions -/

/-- What was established of a bound execution before it runs. -/
structure Governs (host : ContractHost F) (bound : BoundExecution F) : Prop where
  /-- The old capsule is the one that the contract replaces and that a rollback restores. -/
  replaces : bound.request.contract.replaces =
    some (bound.request.oldCapsule.controlManifest.capsuleId ++ "@" ++
      bound.request.oldCapsule.controlManifest.version) ∧
    bound.request.contract.replaces = some bound.request.contract.rollback.pointer
  tenant : bound.request.task.tenant = bound.request.oldCapsule.controlManifest.tenant ∧
    bound.request.task.tenant = bound.request.newCapsule.controlManifest.tenant
  interfaces : bound.request.oldCapsule.controlManifest.provides ⊆
      bound.profile.acceptsInterfaces ∧
    bound.request.task.requiredInterfaces ⊆ bound.request.newCapsule.controlManifest.provides
  repetitions : bound.profile.repetitions = requiredRepetitions bound.request
  /-- Both capsules are readable by the principal, and published as they are. -/
  published : ∀ publication ∈ [bound.request.old, bound.request.new], ∃ actual,
    host.registry publication.val.capsule.controlManifest.capsuleId
      publication.val.capsule.controlManifest.version bound.request.principal.principalId =
        some actual ∧ actual.val.registryStatus = "PUBLISHED" ∧
      pyEqual (publicationProjection actual) (publicationProjection publication) = true
  covers : Covers host bound.request.contract bound.profile
  separated : Separated host bound

/-- The checks that an accepted contract passed. -/
theorem checks_of_parseExecutionContract {host : ContractHost F} {request : ReplacementRequest F}
    {bound : BoundExecution F} (h : parseExecutionContract host request = .ok bound) :
    bound.request = request ∧ verifyPublications host request = .ok () ∧
      compatibility request bound.profile = .ok () ∧
      checkCoverage host request bound.profile = .ok () ∧
      verifyArtifacts host request bound.profile bound.artifacts = .ok () := by
  simp only [parseExecutionContract, Except.bind_eq_ok, raiseIf_eq_ok, orRaise_eq_ok,
    Except.pure_eq_ok] at h
  obtain ⟨_, _, _, hpublished, _, _, _, _, _, hcompatible, _, hcoverage, _, _, _, hartifacts,
    rfl⟩ := h
  exact ⟨rfl, hpublished, hcompatible, hcoverage, hartifacts⟩

/-- **What an accepted contract guarantees**: every execution contract that is accepted covers its
clauses one to one, and keeps what is tested apart from what judges it. -/
theorem parseExecutionContract_governs (host : ContractHost F) (request : ReplacementRequest F)
    (bound : BoundExecution F) (h : parseExecutionContract host request = .ok bound) :
    bound.request = request ∧ Governs host bound := by
  obtain ⟨rfl, hpublished, hcompatible, hcoverage, hartifacts⟩ :=
    checks_of_parseExecutionContract h
  simp only [compatibility, Except.bind_eq_ok, raiseIf_eq_ok, not_or, not_not, ne_eq] at hcompatible
  obtain ⟨_, _, _, ⟨hreplaces, hpointer⟩, _, haccepts, _, hprovides, _, _, _, ⟨htask, htenant⟩,
    hrepetitions⟩ := hcompatible
  refine ⟨rfl, ⟨hreplaces, ?_⟩, ⟨htask, htask.trans htenant⟩, ⟨haccepts, hprovides⟩,
    hrepetitions, ?_, covers_of_checkCoverage hcoverage, separated_of_verifyArtifacts hartifacts⟩
  · rw [hpointer]
    exact hreplaces
  · intro publication hpublication
    have hone := (checkAll_eq_ok _ _).mp hpublished publication hpublication
    simp only [verifyPublication, Except.bind_eq_ok, orRaise_eq_ok, raiseIf_eq_ok, not_or, not_not,
      Bool.not_eq_false, ne_eq] at hone
    obtain ⟨actual, hactual, hstatus, hequal⟩ := hone
    exact ⟨actual, hactual, hstatus, hequal⟩

/-! ## Section 5: A contract that is accepted -/

/-- A digest that spells out bytes below sixteen. -/
def spelledDigest (bytes : Bytes) : String :=
  "sha256:" ++ String.ofList (bytes.map fun b => Nat.digitChar b.toNat)

/-- The bytes of the program that is tested. -/
def sampleSubject : Artifact :=
  ⟨"subject", "tests/behavioral/subject.py", .behavioral, spelledDigest (List.replicate 64 1),
    List.replicate 64 1⟩

/-- The bytes of the program that judges it. -/
def sampleChecker : Artifact :=
  ⟨"checker", "tests/behavioral/checker.py", .behavioral, spelledDigest (List.replicate 64 2),
    List.replicate 64 2⟩

/-- The bytes of the program that looks at the repository before the runs. -/
def sampleGuard : Artifact :=
  ⟨"guard", "tests/static/guard.py", .static, spelledDigest (List.replicate 64 3),
    List.replicate 64 3⟩

/-- A check by one of the programs that judge, for a clause whose text is its role. -/
def sampleCheck (testId collection : String) (role : CheckRole) (phase : CheckPhase)
    (old new pair : Option Bool) (subjectProbes : List SubjectProbe) : CheckBinding where
  testId := testId
  artifactIds := [testId]
  argv := []
  checkId := role.text
  role := role
  phase := phase
  clausePath := clausePathOf collection 0
  clauseSha256 := zeroDigest
  subjectProbes := subjectProbes
  oldExpected := old
  newExpected := new
  pairExpected := pair

/-- A probe of the program that is tested. -/
def sampleProbe (probeId : String) (inputState : InputState) : SubjectProbe :=
  ⟨⟨"subject", ["subject"], []⟩, probeId, inputState⟩

/-- A precondition, one check for each role that a contract must have, and one of the two runs
together. The target and the pair are probed. -/
def sampleProfile : ExecutionProfile (Number IntegralFloat) where
  replacesRef := ⟨"a.b", "1.0.0", zeroDigest⟩
  acceptsInterfaces := []
  checks := [
    sampleCheck "guard" "preconditions" .precondition .pre (some true) (some true) none [],
    sampleCheck "checker" "target_effects" .target .post (some false) (some true) none
      [sampleProbe "before" .initial, sampleProbe "after" .current],
    sampleCheck "checker" "protected_invariants" .invariant .post (some true) (some true) none [],
    sampleCheck "checker" "forbidden_spillover" .spillover .post (some false) (some false) none [],
    sampleCheck "checker" "verification/differential" .differential .pair none none (some true)
      [sampleProbe "old" .oldFinal, sampleProbe "new" .newFinal]]
  executor := ⟨"subject", ["subject"], []⟩
  runner := ⟨⟨60, 1000, 1000, 1000, 10⟩, "image", "linux/amd64", .float ⟨1⟩, 1000000, 10⟩
  repetitions := 1

/-- The artifacts of the sample. -/
def sampleArtifacts : List Artifact := [sampleSubject, sampleChecker, sampleGuard]

/-- A test of an artifact. -/
def sampleTest (kind : TestKind) (artifact : Artifact) : TestDefinition :=
  { testId := artifact.testId, kind := kind, path := artifact.path,
    digest := artifact.digest }

/-- The next version of a capsule. Its contract carries the profile. -/
def sampleReplacement (raw : Value IntegralFloat) : Capsule (Number IntegralFloat) :=
  { sampleCapsule with
    controlManifest := { sampleCapsule.controlManifest with version := "1.1.0" }
    replacementContract := { sampleCapsule.replacementContract with
      replaces := some "a.b@1.0.0"
      preconditions := ["precondition"]
      targetEffects := ["target"]
      protectedInvariants := ["invariant"]
      forbiddenSpillover := ["spillover"]
      verification := ⟨[], [], ["differential"]⟩
      rollback := { pointer := "a.b@1.0.0", compensatingAction := none }
      extensions := [("x-m5-execution", raw)] }
    testsIntegrity := { sampleCapsule.testsIntegrity with
      tests := [sampleTest .behavioral sampleSubject, sampleTest .behavioral sampleChecker,
        sampleTest .static sampleGuard]
      artifactChecksums := sampleArtifacts.map fun artifact => ⟨artifact.path, artifact.digest⟩ } }

theorem sampleReplacement_valid : (sampleReplacement sampleProfile.dump).valid = true := by
  have hsample := Capsule.valid_iff.mp sampleCapsule_valid
  apply Capsule.valid_iff.mpr
  -- the other modules are those of the version before
  exact { hsample with
    controlManifest := by decide +kernel
    replacementContract := by decide +kernel
    testsIntegrity := by decide +kernel
    referencesClosed := by decide +kernel }

/-- A replacement of one version by the next. -/
def sampleReplacementRequest : ReplacementRequest IntegralFloat where
  operationId := "op"
  principal := ⟨"u"⟩
  old := ⟨⟨sampleCapsule, "PUBLISHED", "2026-01-01T00:00:00Z"⟩, sampleCapsule_valid⟩
  new := ⟨⟨sampleReplacement sampleProfile.dump, "PUBLISHED", "2026-01-02T00:00:00Z"⟩,
    sampleReplacement_valid⟩
  task := ⟨"task", "t", "r", ["p"], "e", "text", .low, [], []⟩
  sourceRepository := "r"
  sourceCommit := "c"
  budget := ⟨1000, 0, 0, 0, 0, by decide, by decide⟩
  modelId := "m"
  tokenizerProfile := "k"
  rendererVersion := "1"

/-- A registry of the two capsules, and a resolver of the programs. -/
def sampleContractHost : ContractHost IntegralFloat where
  registry capsuleId version _ :=
    [sampleReplacementRequest.old, sampleReplacementRequest.new].find? fun publication =>
      publication.val.capsule.controlManifest.capsuleId = capsuleId ∧
        publication.val.capsule.controlManifest.version = version
  resolve _ := some sampleArtifacts
  validateProfile _ := some sampleProfile
  digestText _ := zeroDigest
  digestBytes := spelledDigest
  casefold := id

/-- A publication that the registry still holds as it is passes. -/
theorem verifyPublication_of_registry {host : ContractHost F} {principal : Principal}
    {publication : Publication F}
    (h : host.registry publication.val.capsule.controlManifest.capsuleId
      publication.val.capsule.controlManifest.version principal.principalId = some publication)
    (hstatus : publication.val.registryStatus = "PUBLISHED") :
    verifyPublication host principal publication = .ok () := by
  have hequal : pyEqual (publicationProjection publication) (publicationProjection publication) =
      true := decide_eq_true rfl
  simp [verifyPublication, h, hstatus, hequal, orRaise, raiseIf, bind, Except.bind]

/-- The contract of the sample is accepted, with the profile that it carries. -/
theorem sampleContract_accepted :
    parseExecutionContract sampleContractHost sampleReplacementRequest =
      .ok ⟨sampleReplacementRequest, sampleProfile, sampleArtifacts⟩ := by
  have hvalid : sampleReplacementRequest.valid = true := by decide +kernel
  have hpublished : verifyPublications sampleContractHost sampleReplacementRequest = .ok () := by
    apply (checkAll_eq_ok _ _).mpr
    rw [List.forall_mem_cons, List.forall_mem_singleton]
    exact ⟨verifyPublication_of_registry rfl rfl, verifyPublication_of_registry rfl rfl⟩
  have hcompatible : compatibility sampleReplacementRequest sampleProfile = .ok () := by
    decide +kernel
  have hcovered : checkCoverage sampleContractHost sampleReplacementRequest sampleProfile =
      .ok () := by decide +kernel
  have hlocked : verifyArtifacts sampleContractHost sampleReplacementRequest sampleProfile
      sampleArtifacts = .ok () := by decide +kernel
  simp only [parseExecutionContract, Except.bind_eq_ok, raiseIf_eq_ok, orRaise_eq_ok,
    Except.pure_eq_ok]
  exact ⟨(), by simp [hvalid], (), hpublished, _, rfl, sampleProfile, rfl, (), hcompatible, (),
    hcovered, _, rfl, (), hlocked, rfl⟩

/-- The contract of the sample governs its execution. -/
theorem parseExecutionContract_governs_sample :
    ∃ bound, parseExecutionContract sampleContractHost sampleReplacementRequest = .ok bound ∧
      bound.request = sampleReplacementRequest ∧ Governs sampleContractHost bound :=
  ⟨_, sampleContract_accepted, parseExecutionContract_governs sampleContractHost
    sampleReplacementRequest _ sampleContract_accepted⟩

end ContractCapsule.Twin
