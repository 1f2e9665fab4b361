import ContractCapsule.Library.Loops
import ContractCapsule.Compile.Session

/-!
# The View Manifest

`compile/manifest.py` and the validators of `ViewManifest`: the audit record of a valid view. It is
built from what a session has decided, put in one order, and checked. The patterns of digests are
left out of the checks: of a digest that the program computes nothing is assumed.
-/

namespace ContractCapsule.Compile

open Library Models Resolve
open Enumeration (wire)

variable {F : Type} [FloatText F]

/-! ## Section 1: The identity of a request -/

/-- The item of `compile_request_projection` for a publication. -/
def publicationProjection (p : Publication F) : Value F :=
  .object
    [("capsule", .object
      (coreMembers (capsuleOf p) ++ signatureMembers (capsuleOf p).detachedSignature)),
     ("registry_status", .string p.val.registryStatus)]

/-- The order in which the projection lists publications: by identifier, version and digest. -/
def projectionLe (p q : Publication F) : Prop :=
  let a := capsuleRef (capsuleOf p)
  let b := capsuleRef (capsuleOf q)
  a.capsuleId < b.capsuleId ∨ a.capsuleId = b.capsuleId ∧
    (a.version < b.version ∨ a.version = b.version ∧ a.digest ≤ b.digest)

instance (p q : Publication F) : Decidable (projectionLe p q) :=
  inferInstanceAs (Decidable (_ ∨ _ ∧ (_ ∨ _ ∧ _)))

/-- `compile_request_projection`. The sort is stable: publications that agree in identifier, version
and digest stay in the order of the request. -/
def compileRequestProjection (request : CompileRequest F) : Value F :=
  .object
    [("capsules", .array ((request.capsules.insertionSort projectionLe).map publicationProjection)),
     ("task", request.task.dump),
     ("principal", .object [("principal_id", .string request.principal.principalId)]),
     ("budget", request.budget.dump),
     ("as_of", .string request.asOf),
     ("model_id", .string request.modelId),
     ("tokenizer_profile", .string request.tokenizerProfile),
     ("renderer_version", .string request.rendererVersion),
     ("runtime_config", .object request.runtimeConfig)]

/-! ## Section 2: Constraints -/

def decisionValid (d : DecisionRecord) : Bool :=
  d.capsule.valid && isNonEmpty d.atomId && isNonEmpty d.reason

def stampValid (s : ServiceStamp) : Bool := isNonEmpty s.name && isNonEmpty s.version

def witnessValid (w : ProviderWitness) : Bool :=
  w.consumer.all CapsuleRef.valid && isNonEmpty w.requirement && w.provider.valid &&
    nonEmptyStrings w.atomIds

def linkValid (l : ClosureLink) : Bool := isNonEmpty l.source && isNonEmpty l.target

def conflictValid (c : Conflict) : Bool :=
  isNonEmpty c.source && isNonEmpty c.target && isNonEmpty c.reason

/-- A mapping of counts. -/
def countsValid (counts : List (String × ℕ)) : Bool :=
  counts.all fun entry => isNonEmpty entry.1 && decide (entry.2 ≤ maxCount)

/-- `_consistent_total`, and the ranges of the counts. -/
def tokensValid (t : TokenAccounting) : Bool :=
  decide (t.total ≤ maxCount) && decide (t.available ≤ maxCount) && countsValid t.sections &&
    decide (-(maxCount : ℤ) ≤ t.boundaryAdjustment) && decide (t.boundaryAdjustment ≤ maxCount) &&
    decide ((t.total : ℤ) = ((t.sections.map Prod.snd).sum : ℕ) + t.boundaryAdjustment)

/-- What was counted is a token. -/
theorem countTokens_le {counter : TokenCounter} {text : List Char} {n : ℕ}
    (h : countTokens counter text = .ok n) : n ≤ maxCount := by
  unfold countTokens at h
  split at h
  · split at h
    · rwa [← Except.ok.inj h]
    · cases h
  · cases h

/-- Every account of tokens is one that its record admits. -/
theorem accountTokens_valid {sections : Sections} {counter : TokenCounter} {budget : ViewBudget}
    {tokens : TokenAccounting} (h : accountTokens sections counter budget = .ok tokens) :
    tokensValid tokens = true := by
  simp only [accountTokens, renderedContent, Except.bind_eq_ok, raiseIf_eq_ok, Except.pure_eq_ok,
    not_or, not_not, not_lt] at h
  obtain ⟨_, ⟨_, ⟨_, hnames⟩, rfl⟩, counts, hcounts, total, htotal, _, ⟨hlow, hhigh⟩, rfl⟩ := h
  have hperm := List.perm_insertionSort (fun a b : String × ℕ => a.1 ≤ b.1) counts
  have havailable : budget.available ≤ maxCount := by
    have hbounded := budget.bounded
    simp only [ViewBudget.available]
    omega
  -- each section is counted under its own name
  have hsections : ∀ entry ∈ counts, isNonEmpty entry.1 = true ∧ entry.2 ≤ maxCount := by
    intro entry hentry
    obtain ⟨part, hpart, hstep⟩ := exists_of_mem_mapM hcounts hentry
    simp only [Except.bind_eq_ok, Except.pure_eq_ok] at hstep
    obtain ⟨n, hn, rfl⟩ := hstep
    refine ⟨?_, countTokens_le hn⟩
    by_contra hempty
    have hname : part.1 = "" := by simpa [isNonEmpty] using hempty
    exact hnames (hname ▸ List.mem_map_of_mem hpart)
  simp only [tokensValid, countsValid, Bool.and_eq_true, decide_eq_true_eq, hperm.all_eq,
    List.all_eq_true, (hperm.map Prod.snd).sum_nat]
  exact ⟨⟨⟨⟨⟨countTokens_le htotal, havailable⟩, hsections⟩, hlow⟩, hhigh⟩, by omega⟩

/-- `_consistent_validation` -/
def reportValid (r : ValidationReport) : Bool :=
  r.isValid == r.blockers.isEmpty && nonEmptyStrings r.blockers

/-- The profile of a manifest. -/
def manifestProfile : String := "CCS-2.1-m4-collective-interfaces-v1"

/-- The key that decisions are told apart by. -/
def decisionKey (d : DecisionRecord) : String × String := (d.capsule.key, d.atomId)

/-- What `ViewManifest` checks of its fields. -/
def manifestValid (m : ViewManifest) : Bool :=
  m.profile == manifestProfile && isSemVer m.compilerVersion && isNonEmpty m.taskId &&
    isNonEmpty m.tenant && isNonEmpty m.repository && isTimestampString m.asOf &&
    isNonEmpty m.modelId && isNonEmpty m.tokenizerProfile && isNonEmpty m.rendererVersion &&
    m.capsules.all CapsuleRef.valid && decide (m.capsules.map CapsuleRef.capsuleId).Nodup &&
    m.decisions.all decisionValid && decide (m.decisions.map decisionKey).Nodup &&
    m.providers.all witnessValid && m.closure.all linkValid && m.conflicts.all conflictValid &&
    nonEmptyStrings m.expandedEvidence && countsValid m.rejectedCounts &&
    m.services.all stampValid && tokensValid m.tokens && reportValid m.validation

/-- What `CompiledView` checks of its fields. -/
def viewValid (v : CompiledView) : Bool :=
  manifestValid v.manifest && reportValid v.validation && v.evidenceHandles.all handleValid &&
    decide (v.validation = v.manifest.validation) &&
    (v.validation.isValid || v.content.isEmpty) &&
    (!v.validation.isValid || decide (v.manifest.tokens.total ≤ v.manifest.tokens.available))

/-! ## Section 3: Orders -/

section Orders

variable (F)

/-- `_ordered`: items in the order of their canonical texts. -/
def canonicalOrder {α : Type} (dump : α → Value F) (items : List α) : List α :=
  items.insertionSort fun a b => canonicalText (dump a) ≤ canonicalText (dump b)

/-- The fields of a manifest in the order that its validators put them in. -/
def ordered (m : ViewManifest) : ViewManifest :=
  { m with
    capsules := m.capsules.insertionSort fun a b => a.key ≤ b.key
    decisions := m.decisions.insertionSort fun a b =>
      EligibilityResolver.keyLe (decisionKey a) (decisionKey b)
    providers := canonicalOrder F ProviderWitness.dump m.providers
    closure := canonicalOrder F ClosureLink.dump m.closure
    conflicts := canonicalOrder F Conflict.dump m.conflicts
    services := canonicalOrder F ServiceStamp.dump m.services
    expandedEvidence := uniqueStrings m.expandedEvidence }

/-- The order of its fields makes no manifest invalid. -/
theorem manifestValid_ordered (m : ViewManifest) : manifestValid (ordered F m) = manifestValid m := by
  have hunique : nonEmptyStrings (uniqueStrings m.expandedEvidence) =
      nonEmptyStrings m.expandedEvidence := by
    rw [Bool.eq_iff_iff, nonEmptyStrings, nonEmptyStrings, List.all_eq_true, List.all_eq_true]
    simp only [uniqueStrings, List.mem_insertionSort, List.mem_dedup]
  simp only [manifestValid, ordered, canonicalOrder, hunique, (List.perm_insertionSort _ _).all_eq,
    ((List.perm_insertionSort _ _).map _).nodup_iff]

/-- `ViewManifest.model_validate` -/
def validateManifest (m : ViewManifest) : Except CompileError ViewManifest := do
  raiseIf (manifestValid m = false) .unexpected
  return ordered F m

end Orders

/-! ## Section 4: The projection of a session -/

/-- What `build_manifest` reads of a session whose view is valid. -/
structure Session (F : Type) [FloatText F] where
  request : CompileRequest F
  admission : AdmissionResult F
  graph : ResolvedGraph F
  services : List ServiceStamp
  selected : Finset String
  reasons : String → Option String
  expanded : List String
  tokens : TokenAccounting
  conflicts : List Conflict

/-- `_COMPILER_VERSION` -/
def compilerVersion : String := "0.1.2"

/-- `_compiler_stamp` -/
def compilerStamp (env : Environment F) : ServiceStamp where
  name := "compiler"
  version := compilerVersion
  configDigest := snapshotDigest (F := F) env.sha256 (.object
    [("profile", .string manifestProfile), ("version", .string compilerVersion)])

/-- The stamp of a graph. -/
def graphStamp (g : ResolvedGraph F) : ServiceStamp where
  name := "graph"
  version := g.version
  configDigest := g.configDigest

/-- The stamp of an admission. -/
def eligibilityStamp (env : Environment F) (admission : AdmissionResult F) : ServiceStamp where
  name := "eligibility"
  version := "1.0.0"
  configDigest := snapshotDigest (F := F) env.sha256 (.object
    [("permission", .string admission.permissionDigest),
     ("freshness", .string admission.freshnessDigest)])

/-- `text.replace(old, new, 1)`, for a text that is not empty. -/
def replaceFirst (old new : List Char) : List Char → List Char
  | [] => []
  | c :: cs =>
    if old.isPrefixOf (c :: cs) then new ++ (c :: cs).drop old.length
    else c :: replaceFirst old new cs

/-- `_realized_requirements`: what the links of a closure require, a unit standing for the presence
of its capsule. -/
def realizedRequirements (links : List ClosureLink) : List String :=
  links.map fun link => "requires:" ++ link.source ++ "->" ++ String.ofList
    (replaceFirst "__ccs_m4__:unit:".toList "__ccs_m4__:presence:".toList link.target.toList)

namespace Session

variable (s : Session F)

/-- The owners of the selected atoms, each once. -/
def participating : List CapsuleRef :=
  index CapsuleRef.key ((s.graph.atoms.filter fun atom => atom.atomId ∈ s.selected).flatMap
    fun atom => s.graph.ownersOf atom.atomId)

/-- The decision on an atom, for one of its owners. -/
def decision (atomId : String) (owner : CapsuleRef) : DecisionRecord where
  capsule := owner
  atomId := atomId
  outcome := if atomId ∈ s.selected then .selected else .excluded
  reason := (s.reasons atomId).getD "COMPILATION_BLOCKED"

/-- The decisions on all admitted atoms. -/
def decisions : List DecisionRecord :=
  s.graph.atoms.flatMap fun atom => (s.graph.ownersOf atom.atomId).map (s.decision atom.atomId)

/-- Whether a witness is of the selection. -/
def isWitnessed (links : List ClosureLink) (witness : ProviderWitness) : Bool :=
  witness.consumer.all (fun consumer =>
    (s.participating.map CapsuleRef.key).contains consumer.key) &&
  decide (∀ id ∈ witness.atomIds, id ∈ s.selected) &&
  (!"requires:".toList.isPrefixOf witness.requirement.toList ||
    (realizedRequirements links).contains witness.requirement)

/-- The fields that `build_manifest` gives a manifest. -/
def manifest (env : Environment F) (links : List ClosureLink) : ViewManifest where
  profile := manifestProfile
  compilerVersion := compilerVersion
  taskId := s.request.task.taskId
  tenant := s.request.task.tenant
  repository := s.request.task.repository
  asOf := s.request.asOf
  taskDigest := snapshotDigest (F := F) env.sha256 s.request.task.dump
  permissionDigest := s.admission.permissionDigest
  requestDigest := snapshotDigest env.sha256 (compileRequestProjection s.request)
  modelId := s.request.modelId
  tokenizerProfile := s.request.tokenizerProfile
  rendererVersion := s.request.rendererVersion
  capsules := if (s.participating.map CapsuleRef.capsuleId).Nodup then s.participating else []
  decisions := s.decisions
  providers := s.graph.providers.filter (s.isWitnessed links)
  closure := links
  conflicts := s.conflicts
  expandedEvidence := s.expanded
  rejectedCounts := s.admission.rejectedCounts
  services := s.services ++
    [compilerStamp env, graphStamp s.graph, eligibilityStamp env s.admission]
  tokens := s.tokens
  validation := { isValid := true, blockers := [] }

/-- `build_manifest` for a valid report. -/
def buildManifest (env : Environment F) : Except CompileError ViewManifest := do
  raiseIf (¬ s.selected ⊆ s.graph.atomIds) .unexpected
  let links ← s.graph.closureLinks s.selected
  validateManifest F (s.manifest env links)

end Session

/-! ## Section 5: The digest of a manifest -/

/-- The members that `canonical_view_manifest_bytes` writes. -/
def manifestDump (m : ViewManifest) : Value F :=
  .object
    [("profile", .string m.profile),
     ("compiler_version", .string m.compilerVersion),
     ("task_id", .string m.taskId),
     ("tenant", .string m.tenant),
     ("repository", .string m.repository),
     ("as_of", .string m.asOf),
     ("task_digest", .string m.taskDigest),
     ("permission_digest", .string m.permissionDigest),
     ("request_digest", .string m.requestDigest),
     ("model_id", .string m.modelId),
     ("tokenizer_profile", .string m.tokenizerProfile),
     ("renderer_version", .string m.rendererVersion),
     ("capsules", .array (m.capsules.map CapsuleRef.dump)),
     ("decisions", .array (m.decisions.map DecisionRecord.dump)),
     ("providers", .array (m.providers.map ProviderWitness.dump)),
     ("closure", .array (m.closure.map ClosureLink.dump)),
     ("conflicts", .array (m.conflicts.map Conflict.dump)),
     ("expanded_evidence", strings m.expandedEvidence),
     ("rejected_counts", .object (m.rejectedCounts.map fun entry => (entry.1, count entry.2))),
     ("services", .array (m.services.map ServiceStamp.dump)),
     ("tokens", m.tokens.dump),
     ("validation", m.validation.dump)]

/-- `view_manifest_digest` -/
def viewManifestDigest (env : Environment F) (m : ViewManifest) : String :=
  snapshotDigest (F := F) env.sha256 (manifestDump m)

end ContractCapsule.Compile
