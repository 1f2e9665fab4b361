import ContractCapsule.Models.Identity
import ContractCapsule.Store.Approvals
import ContractCapsule.Twin.Contracts
import ContractCapsule.Twin.Reports

/-!
# Subjects

The digests by which runs, stages, reports and approvals name what they are about:
`execution_subject` of `validate/contracts.py`, and the identities of `validate/run_models.py`. What
they are digests of is faithful: parts that are written alike are equal.
-/

namespace ContractCapsule.Twin

open Library Models
open Enumeration (wire)

variable {F : Type} [FloatText F]

/-! ## Section 1: Identities -/

/-- `identity` -/
def identity (digestBytes : Bytes → String) (v : Value F) : Option String :=
  (Storage.canonicalBytes v).map digestBytes

/-- `evaluation_scope` -/
def evaluationScope (digestBytes : Bytes → String) (bound : BoundExecution F) : Option String :=
  identity digestBytes (.object
    [("tenant", .string bound.request.task.tenant),
     ("principal", .string bound.request.principal.principalId),
     ("repository", .string bound.request.sourceRepository),
     ("environment", .string bound.request.task.environment)] : Plain)

/-- `StageRole` -/
inductive StageRole where
  | old
  | new
  | pair
deriving DecidableEq, Repr

/-- The text of a role. -/
def StageRole.text : StageRole → String
  | .old => "old"
  | .new => "new"
  | .pair => "pair"

/-- A run has the role of its stages. -/
def RunRole.stage : RunRole → StageRole
  | .old => .old
  | .new => .new

/-- `run_subject`, for the subject of an execution -/
def runSubject (digestBytes : Bytes → String) (execution : String) (context : EvaluationContext)
    (role : StageRole) (repetition : ℕ) : Option String :=
  identity digestBytes (.object
    [("domain", .string "ccs-m5-run/1"),
     ("execution", .string execution),
     ("context", context.dump),
     ("role", .string role.text),
     ("repetition", count repetition)] : Plain)

/-- `stage_subject`, for the subject of a run -/
def stageSubject (digestBytes : Bytes → String) (run : String) (stageId : String)
    (inputs : List String) (probes : List ProcessCapture) : Option String :=
  identity digestBytes (.object
    [("domain", .string "ccs-m5-stage/1"),
     ("run", .string run),
     ("stage_id", .string stageId),
     ("inputs", strings inputs),
     ("probes", listing ProcessCapture.dump probes)] : Plain)

/-! ## Section 2: Executions -/

/-- The fields of an `Invocation`. -/
def Invocation.fields (i : Invocation) : Members (Number F) :=
  [("test_id", .string i.testId),
   ("artifact_ids", strings i.artifactIds),
   ("argv", strings i.argv)]

/-- `SubjectProbe.model_dump` -/
def SubjectProbe.dump (p : SubjectProbe) : Value F :=
  .object (p.toInvocation.fields ++
    [("probe_id", .string p.probeId), ("input_state", .string p.inputState.text)])

/-- A field that `exclude_none` leaves out when it has no value. -/
def presentBool (key : String) (b : Option Bool) : Members (Number F) :=
  match b with
  | none => []
  | some b => [(key, .bool b)]

/-- `CheckBinding.model_dump`, without the fields that have no value -/
def CheckBinding.dump (c : CheckBinding) : Value F :=
  .object (c.toInvocation.fields ++
    [("check_id", .string c.checkId),
     ("role", .string c.role.text),
     ("phase", .string c.phase.text),
     ("clause_path", .string c.clausePath),
     ("clause_sha256", .string c.clauseSha256),
     ("subject_probes", listing SubjectProbe.dump c.subjectProbes)] ++
    presentBool "old_expected" c.oldExpected ++ presentBool "new_expected" c.newExpected ++
    presentBool "pair_expected" c.pairExpected)

/-- `RunnerConfig.model_dump` -/
def RunnerProfile.dump (r : RunnerProfile (Number F)) : Value F :=
  .object
    [("image_digest", .string r.imageDigest),
     ("platform", .string r.platform),
     ("profile", .string "ccs-m5-docker/1.0.0"),
     ("cpu_limit", .number r.cpuLimit),
     ("memory_bytes", count r.memoryBytes),
     ("process_limit", count r.processLimit),
     ("timeout_seconds", count r.timeoutSeconds),
     ("stdout_limit_bytes", count r.stdoutLimitBytes),
     ("stderr_limit_bytes", count r.stderrLimitBytes),
     ("output_tree_limit_bytes", count r.outputTreeLimitBytes),
     ("output_tree_file_limit", count r.outputTreeFileLimit)]

/-- `ExecutionProfile.model_dump`, without the fields that have no value -/
def ExecutionProfile.dump (p : ExecutionProfile (Number F)) : Value F :=
  .object
    [("profile", .string "ccs-m5-execution/1.0.0"),
     ("replaces_ref", p.replacesRef.dump),
     ("accepts_interfaces", strings p.acceptsInterfaces),
     ("checks", listing CheckBinding.dump p.checks),
     ("executor", .object p.executor.fields),
     ("runner", p.runner.dump),
     ("repetitions", count p.repetitions)]

/-- What `execution_subject` says of an artifact. -/
def artifactDump (digestBytes : Bytes → String) (a : Artifact) : Value F :=
  .object
    [("test_id", .string a.testId),
     ("path", .string a.path),
     ("kind", .string a.kind.text),
     ("digest", .string a.digest),
     ("bytes_digest", .string (digestBytes a.data))]

/-- The payload of `execution_subject`. -/
def executionPayload (digestBytes : Bytes → String) (bound : BoundExecution F) : Value F :=
  .object
    [("domain", .string "ccs-m5-execution-approval/1.0.0"),
     ("operation_id", .string bound.request.operationId),
     ("principal", .string bound.request.principal.principalId),
     ("old", publicationProjection bound.request.old),
     ("new", publicationProjection bound.request.new),
     ("task", bound.request.task.dump),
     ("source_repository", .string bound.request.sourceRepository),
     ("source_commit", .string bound.request.sourceCommit),
     ("budget", bound.request.budget.dump),
     ("model_id", .string bound.request.modelId),
     ("tokenizer_profile", .string bound.request.tokenizerProfile),
     ("renderer_version", .string bound.request.rendererVersion),
     ("profile", bound.profile.dump),
     ("artifacts", listing (artifactDump digestBytes) bound.artifacts)]

/-- `execution_subject` -/
def executionSubject (digestBytes : Bytes → String) (bound : BoundExecution F) : Option String :=
  identity digestBytes (executionPayload digestBytes bound)

/-- The projection of a valid capsule has exact integers. -/
theorem freezable_coreProjection {capsule : Capsule (Number F)} (h : capsule.valid = true) :
    freezable (coreProjection capsule) = true := by
  have hwire := freezable_capsuleWireDict h
  rw [capsuleWireDict, freezable_object, Bool.and_eq_true, decide_eq_true_eq, List.map_append,
    List.all_append, Bool.and_eq_true] at hwire
  rw [coreProjection, freezable_object, Bool.and_eq_true, decide_eq_true_eq]
  exact ⟨(List.nodup_append.mp hwire.1).1, hwire.2.1⟩

/-! ## Section 3: What a subject determines -/

/-- Values with one identity are equal by value. -/
theorem same_of_identity {digestBytes : Bytes → String} (hdigest : Function.Injective digestBytes)
    {v w : Value F} {s : String} (hv : identity digestBytes v = some s)
    (hw : identity digestBytes w = some s) : Same v w := by
  obtain ⟨bytes, hbytes, rfl⟩ := Option.map_eq_some_iff.mp hv
  obtain ⟨bytes', hbytes', heq⟩ := Option.map_eq_some_iff.mp hw
  rw [hdigest heq] at hbytes'
  exact same_of_canonicalBytes hbytes hbytes'

/-- Objects that are equal by value have the same fields by value. -/
theorem lookup_of_same {ms ns : Members (Number F)} (h : Same (.object ms) (.object ns))
    (hms : (ms.map Prod.fst).Nodup) (hns : (ns.map Prod.fst).Nodup) (key : String) :
    (ms.lookup key).map byValue = (ns.lookup key).map byValue := by
  unfold Same Json.Same at h
  rw [sortKeys_map_object, sortKeys_map_object] at h
  have hlookup := congrArg (List.lookup key) (Json.object.inj h)
  have hkeys : ∀ ls : Members (Number F),
      (ls.map fun m => (m.1, (m.2.sortKeys utf16).map Number.value)).map Prod.fst =
        ls.map Prod.fst := by
    intro ls
    rw [List.map_map]
    rfl
  rw [lookup_sortMembers utf16 (by rwa [hkeys]), lookup_sortMembers utf16 (by rwa [hkeys])]
    at hlookup
  exact (lookup_map byValue ms key).symm.trans (hlookup.trans (lookup_map byValue ns key))

theorem InputState.text_injective : Function.Injective InputState.text := by
  intro a b h
  cases a <;> cases b <;> first | rfl | simp [InputState.text] at h

theorem CheckRole.text_injective : Function.Injective CheckRole.text := by
  intro a b h
  cases a <;> cases b <;> first | rfl | simp [CheckRole.text] at h

theorem CheckPhase.text_injective : Function.Injective CheckPhase.text := by
  intro a b h
  cases a <;> cases b <;> first | rfl | simp [CheckPhase.text] at h

theorem ArtifactKind.text_injective : Function.Injective ArtifactKind.text := by
  intro a b h
  cases a <;> cases b <;> first | rfl | simp [ArtifactKind.text] at h

theorem faithful_strings : Faithful (strings : List String → Value F) :=
  faithful_string.listing

theorem faithful_capsuleRef : Faithful (CapsuleRef.dump : CapsuleRef → Value F) := by
  intro a b h
  have hvalues := values_of_same h rfl (by simp)
  simp only [List.map_cons, List.map_nil, List.forall₂_cons, List.forall₂_nil_left_iff, and_true,
    Json.same_string] at hvalues
  cases a
  cases b
  simpa using hvalues

theorem faithful_literal {α : Type} [Enumeration α] : Faithful (literal : α → Value F) := by
  intro a b h
  exact Enumeration.injective a b (faithful_string _ _ h)

theorem faithful_task : Faithful (TaskContext.dump : TaskContext → Value F) := by
  intro a b h
  have hvalues := values_of_same h rfl (by simp)
  simp only [List.map_cons, List.map_nil, List.forall₂_cons, List.forall₂_nil_left_iff, and_true,
    Json.same_string, faithful_strings.same_iff, faithful_literal.same_iff] at hvalues
  cases a
  cases b
  simpa using hvalues

theorem faithful_budget : Faithful (ViewBudget.dump : ViewBudget → Value F) := by
  intro a b h
  have hvalues := values_of_same h rfl (by simp)
  simp only [List.map_cons, List.map_nil, List.forall₂_cons, List.forall₂_nil_left_iff, and_true,
    faithful_count.same_iff] at hvalues
  cases a
  cases b
  simpa using hvalues

theorem faithful_invocation :
    Faithful (fun i : Invocation => (.object i.fields : Value F)) := by
  intro a b h
  have hvalues := values_of_same h rfl (by simp [Invocation.fields])
  simp only [Invocation.fields, List.map_cons, List.map_nil, List.forall₂_cons,
    List.forall₂_nil_left_iff, and_true, Json.same_string, faithful_strings.same_iff] at hvalues
  cases a
  cases b
  simpa using hvalues

theorem faithful_probe : Faithful (SubjectProbe.dump : SubjectProbe → Value F) := by
  intro a b h
  have hvalues := values_of_same h rfl (by simp [Invocation.fields])
  simp only [Invocation.fields, List.cons_append, List.nil_append, List.map_cons, List.map_nil,
    List.forall₂_cons, List.forall₂_nil_left_iff, and_true, Json.same_string,
    faithful_strings.same_iff, InputState.text_injective.eq_iff] at hvalues
  obtain ⟨⟨_, _, _⟩, _, _⟩ := a
  obtain ⟨⟨_, _, _⟩, _, _⟩ := b
  simpa [and_assoc] using hvalues

omit [FloatText F] in
theorem lookup_presentBool (key k : String) (b : Option Bool) :
    (presentBool key b : Members (Number F)).lookup k =
      if k == key then b.map Json.bool else none := by
  cases b with
  | none => simp [presentBool]
  | some b =>
    rw [presentBool, List.lookup_cons]
    cases k == key <;> rfl

omit [FloatText F] in
theorem nodup_check (c : CheckBinding) :
    ((c.toInvocation.fields ++
      [("check_id", .string c.checkId),
       ("role", .string c.role.text),
       ("phase", .string c.phase.text),
       ("clause_path", .string c.clausePath),
       ("clause_sha256", .string c.clauseSha256),
       ("subject_probes", listing SubjectProbe.dump c.subjectProbes)] ++
      presentBool "old_expected" c.oldExpected ++ presentBool "new_expected" c.newExpected ++
      presentBool "pair_expected" c.pairExpected : Members (Number F)).map Prod.fst).Nodup := by
  cases c.oldExpected <;> cases c.newExpected <;> cases c.pairExpected <;>
    simp [Invocation.fields, presentBool]

theorem faithful_check : Faithful (CheckBinding.dump : CheckBinding → Value F) := by
  intro a b h
  have hfield := lookup_of_same h (nodup_check a) (nodup_check b)
  have htest := hfield "test_id"
  have hartifacts := hfield "artifact_ids"
  have hargv := hfield "argv"
  have hid := hfield "check_id"
  have hrole := hfield "role"
  have hphase := hfield "phase"
  have hpath := hfield "clause_path"
  have htext := hfield "clause_sha256"
  have hprobes := hfield "subject_probes"
  have hold := hfield "old_expected"
  have hnew := hfield "new_expected"
  have hpair := hfield "pair_expected"
  -- the fields that are always written, and the ones that stand only where they have a value
  simp [List.lookup_cons, Invocation.fields, ← same_iff, faithful_strings.same_iff]
    at htest hartifacts hargv
  simp [List.lookup_cons, Invocation.fields, ← same_iff, CheckRole.text_injective.eq_iff,
    CheckPhase.text_injective.eq_iff] at hid hrole hphase hpath htext
  simp [List.lookup_append, List.lookup_cons, Invocation.fields, lookup_presentBool, ← same_iff,
    faithful_probe.listing.same_iff] at hprobes hold hnew hpair
  -- a value that is absent is told from one that is present by its key
  have hbool : Function.Injective ((byValue : Value F → Json ℚ) ∘ Json.bool) :=
    fun b b' h => faithful_bool (F := F) b b' h
  have hold' := Option.map_injective hbool hold
  have hnew' := Option.map_injective hbool hnew
  have hpair' := Option.map_injective hbool hpair
  clear hfield h hold hnew hpair
  obtain ⟨⟨_, _, _⟩, _, _, _, _, _, _, _, _, _⟩ := a
  obtain ⟨⟨_, _, _⟩, _, _, _, _, _, _, _, _, _⟩ := b
  simp_all

/-- A runner configuration with its CPU limit by value. -/
def RunnerProfile.byValue (r : RunnerProfile (Number F)) : RunnerProfile ℚ :=
  { r with cpuLimit := r.cpuLimit.value }

/-- A profile with its CPU limit by value. -/
def ExecutionProfile.byValue (p : ExecutionProfile (Number F)) : ExecutionProfile ℚ :=
  { p with runner := p.runner.byValue }

theorem runner_of_same {a b : RunnerProfile (Number F)} (h : Same a.dump b.dump) :
    a.byValue = b.byValue := by
  have hvalues := values_of_same h rfl (by simp)
  simp only [List.map_cons, List.map_nil, List.forall₂_cons, List.forall₂_nil_left_iff, and_true,
    Json.same_string, Json.same_number, faithful_count.same_iff] at hvalues
  obtain ⟨⟨_, _, _, _, _⟩, _, _, _, _, _⟩ := a
  obtain ⟨⟨_, _, _, _, _⟩, _, _, _, _, _⟩ := b
  simp_all [RunnerProfile.byValue]

theorem profile_of_same {a b : ExecutionProfile (Number F)} (h : Same a.dump b.dump) :
    a.byValue = b.byValue := by
  have hvalues := values_of_same h rfl (by simp)
  simp only [List.map_cons, List.map_nil, List.forall₂_cons, List.forall₂_nil_left_iff, and_true,
    Json.same_string, faithful_capsuleRef.same_iff, faithful_strings.same_iff,
    faithful_check.listing.same_iff, faithful_invocation.same_iff, faithful_count.same_iff]
    at hvalues
  obtain ⟨_, href, haccepts, hchecks, hexecutor, hrunner, hrepetitions⟩ := hvalues
  have hrunner' := runner_of_same hrunner
  cases a
  cases b
  simp_all [ExecutionProfile.byValue]

end ContractCapsule.Twin
