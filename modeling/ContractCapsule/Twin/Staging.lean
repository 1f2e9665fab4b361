import ContractCapsule.Library.Handlers
import ContractCapsule.Library.Loops
import ContractCapsule.Twin.Process

/-!
# Staging

`swap/staging.py`: the bytes of a stage are checked before they are written below a fresh directory.
The operations on files are the host's and may fail; everything else is decided by the arguments.

`prepareStage_raises` says that a stage that cannot be prepared raises an `OSError` or a
`ValueError`, never a `KeyError` or a `StopIteration` of its look-ups.
-/

namespace ContractCapsule.Twin

open Library Models

/-! ## Section 1: Arguments -/

/-- `Invocation` -/
structure Invocation where
  testId : String
  artifactIds : List String
  argv : List String
deriving DecidableEq, Repr

/-- The checks of the fields of an `Invocation`. -/
def Invocation.valid (invocation : Invocation) : Bool :=
  isNonEmpty invocation.testId && invocation.artifactIds.all isNonEmpty &&
    !invocation.artifactIds.isEmpty && decide invocation.artifactIds.Nodup &&
    invocation.argv.all (fun item => !item.toList.contains (Char.ofNat 0)) &&
    invocation.artifactIds.contains invocation.testId

/-- The kinds of an `Artifact`. -/
inductive ArtifactKind where
  | static
  | evidence
  | behavioral
  | compression
deriving DecidableEq, Repr

/-- `Artifact` -/
structure Artifact where
  testId : String
  path : String
  kind : ArtifactKind
  digest : String
  data : Bytes
deriving DecidableEq, Repr

/-- The checks of the fields of an `Artifact`. -/
def Artifact.valid (artifact : Artifact) : Bool :=
  isNonEmpty artifact.testId && isNonEmpty artifact.path && isDigest artifact.digest

/-- A value of the inputs of a stage. -/
inductive StageInput where
  | tree (tree : FrozenTree)
  | bytes (data : Bytes)
deriving DecidableEq, Repr

/-- `TREE_INPUTS` -/
def treeInputs : List String := ["initial", "current", "old_final", "new_final"]

/-- `BYTE_INPUTS` -/
def byteInputs : List String := ["task", "view", "observations"]

/-- `INPUT_BYTES_LIMIT` -/
def inputBytesLimit : ℕ := 16 * 1024 * 1024

/-! ## Section 2: `verified_artifacts` -/

/-- `by_id.get(test_id)`; a later artifact takes the place of an earlier one. -/
def artifactOf (artifacts : List Artifact) (testId : String) : Option Artifact :=
  artifacts.reverse.find? fun artifact => artifact.testId = testId

/-- `PurePosixPath(path).suffix` of a safe relative path -/
def suffix (path : String) : List Char :=
  let name := (splitOn '/' path.toList).getLastD []
  let extension := (name.reverse.takeWhile fun c => c ≠ '.').reverse
  -- the dot stands neither at the start nor at the end of the name
  if extension ≠ [] ∧ extension.length + 1 < name.length then '.' :: extension else []

/-- The check of one artifact. -/
def verifyArtifact (digestBytes : Bytes → String) (artifact : Artifact) : Except PyError Unit :=
  raiseIf (isSafeRelativePath artifact.path "" = false ∨
      artifact.path.toList.any isGlobChar = true ∨ digestBytes artifact.data ≠ artifact.digest)
    (.runnerError "unsafe artifact path or changed bytes")

/-- `verified_artifacts` -/
def verifiedArtifacts (digestBytes : Bytes → String) (invocation : Invocation)
    (artifacts : List Artifact) : Except PyError (List Artifact) := do
  raiseIf (invocation.valid = false) .valueError
  raiseIf (artifacts.all Artifact.valid = false) .valueError
  raiseIf (¬ (artifacts.map Artifact.testId).Nodup ∨ ¬ (artifacts.map Artifact.path).Nodup)
    (.runnerError "duplicate artifact identity/path")
  checkAll (verifyArtifact digestBytes) artifacts
  raiseIf (invocation.artifactIds.all (fun id => (artifactOf artifacts id).isSome) = false)
    (.runnerError "artifact subset incomplete")
  let selected ← invocation.artifactIds.mapM fun id => orRaise (artifactOf artifacts id) .keyError
  let entry ← orRaise (artifactOf artifacts invocation.testId) .keyError
  raiseIf (suffix entry.path ≠ ['.', 'p', 'y']) (.runnerError "entry must be a Python artifact")
  pure selected

/-! ## Section 3: `prepare_stage` -/

/-- What an operation on files raises. -/
inductive FileError where
  | osError
  | valueError
deriving DecidableEq, Repr

/-- The error as an exception. -/
def FileError.toPyError : FileError → PyError
  | .osError => .osError
  | .valueError => .valueError

/-- What is written below the directory of a stage. -/
inductive MountWrite where
  /-- `root.chmod(0o755)` -/
  | root
  /-- `program_root.mkdir(mode=0o755)` -/
  | programRoot
  /-- the parents of the path, the bytes and the mode of an artifact -/
  | artifact (artifact : Artifact)
  /-- `input_root.mkdir(mode=0o755)` -/
  | inputRoot
  /-- `value.materialize(root / name)` -/
  | treeInput (name : String) (tree : FrozenTree)
  /-- the bytes and the mode of `root / (name + ".json")` -/
  | byteInput (name : String) (data : Bytes)
  /-- `seed.materialize(root / "seed")` -/
  | seed (tree : FrozenTree)
deriving DecidableEq, Repr

/-- The files of the host: how an operation ends after those before it. -/
abbrev FileHost := List MountWrite → MountWrite → Except FileError Unit

/-- An operation on files. -/
def mount (files : FileHost) (operation : MountWrite) : Tx (List MountWrite) PyError Unit := do
  query fun done => (files done operation).mapError FileError.toPyError
  write fun done => done ++ [operation]

/-- A loop whose result is not used. -/
def forEach {α : Type} (body : α → Tx (List MountWrite) PyError Unit) :
    List α → Tx (List MountWrite) PyError Unit
  | [] => pure ()
  | x :: xs => do
    body x
    forEach body xs

/-- `_write_input` -/
def writeInput (files : FileHost) (digestBytes : Bytes → String) (config : RunnerConfig)
    (input : String × StageInput) : Tx (List MountWrite) PyError Unit :=
  match input.2 with
  | .tree tree =>
    if input.1 ∈ treeInputs then do
      check ((validateTree digestBytes tree config).mapError ofTreeError)
      mount files (.treeInput input.1 tree)
    else check (.error (.runnerError "stage input type or size invalid"))
  | .bytes data =>
    if input.1 ∈ byteInputs ∧ data.length ≤ inputBytesLimit then
      mount files (.byteInput input.1 data)
    else check (.error (.runnerError "stage input type or size invalid"))

/-- The workspace of a stage that is given none. -/
def emptyTree : FrozenTree := ⟨⟨[⟨".", .directory, 0o755, none, 0⟩]⟩, []⟩

/-- `prepare_stage` -/
def prepareStage (files : FileHost) (digestBytes : Bytes → String) (invocation : Invocation)
    (artifacts : List Artifact) (inputs : List (String × StageInput))
    (workspace : Option FrozenTree) (config : RunnerConfig) :
    Tx (List MountWrite) PyError String := do
  let selected ← check (verifiedArtifacts digestBytes invocation artifacts)
  check (raiseIf (inputs.all (fun input => decide (input.1 ∈ treeInputs ++ byteInputs)) = false)
    (.runnerError "unsupported stage input"))
  mount files .root
  mount files .programRoot
  forEach (fun artifact => mount files (.artifact artifact)) selected
  mount files .inputRoot
  forEach (writeInput files digestBytes config) inputs
  let seed := workspace.getD emptyTree
  check ((validateTree digestBytes seed config).mapError ofTreeError)
  mount files (.seed seed)
  -- `next` raises `StopIteration` when it finds nothing
  check (orRaise ((selected.find? fun a => a.testId = invocation.testId).map Artifact.path) .other)

/-! ## Section 4: What preparation raises -/

/-- The errors of a preparation. -/
abbrev Prepared {σ α : Type} (p : Tx σ PyError α) : Prop :=
  RaisesOnly (fun e => e.isOsOrValue = true) p

theorem prepared_mount (files : FileHost) (operation : MountWrite) :
    Prepared (mount files operation) := by
  apply raisesOnly_bind
  · intro done e hraise
    rw [raises_query] at hraise
    cases hfile : files done operation with
    | ok u => simp [hfile, Except.mapError] at hraise
    | error fileError =>
      simp only [hfile, Except.mapError, Except.error.injEq] at hraise
      subst hraise
      cases fileError <;> rfl
  · rintro _ s e ⟨_, hraise⟩
    cases hraise

theorem prepared_forEach {α : Type} {body : α → Tx (List MountWrite) PyError Unit}
    (h : ∀ x, Prepared (body x)) (xs : List α) : Prepared (forEach body xs) := by
  induction xs with
  | nil => exact raisesOnly_pure _
  | cons x xs ih => exact raisesOnly_bind (h x) fun _ => ih

theorem prepared_validateTree (digestBytes : Bytes → String) (tree : FrozenTree)
    (config : RunnerConfig) :
    Prepared (check ((validateTree digestBytes tree config).mapError ofTreeError) :
      Tx (List MountWrite) PyError Unit) := by
  apply raisesOnly_check
  intro e he
  cases htree : validateTree digestBytes tree config with
  | ok u => simp [htree, Except.mapError] at he
  | error treeError =>
    simp only [htree, Except.mapError, Except.error.injEq] at he
    subst he
    exact isOsOrValue_ofTreeError treeError

theorem prepared_writeInput (files : FileHost) (digestBytes : Bytes → String)
    (config : RunnerConfig) (input : String × StageInput) :
    Prepared (writeInput files digestBytes config input) := by
  have hinvalid : Prepared (check (.error (.runnerError "stage input type or size invalid")) :
      Tx (List MountWrite) PyError Unit) := by
    apply raisesOnly_check
    intro e he
    cases he
    rfl
  unfold writeInput
  split
  · split
    · exact raisesOnly_bind (prepared_validateTree _ _ _) fun _ => prepared_mount _ _
    · exact hinvalid
  · split
    · exact prepared_mount _ _
    · exact hinvalid

theorem raiseIf_isOsOrValue {p : Prop} [Decidable p] {e e' : PyError} (h : e.isOsOrValue = true)
    (hraise : raiseIf p e = .error e') : e'.isOsOrValue = true := by
  rw [raiseIf_eq_error] at hraise
  rw [← hraise.2]
  exact h

/-- The look-ups of the selection do not fail, and they find what they looked for. -/
theorem mapM_artifactOf {artifacts : List Artifact} {ids : List String}
    (h : ids.all (fun id => (artifactOf artifacts id).isSome) = true) :
    ∃ selected, ids.mapM (fun id => orRaise (artifactOf artifacts id) PyError.keyError) =
      .ok selected ∧ selected.map Artifact.testId = ids := by
  induction ids with
  | nil => exact ⟨[], rfl, rfl⟩
  | cons id ids ih =>
    rw [List.all_cons, Bool.and_eq_true] at h
    obtain ⟨selected, hselected, hids⟩ := ih h.2
    obtain ⟨artifact, hartifact⟩ := Option.isSome_iff_exists.mp h.1
    refine ⟨artifact :: selected, ?_, ?_⟩
    · rw [List.mapM_cons, hselected, hartifact]
      rfl
    · have hfound := List.find?_some hartifact
      rw [List.map_cons, hids, of_decide_eq_true hfound]

/-- What `verified_artifacts` raises is a `ValueError`; its look-ups succeed. -/
theorem verifiedArtifacts_raises {digestBytes : Bytes → String} {invocation : Invocation}
    {artifacts : List Artifact} {e : PyError}
    (h : verifiedArtifacts digestBytes invocation artifacts = .error e) :
    e.isOsOrValue = true := by
  unfold verifiedArtifacts at h
  rcases (Except.bind_eq_error _ _ _).mp h with hraise | ⟨_, hinvocation, h⟩
  · exact raiseIf_isOsOrValue rfl hraise
  rcases (Except.bind_eq_error _ _ _).mp h with hraise | ⟨_, _, h⟩
  · exact raiseIf_isOsOrValue rfl hraise
  rcases (Except.bind_eq_error _ _ _).mp h with hraise | ⟨_, _, h⟩
  · exact raiseIf_isOsOrValue rfl hraise
  rcases (Except.bind_eq_error _ _ _).mp h with hraise | ⟨_, _, h⟩
  · obtain ⟨artifact, _, hraise⟩ := check_of_checkAll_eq_error hraise
    exact raiseIf_isOsOrValue rfl hraise
  rcases (Except.bind_eq_error _ _ _).mp h with hraise | ⟨_, hsubset, h⟩
  · exact raiseIf_isOsOrValue rfl hraise
  rw [raiseIf_eq_ok, Bool.not_eq_false] at hinvocation hsubset
  obtain ⟨selected, hselected, _⟩ := mapM_artifactOf hsubset
  -- the entry point is one of the identifiers, so its artifact is there
  have hentry : invocation.testId ∈ invocation.artifactIds := by
    simp only [Invocation.valid, Bool.and_eq_true] at hinvocation
    simpa using hinvocation.2
  obtain ⟨entry, hfound⟩ := Option.isSome_iff_exists.mp (List.all_eq_true.mp hsubset _ hentry)
  rw [hselected, hfound] at h
  simp only [Except.ok_bind, orRaise] at h
  rcases (Except.bind_eq_error _ _ _).mp h with hraise | ⟨_, _, h⟩
  · exact raiseIf_isOsOrValue rfl hraise
  · cases h

/-- The selection holds the entry point. -/
theorem mem_of_verifiedArtifacts {digestBytes : Bytes → String} {invocation : Invocation}
    {artifacts selected : List Artifact}
    (h : verifiedArtifacts digestBytes invocation artifacts = .ok selected) :
    ∃ entry, selected.find? (fun a => a.testId = invocation.testId) = some entry := by
  simp only [verifiedArtifacts, Except.bind_eq_ok, Except.pure_eq_ok, raiseIf_eq_ok,
    Bool.not_eq_false] at h
  obtain ⟨_, hinvocation, _, _, _, _, _, _, _, hsubset, selected', hselected, _, _, _, _, rfl⟩ := h
  obtain ⟨_, hsame, hids⟩ := mapM_artifactOf hsubset
  rw [hsame] at hselected
  cases hselected
  apply Option.isSome_iff_exists.mp
  rw [List.find?_isSome]
  have hentry : invocation.testId ∈ selected'.map Artifact.testId := by
    rw [hids]
    simp only [Invocation.valid, Bool.and_eq_true] at hinvocation
    simpa using hinvocation.2
  obtain ⟨entry, hmem, htest⟩ := List.mem_map.mp hentry
  exact ⟨entry, hmem, by simpa using htest⟩

/-- **Preparation raises only what the runner catches.** -/
theorem prepareStage_raises (files : FileHost) (digestBytes : Bytes → String)
    (invocation : Invocation) (artifacts : List Artifact) (inputs : List (String × StageInput))
    (workspace : Option FrozenTree) (config : RunnerConfig) :
    Prepared (prepareStage files digestBytes invocation artifacts inputs workspace config) := by
  unfold prepareStage
  apply raisesOnly_check_bind
  · intro e he
    exact verifiedArtifacts_raises he
  intro selected hselected
  -- the entry is among the artifacts that were verified, so its lookup at the end cannot fail
  obtain ⟨entry, hentry⟩ := mem_of_verifiedArtifacts hselected
  apply raisesOnly_check_bind
  · intro e he
    exact raiseIf_isOsOrValue rfl he
  intro _ _
  apply raisesOnly_bind (prepared_mount _ _)
  intro _
  apply raisesOnly_bind (prepared_mount _ _)
  intro _
  apply raisesOnly_bind (prepared_forEach (fun _ => prepared_mount _ _) _)
  intro _
  apply raisesOnly_bind (prepared_mount _ _)
  intro _
  apply raisesOnly_bind (prepared_forEach (prepared_writeInput _ _ _) _)
  intro _
  apply raisesOnly_bind (prepared_validateTree _ _ _)
  intro _
  apply raisesOnly_bind (prepared_mount _ _)
  intro _
  apply raisesOnly_check
  intro e he
  rw [hentry, Option.map_some, orRaise] at he
  cases he

end ContractCapsule.Twin
