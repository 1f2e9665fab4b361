import ContractCapsule.Models.View
import ContractCapsule.Twin.Staging

/-!
# Execution Contracts

`validate/contracts.py` and the transport of `validate/models.py`: a replacement request is bound to
the execution profile that its new capsule carries. Every clause of the replacement contract is
checked by one binding of the profile, and the programs that are checked share nothing with the
programs that check them.

What a bound execution guarantees is said by `parseExecutionContract_governs`.
-/

namespace ContractCapsule.Twin

open Library Models
open Enumeration (wire)

/-! ## Section 1: Profiles -/

/-- The input states of a `SubjectProbe`. -/
inductive InputState where
  | initial
  | current
  | oldFinal
  | newFinal
deriving DecidableEq, Repr

/-- The text of an input state. -/
def InputState.text : InputState → String
  | .initial => "initial"
  | .current => "current"
  | .oldFinal => "old_final"
  | .newFinal => "new_final"

/-- `SubjectProbe` -/
structure SubjectProbe extends Invocation where
  probeId : String
  inputState : InputState
deriving DecidableEq, Repr

/-- The roles of a `CheckBinding`. -/
inductive CheckRole where
  | precondition
  | static
  | behavioral
  | target
  | invariant
  | spillover
  | differential
deriving DecidableEq, Repr

/-- The text of a role. -/
def CheckRole.text : CheckRole → String
  | .precondition => "precondition"
  | .static => "static"
  | .behavioral => "behavioral"
  | .target => "target"
  | .invariant => "invariant"
  | .spillover => "spillover"
  | .differential => "differential"

/-- The phases of a `CheckBinding`. -/
inductive CheckPhase where
  | pre
  | post
  | pair
deriving DecidableEq, Repr

/-- The text of a phase. -/
def CheckPhase.text : CheckPhase → String
  | .pre => "pre"
  | .post => "post"
  | .pair => "pair"

/-- `CheckBinding` -/
structure CheckBinding extends Invocation where
  checkId : String
  role : CheckRole
  phase : CheckPhase
  clausePath : String
  clauseSha256 : String
  subjectProbes : List SubjectProbe
  oldExpected : Option Bool
  newExpected : Option Bool
  pairExpected : Option Bool
deriving DecidableEq, Repr

/-- The checks of the fields of a `CheckBinding`. Its phase says which expectations it has. -/
def CheckBinding.valid (check : CheckBinding) : Bool :=
  check.toInvocation.valid && isNonEmpty check.checkId && isNonEmpty check.clausePath &&
    isDigest check.clauseSha256 &&
    check.subjectProbes.all (fun probe => probe.toInvocation.valid && isNonEmpty probe.probeId) &&
    match check.phase with
    | .pair => check.pairExpected.isSome && check.oldExpected.isNone && check.newExpected.isNone
    | _ => check.oldExpected.isSome && check.newExpected.isSome && check.pairExpected.isNone

/-- `RunnerConfig`, with the number that the profile gives for the CPU limit. -/
structure RunnerProfile (ν : Type) extends RunnerConfig where
  imageDigest : String
  platform : String
  cpuLimit : ν
  memoryBytes : ℕ
  processLimit : ℕ
deriving DecidableEq

/-- `ExecutionProfile` -/
structure ExecutionProfile (ν : Type) where
  replacesRef : CapsuleRef
  acceptsInterfaces : List String
  checks : List CheckBinding
  executor : Invocation
  runner : RunnerProfile ν
  repetitions : ℕ
deriving DecidableEq

/-- The checks of the fields of an `ExecutionProfile` but for the limits of its runner. -/
def ExecutionProfile.valid {ν : Type} (profile : ExecutionProfile ν) : Bool :=
  profile.replacesRef.valid && profile.acceptsInterfaces.all isNonEmpty &&
    decide profile.acceptsInterfaces.Nodup && !profile.checks.isEmpty &&
    profile.checks.all CheckBinding.valid && profile.executor.valid &&
    decide (1 ≤ profile.repetitions ∧ profile.repetitions ≤ 3)

/-! ## Section 2: Requests -/

variable {F : Type} [FloatText F]

/-- `ReplacementRequest` -/
structure ReplacementRequest (F : Type) [FloatText F] where
  operationId : String
  principal : Principal
  old : Publication F
  new : Publication F
  task : TaskContext
  sourceRepository : String
  sourceCommit : String
  budget : ViewBudget
  modelId : String
  tokenizerProfile : String
  rendererVersion : String

/-- The capsule that is replaced. -/
abbrev ReplacementRequest.oldCapsule (request : ReplacementRequest F) : Capsule (Number F) :=
  request.old.val.capsule

/-- The capsule that replaces it. -/
abbrev ReplacementRequest.newCapsule (request : ReplacementRequest F) : Capsule (Number F) :=
  request.new.val.capsule

/-- `request.new.capsule.replacement_contract` -/
abbrev ReplacementRequest.contract (request : ReplacementRequest F) :
    ReplacementContract (Number F) := request.newCapsule.replacementContract

/-- `BoundExecution` -/
structure BoundExecution (F : Type) [FloatText F] where
  request : ReplacementRequest F
  profile : ExecutionProfile (Number F)
  artifacts : List Artifact

/-! ## Section 3: Publications -/

/-- Python takes `True` for 1 and `False` for 0 when it compares. -/
def numeric (b : Bool) : Number F := .int (if b then 1 else 0)

mutual

/-- A value with its booleans replaced by the numbers they are equal to. -/
def unbool : Value F → Value F
  | .null => .null
  | .bool b => .number (numeric b)
  | .number n => .number n
  | .string s => .string s
  | .array xs => .array (unboolItems xs)
  | .object ms => .object (unboolMembers ms)

def unboolItems : List (Value F) → List (Value F)
  | [] => []
  | v :: vs => unbool v :: unboolItems vs

def unboolMembers : List (String × Value F) → List (String × Value F)
  | [] => []
  | (k, v) :: ms => (k, unbool v) :: unboolMembers ms

end

/-- `==` of dictionaries that hold JSON values. -/
def pyEqual (v w : Value F) : Bool := decide (byValue (unbool v) = byValue (unbool w))

/-- `core_projection` -/
def coreProjection (capsule : Capsule (Number F)) : Value F :=
  .object (coreMembers capsule ++ signatureMembers capsule.detachedSignature)

/-- `publication_projection` -/
def publicationProjection (publication : Publication F) : Value F :=
  .object
    [("capsule", coreProjection publication.val.capsule),
     ("registry_status", .string publication.val.registryStatus)]

/-- `ExecutionContractError`. It has one message, "execution contract rejected". -/
inductive ContractError where
  | rejected
deriving DecidableEq, Repr

/-- What an execution contract is parsed with. -/
structure ContractHost (F : Type) [FloatText F] where
  /-- `Registry.get` -/
  registry : (capsuleId version principalId : String) → Option (Publication F)
  /-- `ArtifactResolver.resolve` -/
  resolve : Publication F → Option (List Artifact)
  /-- `ExecutionProfile.model_validate` -/
  validateProfile : Value F → Option (ExecutionProfile (Number F))
  /-- `"sha256:" + hashlib.sha256(text.encode()).hexdigest()` -/
  digestText : String → String
  /-- `"sha256:" + hashlib.sha256(data).hexdigest()` -/
  digestBytes : Bytes → String
  /-- `str.casefold` -/
  casefold : String → String

/-- One round of `_verify_publications`. -/
def verifyPublication (host : ContractHost F) (principal : Principal)
    (publication : Publication F) : Except ContractError Unit := do
  let manifest := publication.val.capsule.controlManifest
  let actual ← orRaise (host.registry manifest.capsuleId manifest.version principal.principalId)
    .rejected
  raiseIf (actual.val.registryStatus ≠ "PUBLISHED" ∨
    pyEqual (publicationProjection actual) (publicationProjection publication) = false) .rejected

/-- `_verify_publications` -/
def verifyPublications (host : ContractHost F) (request : ReplacementRequest F) :
    Except ContractError Unit :=
  checkAll (verifyPublication host request.principal) [request.old, request.new]

/-! ## Section 4: Compatibility -/

/-- A risk that asks for three repetitions. -/
def isHighRisk (risk : Risk) : Bool := decide (risk = .high ∨ risk = .critical)

/-- The repetitions that a request asks for. -/
def requiredRepetitions (request : ReplacementRequest F) : ℕ :=
  if isHighRisk request.task.risk ∨ isHighRisk request.contract.activation.risk then 3 else 1

/-- `_compatibility` -/
def compatibility (request : ReplacementRequest F) (profile : ExecutionProfile (Number F)) :
    Except ContractError Unit := do
  let old := request.oldCapsule.controlManifest
  let new := request.newCapsule.controlManifest
  let contract := request.contract
  let ref := profile.replacesRef
  raiseIf ((ref.capsuleId, ref.version, ref.digest) ≠
    (old.capsuleId, old.version, old.contentDigest)) .rejected
  let oldName := old.capsuleId ++ "@" ++ old.version
  raiseIf (contract.replaces ≠ some oldName ∨ contract.rollback.pointer ≠ oldName) .rejected
  raiseIf (¬ old.provides ⊆ profile.acceptsInterfaces) .rejected
  raiseIf (¬ request.task.requiredInterfaces ⊆ new.provides) .rejected
  raiseIf (request.task.repository ≠ request.sourceRepository) .rejected
  raiseIf (request.task.tenant ≠ old.tenant ∨ old.tenant ≠ new.tenant) .rejected
  raiseIf (profile.repetitions ≠ requiredRepetitions request) .rejected

/-! ## Section 5: Clauses -/

/-- A clause of a contract, and the role and the phase of the check it asks for. -/
structure Clause where
  path : String
  role : CheckRole
  phase : CheckPhase
  text : String
deriving DecidableEq, Repr

/-- The collections of clauses that `_clauses` goes through. -/
def clauseCollections (contract : ReplacementContract (Number F)) :
    List (String × CheckRole × CheckPhase × List String) :=
  [("preconditions", .precondition, .pre, contract.preconditions),
   ("target_effects", .target, .post, contract.targetEffects),
   ("protected_invariants", .invariant, .post, contract.protectedInvariants),
   ("forbidden_spillover", .spillover, .post, contract.forbiddenSpillover),
   ("verification/static", .static, .post, contract.verification.static),
   ("verification/behavioral", .behavioral, .post, contract.verification.behavioral),
   ("verification/differential", .differential, .pair, contract.verification.differential)]

/-- A role whose collection may not be empty. -/
def CheckRole.isBehavioral (role : CheckRole) : Bool :=
  decide (role = .target ∨ role = .invariant ∨ role = .spillover)

/-- The clauses of one collection. -/
def collectionClauses (collection : String × CheckRole × CheckPhase × List String) :
    List Clause :=
  collection.2.2.2.mapIdx fun index text =>
    ⟨collection.1 ++ "/" ++ toString index, collection.2.1, collection.2.2.1, text⟩

/-- `_clauses` -/
def clauses (request : ReplacementRequest F) : Except ContractError (List Clause) := do
  let collections := clauseCollections request.contract
  raiseIf (collections.any fun collection =>
    collection.2.1.isBehavioral && collection.2.2.2.isEmpty) .rejected
  pure (collections.flatMap collectionClauses)

/-- `_expectations` -/
def expectations (check : CheckBinding) : Except ContractError Unit := do
  let pair := (check.oldExpected, check.newExpected)
  raiseIf ((check.role = .precondition ∨ check.role = .static ∨ check.role = .behavioral ∨
    check.role = .invariant) ∧ pair ≠ (some true, some true)) .rejected
  raiseIf (check.role = .target ∧ check.newExpected ≠ some true) .rejected
  raiseIf (check.role = .spillover ∧ pair ≠ (some false, some false)) .rejected
  raiseIf (check.role = .differential ∧ check.pairExpected ≠ some true) .rejected
  let states : List InputState :=
    if check.phase = .pair then [.initial, .oldFinal, .newFinal] else [.initial, .current]
  raiseIf (∃ probe ∈ check.subjectProbes, probe.inputState ∉ states) .rejected

/-- The loop body of `_check_coverage`. -/
def checkClause (host : ContractHost F) (found : List Clause) (check : CheckBinding) :
    Except ContractError Unit := do
  let clause ← orRaise (found.find? fun clause => clause.path = check.clausePath) .rejected
  raiseIf ((check.role, check.phase, check.clauseSha256) ≠
    (clause.role, clause.phase, host.digestText clause.text)) .rejected
  expectations check

/-- `_check_coverage` -/
def checkCoverage (host : ContractHost F) (request : ReplacementRequest F)
    (profile : ExecutionProfile (Number F)) : Except ContractError Unit := do
  let found ← clauses request
  let paths := profile.checks.map CheckBinding.clausePath
  let probes : List String :=
    profile.checks.flatMap fun check => check.subjectProbes.map SubjectProbe.probeId
  raiseIf (¬ (profile.checks.map CheckBinding.checkId).Nodup) .rejected
  raiseIf (¬ paths.Nodup ∨ paths.toFinset ≠ (found.map Clause.path).toFinset) .rejected
  raiseIf (¬ probes.Nodup) .rejected
  checkAll (checkClause host found) profile.checks
  raiseIf (¬ ∃ check ∈ profile.checks, check.role = .target ∧ check.oldExpected = some false)
    .rejected

/-! ## Section 6: Artifacts -/

/-- The kind of an artifact for a test. -/
def kindOf : TestKind → ArtifactKind
  | .static => .static
  | .evidence => .evidence
  | .behavioral => .behavioral
  | .compression => .compression

/-- The text of a kind. -/
def ArtifactKind.text : ArtifactKind → String
  | .static => "static"
  | .evidence => "evidence"
  | .behavioral => "behavioral"
  | .compression => "compression"

/-- `_invocation`. It returns the artifacts that the invocation uses. -/
def invocationArtifacts (artifacts : List Artifact) (kind : ArtifactKind)
    (invocation : Invocation) : Except ContractError (List String) := do
  raiseIf (∃ id ∈ invocation.artifactIds, artifactOf artifacts id = none) .rejected
  let entry ← orRaise (artifactOf artifacts invocation.testId) .rejected
  raiseIf (entry.kind ≠ kind ∨ ¬ ("tests/" ++ kind.text ++ "/").toList <+: entry.path.toList ∨
    ¬ ".py".toList <:+ entry.path.toList) .rejected
  pure invocation.artifactIds

/-- One round of the loop over the tests in `_verify_artifacts`. -/
def verifyTest (host : ContractHost F) (checksums : List ArtifactChecksum)
    (artifacts : List Artifact) (test : TestDefinition) : Except ContractError Unit := do
  let artifact ← orRaise (artifactOf artifacts test.testId) .rejected
  raiseIf ((artifact.path, artifact.kind, artifact.digest) ≠
    (test.path, kindOf test.kind, test.digest)) .rejected
  let checksum := (checksums.reverse.find? fun item => item.path = test.path).map
    ArtifactChecksum.digest
  raiseIf (checksum ≠ some test.digest ∨ host.digestBytes artifact.data ≠ test.digest) .rejected

/-- The artifacts that the check of a binding uses, and those that its probes use. -/
def checkArtifacts (artifacts : List Artifact) (check : CheckBinding) :
    Except ContractError (List String × List String) := do
  let kind := if check.role = .precondition ∨ check.role = .static then .static else .behavioral
  let checker ← invocationArtifacts artifacts kind check.toInvocation
  let probes ← check.subjectProbes.mapM fun probe =>
    invocationArtifacts artifacts .behavioral probe.toInvocation
  pure (checker, probes.flatten)

/-- The two sets share an element. -/
def overlap (xs ys : List String) : Bool := xs.any ys.contains

/-- `_disjoint` -/
def disjoint (host : ContractHost F) (artifacts : List Artifact) (subjects checkers : List String) :
    Except ContractError Unit := do
  let used (ids : List String) := ids.filterMap (artifactOf artifacts)
  let paths (ids : List String) := (used ids).map fun artifact => host.casefold artifact.path
  let bytes (ids : List String) := (used ids).map Artifact.digest
  raiseIf (overlap subjects checkers ∨ overlap (paths subjects) (paths checkers) ∨
    overlap (bytes subjects) (bytes checkers)) .rejected

/-- `_verify_artifacts` -/
def verifyArtifacts (host : ContractHost F) (request : ReplacementRequest F)
    (profile : ExecutionProfile (Number F)) (values : List Artifact) :
    Except ContractError Unit := do
  let integrity := request.newCapsule.testsIntegrity
  raiseIf (¬ (values.map Artifact.testId).Nodup ∨
    (values.map Artifact.testId).toFinset ≠
      (integrity.tests.map TestDefinition.testId).toFinset) .rejected
  checkAll (verifyTest host integrity.artifactChecksums values) integrity.tests
  let executor ← invocationArtifacts values .behavioral profile.executor
  let used ← profile.checks.mapM (checkArtifacts values)
  disjoint host values (executor ++ (used.map Prod.snd).flatten) (used.map Prod.fst).flatten

/-! ## Section 7: Parsing -/

/-- The checks of the fields of a request. -/
def ReplacementRequest.valid (request : ReplacementRequest F) : Bool :=
  isNonEmpty request.operationId && isNonEmpty request.sourceRepository &&
    isNonEmpty request.modelId && isNonEmpty request.tokenizerProfile &&
    isNonEmpty request.rendererVersion && request.task.repository == request.sourceRepository

/-- `parse_execution_contract` -/
def parseExecutionContract (host : ContractHost F) (request : ReplacementRequest F) :
    Except ContractError (BoundExecution F) := do
  raiseIf (request.valid = false) .rejected
  verifyPublications host request
  let raw ← orRaise (request.contract.extensions.lookup "x-m5-execution") .rejected
  let profile ← orRaise (host.validateProfile raw) .rejected
  compatibility request profile
  checkCoverage host request profile
  let artifacts ← orRaise (host.resolve request.new) .rejected
  verifyArtifacts host request profile artifacts
  pure ⟨request, profile, artifacts⟩

end ContractCapsule.Twin
