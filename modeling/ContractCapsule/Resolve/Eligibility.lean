import ContractCapsule.Resolve.Scope
import ContractCapsule.Resolve.Versions

/-!
# Eligibility

`resolve/eligibility.py`: the admission of publications to a compilation, before anything is
ranked. The registry, the authorizer and the freshness checker are services that answer the same
question the same way each time; what they answer is arbitrary, and a service that raises has no
answer.
-/

namespace ContractCapsule.Resolve

open Library Models
open Enumeration (wire)

variable {F : Type} [FloatText F]

/-! ## Section 1: Services -/

/-- `EligibilityAuthorizer` -/
structure EligibilityAuthorizer (F : Type) where
  version : String
  authorize : Capsule (Number F) → Option (Atom (Number F)) → TaskContext → Principal → Option Bool
  contextDigest : TaskContext → Principal → Option String

/-- `FreshnessChecker` -/
structure FreshnessChecker (F : Type) where
  version : String
  check : Capsule (Number F) → Option (Atom (Number F)) → String → Option Bool
  contextDigest : Option String

/-- `EligibilityResolver`, with the digest it uses. -/
structure EligibilityResolver (F : Type) [FloatText F] where
  sha256 : List Char → String
  registry : String → String → Principal → Option (Publication F)
  authorizer : EligibilityAuthorizer F
  freshness : FreshnessChecker F
  asOf : String
  maxSensitivity : Sensitivity

/-! ## Section 2: Admissions -/

/-- A verified publication with the identifiers of its admitted atoms. -/
structure AdmittedCapsule (F : Type) [FloatText F] where
  published : Publication F
  atomIds : List String

structure AdmissionResult (F : Type) [FloatText F] where
  items : List (AdmittedCapsule F)
  rejectedCounts : List (String × ℕ)
  permissionDigest : String
  freshnessDigest : String

/-- The capsule of a publication. -/
abbrev capsuleOf (p : Publication F) : Capsule (Number F) := p.val.capsule

/-- `capsule_ref` -/
def capsuleRef (capsule : Capsule (Number F)) : CapsuleRef where
  capsuleId := capsule.controlManifest.capsuleId
  version := capsule.controlManifest.version
  digest := capsule.controlManifest.contentDigest

/-- `_ref` of the graph: the reference of an admitted publication. -/
def AdmittedCapsule.ref (item : AdmittedCapsule F) : CapsuleRef := capsuleRef (capsuleOf item.published)

/-- The atoms of the payload of an admitted publication. -/
def AdmittedCapsule.payload (item : AdmittedCapsule F) : List (Atom (Number F)) :=
  (capsuleOf item.published).semanticPayload.atoms

/-! ## Section 3: Gates -/

/-- `_require`: a decision that raises denies. -/
def require (decision : Option Bool) (code : CompileError) : Except CompileError Unit :=
  raiseIf (decision ≠ some true) code

/-- A decision that may raise a `CompileError`. -/
def decision {α : Type} (d : Except CompileError α) : Option α := d.toOption

/-- `sensitivity_within` -/
def sensitivityWithin (value ceiling : Sensitivity) : Bool :=
  (Enumeration.values.idxOf value) ≤ (Enumeration.values.idxOf ceiling)

/-- `_compatible`: a family that is provided and required is provided in a required version. -/
def compatible (capsule : Capsule (Number F)) (task : TaskContext) : Except CompileError Bool := do
  let provided ← capsule.controlManifest.provides.mapM fun value =>
    return (← parseInterface value, value)
  let required ← task.requiredInterfaces.mapM fun value => return (← parseInterface value, value)
  return required.all fun r => !(provided.map Prod.fst).contains r.1 ||
    required.any fun r' => r'.1 == r.1 && provided.contains r'

/-- The date of a timestamp. -/
def dateOf (timestamp : String) : String := String.ofList (timestamp.toList.take 10)

/-- `_valid_at` -/
def validAt (atom : Atom (Number F)) (asOf : String) : Bool :=
  let today := dateOf asOf
  decide (atom.validity.from_ ≤ today) && atom.validity.until_.all fun last => decide (today ≤ last)

/-- The days before a date, from 1 January of the year 1. -/
def ordinal (cs : List Char) : ℕ :=
  let year := digitsValue (cs.take 4)
  let month := digitsValue ((cs.drop 5).take 2)
  let day := digitsValue ((cs.drop 8).take 2)
  let past := year - 1
  365 * past + past / 4 - past / 100 + past / 400 +
    ((List.range (month - 1)).map fun m => daysInMonth year (m + 1)).sum + (day - 1)

/-- The microseconds of a timestamp, from 1 January of the year 1; further digits are dropped. -/
def instantOf (timestamp : String) : ℕ :=
  let cs := timestamp.toList
  let hours := digitsValue ((cs.drop 11).take 2)
  let minutes := digitsValue ((cs.drop 14).take 2)
  let seconds := digitsValue ((cs.drop 17).take 2)
  let fraction := ((cs.drop 20).takeWhile Char.isDigit).take 6
  ((ordinal cs * 24 + hours) * 60 + minutes) * 60000000 + seconds * 1000000 +
    digitsValue fraction * 10 ^ (6 - fraction.length)

/-- The microseconds of a day. -/
def dayMicroseconds : ℕ := 86400000000

/-- The instant after the last one that a `datetime` can be. -/
def endOfTime : ℕ := 3652059 * dayMicroseconds

/-- `referenced_evidence` -/
def referencedEvidence (capsule : Capsule (Number F)) (atom : Atom (Number F)) :
    List (EvidenceRecord (Number F)) :=
  let find := fun evidenceId => capsule.evidencePlane.records.find? fun r => r.evidenceId = evidenceId
  if atom.evidenceRefs.all fun evidenceId => (find evidenceId).isSome then
    atom.evidenceRefs.filterMap find
  else []

/-- `_ttl_valid`. A time that no `timedelta` or `datetime` can hold is refused. -/
def ttlValid (capsule : Capsule (Number F)) (atom : Atom (Number F)) (asOf : String) : Bool :=
  if atom.compressionClass ≠ .p4Transient then true
  else
    match (capsule.compressionPolicy.classes.find? fun c => c.name = .p4Transient).bind (·.ttl) with
    | none => true
    | some ttl =>
      let days := digitsValue ((ttl.toList.drop 1).dropLast)
      let evidence := referencedEvidence capsule atom
      decide (days ≤ 999999999) && !evidence.isEmpty && evidence.all fun item =>
        let captured := instantOf item.capturedAt
        let limit := captured + days * dayMicroseconds
        decide (captured ≤ instantOf asOf) && decide (limit < endOfTime) &&
          decide (instantOf asOf ≤ limit)

/-- `_atom_scope_within_capsule` -/
def atomScopeWithinCapsule (capsule : Capsule (Number F)) (atom : Atom (Number F))
    (task : TaskContext) : Except CompileError Bool := do
  let admittedPaths ← task.paths.filterM fun path =>
    pathsMatch capsule.controlManifest.scope.paths [path]
  if admittedPaths = [] then return false
  else atomScopeMatches atom.scope { task with paths := admittedPaths }

namespace EligibilityResolver

variable (r : EligibilityResolver F)

/-- `_snapshot` -/
def snapshot (task : TaskContext) (principal : Principal) :
    Except CompileError (String × String) := do
  let permission ← orRaise (r.authorizer.contextDigest task principal) .invalidPolicySnapshot
  let freshness ← orRaise r.freshness.contextDigest .invalidPolicySnapshot
  raiseIf (isSemVer r.authorizer.version = false ∨ isSemVer r.freshness.version = false ∨
      isDigest permission = false ∨ isDigest freshness = false) .invalidPolicySnapshot
  return (snapshotDigest (F := F) r.sha256 (.object
      [("authorizer", .string permission),
       ("version", .string r.authorizer.version),
       ("as_of", .string r.asOf),
       ("max_sensitivity", literal r.maxSensitivity),
       ("task", task.dump),
       ("principal_id", .string principal.principalId)]),
    snapshotDigest (F := F) r.sha256 (.object
      [("freshness", .string freshness),
       ("version", .string r.freshness.version),
       ("as_of", .string r.asOf)]))

/-- The projection under `_loader_publication_digest`. -/
def loaderProjection (capsule : Capsule (Number F)) : Value F :=
  .object (coreMembers capsule ++ signatureMembers capsule.detachedSignature)

/-- `_loader_publication_digest` -/
def loaderPublicationDigest (capsule : Capsule (Number F)) : String :=
  r.sha256 (canonicalText (loaderProjection capsule))

/-- `_verified`: the publication that the registry has for a capsule. -/
def verified (capsule : Capsule (Number F)) (principal : Principal) :
    Except CompileError (Publication F) := do
  let published ← orRaise (r.registry capsule.controlManifest.capsuleId
    capsule.controlManifest.version principal) .registryIntegrity
  raiseIf (r.loaderPublicationDigest capsule ≠ r.loaderPublicationDigest (capsuleOf published))
    .registryIntegrity
  return published

/-- `_capsule_gates` -/
def capsuleGates (published : Publication F) (task : TaskContext) (principal : Principal) :
    Except CompileError Unit := do
  let capsule := capsuleOf published
  let manifest := capsule.controlManifest
  require (some (published.val.registryStatus == "PUBLISHED" &&
    decide (manifest.lifecycle = .published))) .lifecycleDenied
  require (some (manifest.tenant == task.tenant)) .tenantDenied
  require (r.authorizer.authorize capsule none task principal) .authorizationDenied
  require (some (sensitivityWithin manifest.sensitivity r.maxSensitivity)) .sensitivityDenied
  require (some (manifest.scope.repositories.contains task.repository)) .repositoryDenied
  require (decision (pathsMatch manifest.scope.paths task.paths)) .pathDenied
  require (some (manifest.scope.environments.contains task.environment)) .environmentDenied
  require (r.freshness.check capsule none r.asOf) .freshnessDenied
  require (decision (compatible capsule task)) .interfaceIncompatible

/-- `_atom_gates` -/
def atomGates (capsule : Capsule (Number F)) (atom : Atom (Number F)) (task : TaskContext)
    (principal : Principal) : Except CompileError Unit := do
  require (some (decide (atom.status = .validated))) .atomStatusDenied
  require (r.authorizer.authorize capsule (some atom) task principal) .authorizationDenied
  require (some (sensitivityWithin atom.sensitivity r.maxSensitivity)) .sensitivityDenied
  require (decision (atomScopeWithinCapsule capsule atom task)) .atomScopeDenied
  require (some (validAt atom r.asOf)) .validityDenied
  require (some (["on-source-change", "immutable"].contains atom.refreshPolicy))
    .refreshPolicyDenied
  require (r.freshness.check capsule (some atom) r.asOf) .freshnessDenied
  require (some (ttlValid capsule atom r.asOf)) .ttlExpired

/-- The code an atom is denied with, when it is. -/
def denial (capsule : Capsule (Number F)) (task : TaskContext) (principal : Principal)
    (atom : Atom (Number F)) : Option CompileError :=
  match r.atomGates capsule atom task principal with
  | .ok _ => none
  | .error code => some code

/-- `_admit`: the admitted publication, and the codes its other atoms are denied with. -/
def admitCapsule (capsule : Capsule (Number F)) (task : TaskContext) (principal : Principal) :
    Except CompileError (AdmittedCapsule F × List CompileError) := do
  let published ← r.verified capsule principal
  r.capsuleGates published task principal
  let denial := r.denial (capsuleOf published) task principal
  let atoms := (capsuleOf published).semanticPayload.atoms
  return ({ published := published
            atomIds := uniqueStrings ((atoms.filter fun a => (denial a).isNone).map Atom.atomId) },
    atoms.filterMap denial)

/-! ## Section 4: Admission -/

/-- `_publication_key` -/
def publicationKey (p : Publication F) : String × String :=
  ((capsuleOf p).controlManifest.capsuleId, (capsuleOf p).controlManifest.version)

/-- The order of publication keys. -/
def keyLe (a b : String × String) : Prop := a.1 < b.1 ∨ a.1 = b.1 ∧ a.2 ≤ b.2

instance (a b : String × String) : Decidable (keyLe a b) := inferInstanceAs (Decidable (_ ∨ _ ∧ _))

/-- What the members of a group have to agree on. -/
def identity (p : Publication F) : String × String :=
  (r.loaderPublicationDigest (capsuleOf p), p.val.registryStatus)

/-- `_unique`: one publication of each version, and the number of those in conflict. -/
def unique (capsules : List (Publication F)) : List (Publication F) × List CompileError :=
  let keys := (capsules.map publicationKey).dedup.insertionSort keyLe
  let group := fun key => capsules.filter fun p => publicationKey p = key
  let agrees := fun key => ((group key).map r.identity).dedup.length = 1
  ((keys.filter agrees).filterMap fun key => (group key).head?,
    (keys.filter fun key => ¬ agrees key).flatMap fun key =>
      List.replicate (group key).length .conflictingPublication)

/-- The publications of a list that are admitted, and the codes of everything denied. -/
def admitAll (task : TaskContext) (principal : Principal) (publications : List (Publication F)) :
    List (AdmittedCapsule F) × List CompileError :=
  let results := publications.map fun p =>
    if p.val.registryStatus ≠ "PUBLISHED" then .error .lifecycleDenied
    else r.admitCapsule (capsuleOf p) task principal
  (results.filterMap fun result => (decision result).map Prod.fst,
    results.flatMap fun result => match result with
      | .ok admitted => admitted.2
      | .error code => [code])

/-- The number of times each code occurs, in the order of the codes' texts. -/
def counts (codes : List CompileError) : List (String × ℕ) :=
  (uniqueStrings (codes.map CompileError.code)).map fun code =>
    (code, (codes.map CompileError.code).count code)

/-- `resolve`. The services answer alike each time, so the snapshot taken at the end is the one
taken at the start. -/
def resolve (capsules : List (Publication F)) (task : TaskContext) (principal : Principal) :
    Except CompileError (AdmissionResult F) := do
  let before ← r.snapshot task principal
  let (publications, conflicts) := r.unique capsules
  let (items, denials) := r.admitAll task principal publications
  let after ← r.snapshot task principal
  raiseIf (before ≠ after) .policySnapshotChanged
  return {
    items := items
    rejectedCounts := counts (conflicts ++ denials)
    permissionDigest := before.1
    freshnessDigest := before.2 }

end EligibilityResolver

end ContractCapsule.Resolve
