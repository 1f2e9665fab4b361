import Mathlib.Data.Finset.Basic
import Mathlib.Tactic.Common

/-!
# The Reference Model of Context Replacement

The values `formal.py` works on: capsules and their seven modules, tasks, and the
records the compiler, the validator and the replacement check produce.

Frozen sets are finite sets. The order in which Python iterates over one is not
determined by its members; it is a parameter (`SetOrder`) of every function whose
result depends on it. So are the three fingerprints, each with a type of its own.
-/

namespace ContractCapsule.Formal

/-! ## Section 1: Blockers -/

inductive BlockerCode where
  | none
  | malformedCapsule
  | missingEvidence
  | integrityFailed
  | unauthorizedCapsule
  | outOfScope
  | staleEvidence
  | missingMandatoryDependency
  | unresolvedConflict
  | p0NotExact
  | p0BudgetOverflow
  | mandatoryClosureBudgetOverflow
  | incompatibleInterface
  | incompatibleReplacementTarget
  | targetEffectFailed
  | protectedInvariantFailed
  | forbiddenSpillover
  | irreversibleSideEffectUncontrolled
  | viewInconsistent
  | validationMismatch
  | candidateMismatch
  | taskMismatch
  | unsafeActivationBoundary
deriving DecidableEq, Repr

/-- The loop body of `_unique_blockers`. -/
def addUnique (result : List BlockerCode) (blocker : BlockerCode) : List BlockerCode :=
  if blocker = .none ∨ blocker ∈ result then result else result ++ [blocker]

/-- `_unique_blockers` of the concatenated groups. -/
def uniqueBlockers (blockers : List BlockerCode) : List BlockerCode :=
  blockers.foldl addUnique []

theorem mem_foldl_addUnique {b : BlockerCode} (blockers result : List BlockerCode) :
    b ∈ blockers.foldl addUnique result ↔ b ∈ result ∨ (b ≠ .none ∧ b ∈ blockers) := by
  induction blockers generalizing result with
  | nil => simp
  | cons c cs ih =>
    rw [List.foldl_cons, ih, addUnique]
    by_cases hskip : c = .none ∨ c ∈ result
    -- the code is skipped: it is `none`, or stands in the result already
    · rw [if_pos hskip]
      constructor
      · rintro (h | ⟨hne, h⟩)
        · exact .inl h
        · exact .inr ⟨hne, List.mem_cons_of_mem _ h⟩
      · rintro (h | ⟨hne, h⟩)
        · exact .inl h
        · rcases List.mem_cons.mp h with rfl | h
          · exact .inl (hskip.resolve_left hne)
          · exact .inr ⟨hne, h⟩
    -- the code is appended
    · rw [if_neg hskip]
      obtain ⟨hnone, _⟩ := not_or.mp hskip
      rw [List.mem_append, List.mem_singleton, List.mem_cons]
      constructor
      · rintro ((h | rfl) | ⟨hne, h⟩)
        · exact .inl h
        · exact .inr ⟨hnone, .inl rfl⟩
        · exact .inr ⟨hne, .inr h⟩
      · rintro (h | ⟨hne, rfl | h⟩)
        · exact .inl (.inl h)
        · exact .inl (.inr rfl)
        · exact .inr ⟨hne, h⟩

@[simp] theorem mem_uniqueBlockers {b : BlockerCode} {blockers : List BlockerCode} :
    b ∈ uniqueBlockers blockers ↔ b ≠ .none ∧ b ∈ blockers := by
  simp [uniqueBlockers, mem_foldl_addUnique]

theorem uniqueBlockers_eq_nil {blockers : List BlockerCode} :
    uniqueBlockers blockers = [] ↔ ∀ b ∈ blockers, b = .none := by
  simp only [List.eq_nil_iff_forall_not_mem, mem_uniqueBlockers, not_and]
  exact ⟨fun h b hb => not_not.mp fun hne => h b hne hb, fun h b hne hb => hne (h b hb)⟩

theorem forall_eq_none_iff {blockers : List BlockerCode} (h : .none ∉ blockers) :
    (∀ b ∈ blockers, b = .none) ↔ blockers = [] := by
  rw [List.eq_nil_iff_forall_not_mem]
  exact ⟨fun hall b hb => h (hall b hb ▸ hb), fun hall b hb => absurd hb (hall b)⟩

/-- Of proper blockers, none are reported only when there are none. -/
theorem uniqueBlockers_eq_nil_iff {blockers : List BlockerCode} (h : .none ∉ blockers) :
    uniqueBlockers blockers = [] ↔ blockers = [] :=
  uniqueBlockers_eq_nil.trans (forall_eq_none_iff h)

theorem uniqueBlockers_append_eq_nil {recorded blockers : List BlockerCode}
    (h : .none ∉ blockers) :
    uniqueBlockers (recorded ++ blockers) = [] ↔ (∀ b ∈ recorded, b = .none) ∧ blockers = [] := by
  rw [uniqueBlockers_eq_nil, List.forall_mem_append, ← uniqueBlockers_eq_nil_iff h,
    uniqueBlockers_eq_nil]

/-- One blocker under a condition, the shape of most checks. -/
def blockIf (p : Prop) [Decidable p] (blocker : BlockerCode) : List BlockerCode :=
  if p then [blocker] else []

@[simp] theorem mem_blockIf {p : Prop} [Decidable p] {b blocker : BlockerCode} :
    b ∈ blockIf p blocker ↔ p ∧ b = blocker := by
  unfold blockIf
  split <;> simp [*]

@[simp] theorem blockIf_eq_nil {p : Prop} [Decidable p] {blocker : BlockerCode} :
    blockIf p blocker = [] ↔ ¬ p := by
  unfold blockIf
  split <;> simp [*]

/-! ## Section 2: Capsules -/

structure Principal where
  principalId : String
deriving DecidableEq, Repr

structure Budget where
  tokens : ℤ
deriving DecidableEq, Repr

structure TaskContext where
  taskId : String
  repository : String
  path : String
  environment : String
  requiredInterfaces : Finset String
  irreversibleExternalAction : Bool := false
  preflightCompleted : Bool := false
  approvalGranted : Bool := false
  compensationAvailable : Bool := false
deriving DecidableEq

structure SafeBoundary where
  beforeNextAction : Bool
deriving DecidableEq, Repr

structure Manifest where
  capsuleId : String
  version : String
  authorizedPrincipals : Finset String
  repositories : Finset String
  pathPrefixes : List String
  environments : Finset String
  provides : Finset String
  lifecycle : String
deriving DecidableEq

def Manifest.reference (m : Manifest) : String := m.capsuleId ++ "@" ++ m.version

structure Atom where
  atomId : String
  statement : String
  compressionClass : String
  tokenCost : ℤ
  relevance : ℤ
  evidenceRefs : Finset String
deriving DecidableEq

def Atom.isP0 (a : Atom) : Bool := a.compressionClass = "P0_EXACT"

structure Evidence where
  evidenceId : String
  digest : String
  exactText : String
  fresh : Bool
deriving DecidableEq, Repr

structure DependencyGraph where
  requires : Finset (String × String)
  conflicts : Finset (String × String)
deriving DecidableEq

structure ReplacementContract where
  replaces : Option String
  acceptsInterfaces : Finset String
  targetEffectsPassed : Bool
  protectedInvariantsPassed : Bool
  forbiddenSpilloverDetected : Bool
deriving DecidableEq

structure CompressionPolicy where
  p0Exact : Bool
deriving DecidableEq, Repr

structure IntegrityBundle where
  valid : Bool
deriving DecidableEq, Repr

/-- The seven core modules of a capsule. -/
structure Capsule where
  manifest : Manifest
  atoms : Finset Atom
  evidence : Finset Evidence
  dependencyGraph : DependencyGraph
  replacementContract : ReplacementContract
  compressionPolicy : CompressionPolicy
  integrity : IntegrityBundle
deriving DecidableEq

def Capsule.reference (c : Capsule) : String := c.manifest.reference

/-! ## Section 3: Iteration -/

/-- The order in which the frozen sets of a capsule are iterated over. -/
structure SetOrder where
  atoms : Capsule → List Atom
  evidence : Capsule → List Evidence
  nodup_atoms : ∀ c, (atoms c).Nodup
  nodup_evidence : ∀ c, (evidence c).Nodup
  mem_atoms : ∀ c a, a ∈ atoms c ↔ a ∈ c.atoms
  mem_evidence : ∀ c e, e ∈ evidence c ↔ e ∈ c.evidence

attribute [simp] SetOrder.mem_atoms SetOrder.mem_evidence

/-! ## Section 4: Records -/

/-- `τ` is the type of task fingerprints, `κ` that of capsule fingerprints. -/
structure CompiledView (τ κ : Type) where
  capsuleRefs : List String
  capsuleFingerprints : List (String × κ)
  taskId : String
  taskFingerprint : τ
  principalId : String
  adapter : String
  budgetTokens : ℤ
  content : String
  selectedAtomIds : Finset String
  exactAtomIds : Finset String
  evidenceHandles : Finset String
  eligibilityChecked : List String
  rankedCapsules : List String
  auditPhases : List String
  missingDependencies : Finset String
  conflicts : Finset (String × String)
  dependencyClosed : Bool
  p0Preserved : Bool
  blockers : List BlockerCode
deriving DecidableEq

/-- `ν` is the type of view fingerprints. -/
structure ValidationReport (κ ν : Type) where
  valid : Bool
  blockers : List BlockerCode
  viewFingerprint : ν
  capsuleFingerprints : List (String × κ)
  principalId : String
deriving DecidableEq

structure ReplacementDecision (τ κ : Type) where
  oldCapsule : String
  newCapsule : String
  oldFingerprint : κ
  newFingerprint : κ
  taskId : String
  taskFingerprint : τ
  allowed : Bool
  targetEffectRealized : Bool
  protectedInvariantsPreserved : Bool
  forbiddenSpilloverDetected : Bool
  interfaceCompatible : Bool
  blockers : List BlockerCode
deriving DecidableEq

structure ActivationCandidate (τ κ ν : Type) where
  old : Capsule
  new : Capsule
  view : CompiledView τ κ
  validation : ValidationReport κ ν
  replacement : ReplacementDecision τ κ

structure ActivationReceipt where
  activated : Bool
  previousCapsule : String
  activeCapsule : String
  blockers : List BlockerCode
deriving DecidableEq, Repr

/-- `_task_fingerprint`, `_capsule_fingerprint` and `_view_fingerprint`. -/
structure Fingerprints (τ κ ν : Type) where
  task : TaskContext → τ
  capsule : Capsule → κ
  view : CompiledView τ κ → ν

end ContractCapsule.Formal
