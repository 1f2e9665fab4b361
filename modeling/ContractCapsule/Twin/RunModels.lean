import ContractCapsule.Models.Canonical

/-!
# Records of Twin Runs

The wire models of `validate/run_models.py`. Nothing in them grants authority: they are what the
host observed of the processes of a run.
-/

namespace ContractCapsule.Twin

open Library Models

/-- A byte string. -/
abbrev Bytes := List UInt8

/-! ## Section 1: Processes -/

/-- `ProcessCapture` -/
structure ProcessCapture where
  subject : String
  containerId : String
  startedNs : ℕ
  finishedNs : ℕ
  exitCode : Option ℤ
  terminated : Bool
  timedOut : Bool
  outputLimited : Bool
  stdout : Bytes
  stderr : Bytes
deriving DecidableEq, Repr

/-- `CheckCapture` -/
structure CheckCapture where
  checkId : String
  process : ProcessCapture
  probes : List ProcessCapture
deriving DecidableEq, Repr

/-! ## Section 2: Trees -/

/-- `RunnerConfig`; the fields are the limits of a stage. -/
structure RunnerConfig where
  timeoutSeconds : ℕ
  stdoutLimitBytes : ℕ
  stderrLimitBytes : ℕ
  outputTreeLimitBytes : ℕ
  outputTreeFileLimit : ℕ
deriving DecidableEq, Repr

/-- The kinds of a `TreeEntry`. -/
inductive EntryKind where
  | file
  | directory
deriving DecidableEq, Repr

/-- `TreeEntry` -/
structure TreeEntry where
  path : String
  kind : EntryKind
  mode : ℕ
  digest : Option String
  size : ℕ
deriving DecidableEq, Repr

/-- The checks of the fields of a `TreeEntry`. -/
def TreeEntry.valid (entry : TreeEntry) : Bool :=
  isNonEmpty entry.path && decide (entry.mode ≤ 0o7777) && entry.digest.all isDigest

/-- `Snapshot` -/
structure Snapshot where
  entries : List TreeEntry
deriving DecidableEq, Repr

end ContractCapsule.Twin
