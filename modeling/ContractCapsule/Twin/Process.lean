import ContractCapsule.Library.Transaction
import ContractCapsule.Twin.Trees

/-!
# Bounded Processes

`swap/process_io.py`: a subprocess is read until its streams end, its time is over, or one of its
streams passes its limit. `_process` of `validate/behavior.py` decides later, from the stored
capture alone, whether the process kept its limits.

`collect_within` says that what is collected is within the limits, however the chunks fall.
-/

namespace ContractCapsule.Twin

open Library Models

/-! ## Section 1: Errors -/

/-- The exceptions of the host code. `RunnerError` is a `ValueError`; the message of the others is
not used. -/
inductive PyError where
  | runnerError (message : String)
  | valueError
  | osError
  | typeError
  | keyError
  | recursionError
  /-- `subprocess.TimeoutExpired` -/
  | timeoutExpired
  | other
deriving DecidableEq, Repr

/-- `except (OSError, ValueError)` -/
def PyError.isOsOrValue : PyError → Bool
  | .runnerError _ | .valueError | .osError => true
  | _ => false

/-- `except (OSError, TypeError, ValueError, KeyError, RecursionError)` -/
def PyError.isMalformed : PyError → Bool
  | .typeError | .keyError | .recursionError => true
  | e => e.isOsOrValue

/-- What the checks of a tree raise is a `ValueError`. -/
def ofTreeError : TreeError → PyError
  | .runner message => .runnerError message
  | .model | .record => .valueError

theorem isOsOrValue_ofTreeError (e : TreeError) : (ofTreeError e).isOsOrValue = true := by
  cases e <;> rfl

/-! ## Section 2: `_collect` -/

/-- `Output` -/
structure Output where
  stdout : Bytes
  stderr : Bytes
  exitCode : Option ℤ
  timedOut : Bool
  limited : Bool
deriving DecidableEq, Repr

/-- The keyword arguments of `bounded`; the time in seconds. -/
structure Limits where
  timeout : ℕ
  outLimit : ℕ
  errLimit : ℕ
deriving DecidableEq, Repr

/-- The stream that a chunk was read from. -/
inductive Stream where
  | stdout
  | stderr
deriving DecidableEq, Repr

/-- One turn of the loop: whether the deadline has passed, and what the ready streams give. -/
structure Round where
  late : Bool
  ready : List (Stream × Except PyError Bytes)

/-- How a started subprocess behaves: the turns of the loop, after which the deadline passes, and
the answers to the two calls of `wait`, where `none` is `TimeoutExpired`. -/
structure ProcessRun where
  rounds : List Round
  waited : Option ℤ
  waitedAfterKill : Option ℤ

/-- The local variables of the loop. -/
structure Collected where
  stdout : Bytes
  stderr : Bytes
  openStdout : Bool
  openStderr : Bool
  limited : Bool
deriving DecidableEq, Repr

/-- The loop body for one ready stream. An empty chunk ends the stream. -/
def readChunk (limits : Limits) (c : Collected) (stream : Stream) (chunk : Bytes) : Collected :=
  match stream with
  | .stdout =>
    if chunk = [] then { c with openStdout := false }
    else
      let remaining := limits.outLimit - c.stdout.length
      { c with
        stdout := c.stdout ++ chunk.take remaining,
        limited := c.limited || decide (remaining < chunk.length) }
  | .stderr =>
    if chunk = [] then { c with openStderr := false }
    else
      let remaining := limits.errLimit - c.stderr.length
      { c with
        stderr := c.stderr ++ chunk.take remaining,
        limited := c.limited || decide (remaining < chunk.length) }

/-- The `for` loop over the ready streams; a read may raise. -/
def readReady (limits : Limits) (c : Collected) :
    List (Stream × Except PyError Bytes) → Except PyError Collected
  | [] => .ok c
  | (stream, read) :: ready => do
    let chunk ← read
    readReady limits (readChunk limits c stream chunk) ready

/-- The `while` loop, with `timed_out`. -/
def readRounds (limits : Limits) (c : Collected) :
    List Round → Except PyError (Collected × Bool)
  | [] => .ok (c, c.openStdout || c.openStderr)
  | round :: rounds =>
    if (c.openStdout || c.openStderr) = false then .ok (c, false)
    else if round.late then .ok (c, true)
    else do
      let c ← readReady limits c round.ready
      if c.limited then .ok (c, false) else readRounds limits c rounds

/-- `_collect` -/
def collect (limits : Limits) (run : ProcessRun) : Except PyError Output := do
  let (c, timedOut) ← readRounds limits ⟨[], [], true, true, false⟩ run.rounds
  match run.waited with
  | some code => .ok ⟨c.stdout, c.stderr, some code, timedOut, c.limited⟩
  | none => do
    -- the process is killed, and the second `wait` may raise again
    let code ← orRaise run.waitedAfterKill .timeoutExpired
    .ok ⟨c.stdout, c.stderr, some code, true, c.limited⟩

/-! ## Section 3: Limits -/

/-- The streams are within their limits. -/
structure Collected.Within (limits : Limits) (c : Collected) : Prop where
  stdout : c.stdout.length ≤ limits.outLimit
  stderr : c.stderr.length ≤ limits.errLimit

theorem readChunk_within {limits : Limits} {c : Collected} (h : c.Within limits) (stream : Stream)
    (chunk : Bytes) : (readChunk limits c stream chunk).Within limits := by
  have hout := h.stdout
  have herr := h.stderr
  by_cases hempty : chunk = []
  · cases stream with
    | stdout =>
      have hsame : readChunk limits c .stdout chunk = { c with openStdout := false } := if_pos hempty
      rw [hsame]
      exact ⟨hout, herr⟩
    | stderr =>
      have hsame : readChunk limits c .stderr chunk = { c with openStderr := false } := if_pos hempty
      rw [hsame]
      exact ⟨hout, herr⟩
  · -- what is kept of the chunk fits into what remains of the limit
    have hkept : ∀ (limit used : ℕ), used ≤ limit →
        used + min (limit - used) chunk.length ≤ limit := by
      intro limit used hused
      omega
    cases stream with
    | stdout =>
      refine ⟨?_, by simpa [readChunk, hempty] using herr⟩
      simpa [readChunk, hempty] using hkept _ _ hout
    | stderr =>
      refine ⟨by simpa [readChunk, hempty] using hout, ?_⟩
      simpa [readChunk, hempty] using hkept _ _ herr

theorem readReady_within {limits : Limits} {ready : List (Stream × Except PyError Bytes)}
    {c c' : Collected} (h : c.Within limits) (hread : readReady limits c ready = .ok c') :
    c'.Within limits := by
  induction ready generalizing c with
  | nil =>
    cases hread
    exact h
  | cons item ready ih =>
    obtain ⟨chunk, _, hrest⟩ := (Except.bind_eq_ok _ _ _).mp hread
    exact ih (readChunk_within h item.1 chunk) hrest

theorem readRounds_within {limits : Limits} {rounds : List Round} {c c' : Collected}
    {timedOut : Bool} (h : c.Within limits)
    (hread : readRounds limits c rounds = .ok (c', timedOut)) : c'.Within limits := by
  induction rounds generalizing c with
  | nil =>
    cases hread
    exact h
  | cons round rounds ih =>
    unfold readRounds at hread
    split at hread
    · cases hread
      exact h
    · split at hread
      · cases hread
        exact h
      · obtain ⟨c₁, hready, hrest⟩ := (Except.bind_eq_ok _ _ _).mp hread
        have hwithin := readReady_within h hready
        split at hrest
        · cases hrest
          exact hwithin
        · exact ih hwithin hrest

/-- **Truncation.** Whatever the process writes and in whatever chunks, the collected streams are
within the limits of the command. -/
theorem collect_within {limits : Limits} {run : ProcessRun} {out : Output}
    (h : collect limits run = .ok out) :
    out.stdout.length ≤ limits.outLimit ∧ out.stderr.length ≤ limits.errLimit := by
  obtain ⟨⟨c, timedOut⟩, hrounds, hrest⟩ := (Except.bind_eq_ok _ _ _).mp h
  have hstart : (⟨[], [], true, true, false⟩ : Collected).Within limits :=
    ⟨Nat.zero_le _, Nat.zero_le _⟩
  have hwithin := readRounds_within hstart hrounds
  have hstreams : out.stdout = c.stdout ∧ out.stderr = c.stderr := by
    cases hwaited : run.waited with
    | some code =>
      simp only [hwaited] at hrest
      cases hrest
      exact ⟨rfl, rfl⟩
    | none =>
      simp only [hwaited] at hrest
      obtain ⟨code, _, hout⟩ := (Except.bind_eq_ok _ _ _).mp hrest
      cases hout
      exact ⟨rfl, rfl⟩
  rw [hstreams.1, hstreams.2]
  exact ⟨hwithin.stdout, hwithin.stderr⟩

/-! ## Section 4: `_process` -/

/-- What the exit code of a capture must be. -/
def exitValid (capture : ProcessCapture) (probe : Bool) : Bool :=
  match capture.exitCode with
  | none => false
  | some code => if probe then decide (0 ≤ code) else decide (code = 0)

/-- `_process` -/
def process (runner : RunnerConfig) (capture : ProcessCapture) (expected : String)
    (probe : Bool) : Except TreeError Unit :=
  raiseIf (capture.subject ≠ expected ∨ exitValid capture probe = false ∨
      capture.terminated = false ∨ capture.timedOut = true ∨ capture.outputLimited = true ∨
      capture.finishedNs < capture.startedNs ∨
      runner.timeoutSeconds * 1000000000 < capture.finishedNs - capture.startedNs ∨
      runner.stdoutLimitBytes < capture.stdout.length ∨
      runner.stderrLimitBytes < capture.stderr.length)
    .record

theorem process_eq_ok {runner : RunnerConfig} {capture : ProcessCapture} {expected : String}
    {probe : Bool} :
    process runner capture expected probe = .ok () ↔
      capture.subject = expected ∧ exitValid capture probe = true ∧ capture.terminated = true ∧
      capture.timedOut = false ∧ capture.outputLimited = false ∧
      capture.startedNs ≤ capture.finishedNs ∧
      capture.finishedNs - capture.startedNs ≤ runner.timeoutSeconds * 1000000000 ∧
      capture.stdout.length ≤ runner.stdoutLimitBytes ∧
      capture.stderr.length ≤ runner.stderrLimitBytes := by
  rw [process, raiseIf_eq_ok]
  simp only [not_or, not_not, not_lt, Bool.not_eq_false, Bool.not_eq_true]

end ContractCapsule.Twin
