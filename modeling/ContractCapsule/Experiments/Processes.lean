import Mathlib.Logic.Function.Basic
import ContractCapsule.Experiments.RunStore

/-!
# Processes That Append to One Store

The processes of an experiment append to one run store. Each takes the exclusive lock of
`_exclusive_lock`, loads the file, writes its line in as many pieces as the system makes of it, and
gives the lock back; between any two of these steps other processes may take theirs.

`step_keeps` is the invariant: the file is a sequence of whole lines with new identifiers, and behind
them what the owner of the lock has written of one more line.
-/

namespace ContractCapsule.Experiments

open Library Models

/-! ## Section 1: Steps -/

/-- Where a process is in `append`: before its lock, under it, or with a text to write. -/
inductive Phase (F : Type) where
  | idle
  | waiting (a : Admitted F)
  | holding (a : Admitted F)
  | writing (a : Admitted F) (rest : Text)

/-- The file of the store, the owner of its lock, and the processes. -/
structure System (π F : Type) where
  file : Text
  owner : Option π
  phase : π → Phase F

/-- What happens next. -/
inductive Event (π F : Type) where
  | call (p : π) (a : Admitted F)
  | acquire (p : π)
  | load (p : π)
  | write (p : π) (length : ℕ)
  | release (p : π)

/-- What an `append` that ends returns or raises. -/
abbrev Answer := Option (Except StoreError Unit)

variable {π F : Type} [DecidableEq π]

/-- The process goes on. -/
def System.enter (s : System π F) (p : π) (phase : Phase F) : System π F :=
  { s with phase := Function.update s.phase p phase }

/-- The process gives the lock back. -/
def System.leave (s : System π F) (p : π) : System π F :=
  { s.enter p .idle with owner := none }

/-- A process has the lock. -/
def Phase.locked : Phase F → Bool
  | .holding _ => true
  | .writing _ _ => true
  | _ => false

variable [FloatText F]

/-- One step of one process. What a process cannot do leaves the system as it is: a process that
waits for the lock goes on when nobody has it. -/
def step (python : Interpreter F) (sha256 : Sha256) (s : System π F) :
    Event π F → Answer × System π F
  | .call p a =>
    match s.phase p with
    | .idle => (none, s.enter p (.waiting a))
    | _ => (none, s)
  | .acquire p =>
    match s.phase p, s.owner with
    | .waiting a, none => (none, { s.enter p (.holding a) with owner := some p })
    | _, _ => (none, s)
  | .load p =>
    match s.phase p with
    | .holding a =>
      match prepare python sha256 s.file a.record with
      | .error e => (some (.error e), s.leave p)
      | .ok more => (none, s.enter p (.writing a more))
    | _ => (none, s)
  | .write p length =>
    match s.phase p with
    | .writing a rest =>
      (none, { s.enter p (.writing a (rest.drop length)) with file := s.file ++ rest.take length })
    | _ => (none, s)
  | .release p =>
    match s.phase p with
    | .writing _ [] => (some (.ok ()), s.leave p)
    | _ => (none, s)

/-- Nobody has written anything. -/
def System.start : System π F := ⟨[], none, fun _ => .idle⟩

/-! ## Section 2: The file in every state -/

/-- The text is the beginning of the line of a record with a new identifier, or it is empty. -/
def Unfinished (records : List (Admitted F)) (part : Text) : Prop :=
  part = [] ∨ ∃ (a : Admitted F) (rest : Text), rest ≠ [] ∧
    part ++ rest = encoded a.record ++ [lineFeed] ∧ a.record.runId ∉ runIds records

/-- What the owner of the lock has written of its line, and has still to write. -/
def Phase.Begun (records : List (Admitted F)) (part : Text) : Phase F → Prop
  | .writing a rest =>
    (rest = [] ∧ part = []) ∨
      (rest ≠ [] ∧ part ++ rest = encoded a.record ++ [lineFeed] ∧
        a.record.runId ∉ runIds records)
  | _ => part = []

/-- The file has the lines of the records and what the owner of the lock has written. -/
structure Consistent (s : System π F) (records : List (Admitted F)) (part : Text) : Prop where
  file_eq : s.file = stream records ++ part
  nodup : (runIds records).Nodup
  owned : ∀ p, (s.phase p).locked = true → s.owner = some p
  free : s.owner = none → part = []
  begun : ∀ p, s.owner = some p → (s.phase p).Begun records part

variable {s : System π F} {records : List (Admitted F)} {part : Text}

omit [DecidableEq π] in
theorem Consistent.unfinished (h : Consistent s records part) : Unfinished records part := by
  cases howner : s.owner with
  | none => exact .inl (h.free howner)
  | some p =>
    have hbegun := h.begun p howner
    cases hphase : s.phase p with
    | writing a rest =>
      rw [hphase] at hbegun
      rcases hbegun with ⟨_, hempty⟩ | hline
      · exact .inl hempty
      · exact .inr ⟨a, rest, hline⟩
    | _ =>
      rw [hphase] at hbegun
      exact .inl hbegun

/-- The owner of the lock goes on. -/
theorem Consistent.enter (h : Consistent s records part) {p : π} (howner : s.owner = some p)
    {phase : Phase F} {file : Text} {records' : List (Admitted F)} {part' : Text}
    (hfile : file = stream records' ++ part') (hnodup : (runIds records').Nodup)
    (hbegun : phase.Begun records' part') :
    Consistent { s.enter p phase with file := file } records' part' where
  file_eq := hfile
  nodup := hnodup
  -- a process other than the owner keeps its phase
  owned q hlocked := by
    by_cases hq : q = p
    · rw [hq]
      exact howner
    · apply h.owned q
      have hsame : (s.enter p phase).phase q = s.phase q := Function.update_of_ne hq _ _
      rw [← hsame]
      exact hlocked
  -- the lock has an owner, so it is not free
  free hnone := by
    have hfree : s.owner = none := hnone
    rw [howner] at hfree
    cases hfree
  -- the owner is in the phase that it entered
  begun q hq := by
    have hsame : s.owner = some q := hq
    rw [howner] at hsame
    obtain rfl := Option.some.inj hsame
    have hphase : (s.enter p phase).phase p = phase := Function.update_self _ _ _
    show ((s.enter p phase).phase p).Begun records' part'
    rw [hphase]
    exact hbegun

/-- The owner of the lock gives it back. -/
theorem Consistent.leave (h : Consistent s records []) {p : π} (howner : s.owner = some p) :
    Consistent (s.leave p) records [] where
  file_eq := h.file_eq
  nodup := h.nodup
  owned q hlocked := by
    by_cases hq : q = p
    · -- the process is idle now
      have hidle : (s.leave p).phase p = .idle := Function.update_self _ _ _
      rw [hq, hidle] at hlocked
      cases hlocked
    · have hsame : (s.leave p).phase q = s.phase q := Function.update_of_ne hq _ _
      rw [hsame] at hlocked
      have hother := h.owned q hlocked
      rw [howner] at hother
      exact absurd (Option.some.inj hother).symm hq
  free _ := rfl
  begun q hq := by cases hq

/-- A process that does not have the lock goes on, and still does not have it. -/
theorem Consistent.outside (h : Consistent s records part) {p : π}
    (hbefore : s.phase p = .idle) (a : Admitted F) :
    Consistent (s.enter p (.waiting a)) records part where
  file_eq := h.file_eq
  nodup := h.nodup
  owned q hlocked := by
    by_cases hq : q = p
    -- a process that waits has not locked the file
    · have hwaiting : (s.enter p (.waiting a)).phase p = .waiting a := Function.update_self _ _ _
      rw [hq, hwaiting] at hlocked
      cases hlocked
    · have hsame : (s.enter p (.waiting a)).phase q = s.phase q := Function.update_of_ne hq _ _
      rw [hsame] at hlocked
      exact h.owned q hlocked
  free := h.free
  begun q hq := by
    have hbegun := h.begun q hq
    -- nothing was begun by it, before or after
    by_cases heq : q = p
    · have hwaiting : (s.enter p (.waiting a)).phase p = .waiting a := Function.update_self _ _ _
      rw [heq, hbefore] at hbegun
      rw [heq, hwaiting]
      exact hbegun
    · have hsame : (s.enter p (.waiting a)).phase q = s.phase q := Function.update_of_ne heq _ _
      rw [hsame]
      exact hbegun

/-- A process takes the lock that nobody has. -/
theorem Consistent.acquire (h : Consistent s records part) {p : π} (hfree : s.owner = none)
    (a : Admitted F) :
    Consistent { s.enter p (.holding a) with owner := some p } records part where
  file_eq := h.file_eq
  nodup := h.nodup
  owned q hlocked := by
    by_cases hq : q = p
    · rw [hq]
    · have hsame : (s.enter p (.holding a)).phase q = s.phase q := Function.update_of_ne hq _ _
      have hother := h.owned q (hsame ▸ hlocked)
      rw [hfree] at hother
      cases hother
  free hnone := by cases hnone
  begun q hq := by
    obtain rfl := Option.some.inj hq
    have hholding : (s.enter p (.holding a)).phase p = .holding a := Function.update_self _ _ _
    show ((s.enter p (.holding a)).phase p).Begun records part
    rw [hholding]
    exact h.free hfree

omit [DecidableEq π] in
/-- Nothing is in the file at the start. -/
theorem consistent_start : Consistent (System.start : System π F) [] [] where
  file_eq := rfl
  nodup := List.nodup_nil
  owned p hlocked := by cases hlocked
  free _ := rfl
  begun p hp := by cases hp

variable (python : Interpreter F) (sha256 : Sha256)

/-- **One step** keeps the records, and adds at most one with a new identifier. -/
theorem step_keeps (h : Consistent s records part) (event : Event π F) :
    ∃ new part', Consistent (step python sha256 s event).2 (records ++ new) part' ∧
      s.file <+: (step python sha256 s event).2.file := by
  have hsame : ∃ new part', Consistent s (records ++ new) part' ∧ s.file <+: s.file :=
    ⟨[], part, by rwa [List.append_nil], List.prefix_rfl⟩
  cases event with
  | call p a =>
    cases hphase : s.phase p with
    | idle =>
      simp only [step, hphase]
      exact ⟨[], part, by rw [List.append_nil]; exact h.outside hphase a, List.prefix_rfl⟩
    | _ =>
      simp only [step, hphase]
      exact hsame
  | acquire p =>
    cases hphase : s.phase p with
    | waiting a =>
      cases howner : s.owner with
      | none =>
        simp only [step, hphase, howner]
        exact ⟨[], part, by rw [List.append_nil]; exact h.acquire howner a, List.prefix_rfl⟩
      | some q =>
        simp only [step, hphase, howner]
        exact hsame
    | _ =>
      simp only [step, hphase]
      exact hsame
  | load p =>
    cases hphase : s.phase p with
    | holding a =>
      -- the owner of the lock sees whole lines only
      have howner := h.owned p (by rw [hphase]; rfl)
      have hempty : part = [] := by
        have hbegun := h.begun p howner
        rw [hphase] at hbegun
        exact hbegun
      rw [hempty] at h
      have hfile : s.file = stream records := by
        rw [h.file_eq, List.append_nil]
      cases hprepare : prepare python sha256 s.file a.record with
      | error e =>
        simp only [step, hphase, hprepare]
        exact ⟨[], [], by rw [List.append_nil]; exact h.leave howner, List.prefix_rfl⟩
      | ok more =>
        simp only [step, hphase, hprepare]
        refine ⟨[], [], ?_, List.prefix_rfl⟩
        rw [List.append_nil]
        apply h.enter howner h.file_eq h.nodup
        rw [hfile] at hprepare
        rcases ((prepare_eq_ok_iff h.nodup).mp hprepare).2 with ⟨hmore, _⟩ | ⟨hmore, hfresh, _⟩
        · exact .inl ⟨hmore, rfl⟩
        · refine .inr ⟨?_, by rw [List.nil_append, hmore], hfresh⟩
          rw [hmore]
          exact List.append_ne_nil_of_right_ne_nil _ (List.cons_ne_nil _ _)
    | _ =>
      simp only [step, hphase]
      exact hsame
  | write p length =>
    cases hphase : s.phase p with
    | writing a rest =>
      have howner := h.owned p (by rw [hphase]; rfl)
      have hbegun := h.begun p howner
      rw [hphase] at hbegun
      simp only [step, hphase]
      rcases hbegun with ⟨hnone, hempty⟩ | ⟨_, hline, hfresh⟩
      · -- there was nothing to write
        refine ⟨[], [], ?_, List.prefix_append _ _⟩
        rw [List.append_nil]
        apply h.enter howner ?_ h.nodup ?_
        · rw [h.file_eq, hempty, hnone, List.take_nil, List.append_nil]
        · exact Or.inl ⟨by rw [hnone, List.drop_nil], rfl⟩
      · have hsplit : rest.take length ++ rest.drop length = rest := List.take_append_drop _ _
        by_cases hdone : rest.drop length = []
        · -- the line is whole
          refine ⟨[a], [], ?_, List.prefix_append _ _⟩
          apply h.enter howner ?_ (nodup_append_fresh h.nodup hfresh) ?_
          · rw [hdone, List.append_nil] at hsplit
            rw [h.file_eq, hsplit, List.append_assoc, hline, stream_append, stream_singleton,
              List.append_nil]
          · exact Or.inl ⟨hdone, rfl⟩
        · refine ⟨[], part ++ rest.take length, ?_, List.prefix_append _ _⟩
          rw [List.append_nil]
          apply h.enter howner ?_ h.nodup ?_
          · rw [h.file_eq, List.append_assoc]
          · exact Or.inr ⟨hdone, by rw [List.append_assoc, hsplit, hline], hfresh⟩
    | _ =>
      simp only [step, hphase]
      exact hsame
  | release p =>
    cases hphase : s.phase p with
    | writing a rest =>
      cases rest with
      | nil =>
        have howner := h.owned p (by rw [hphase]; rfl)
        have hempty : part = [] := by
          have hbegun := h.begun p howner
          rw [hphase] at hbegun
          rcases hbegun with ⟨_, hempty⟩ | ⟨hne, _⟩
          · exact hempty
          · exact absurd rfl hne
        rw [hempty] at h
        simp only [step, hphase]
        exact ⟨[], [], by rw [List.append_nil]; exact h.leave howner, List.prefix_rfl⟩
      | cons c rest =>
        simp only [step, hphase]
        exact hsame
    | _ =>
      simp only [step, hphase]
      exact hsame

/-- **A run** keeps the records, and adds others with new identifiers. -/
theorem run_keeps (h : Consistent s records part) (events : List (Event π F)) :
    ∃ new part', Consistent (final (step python sha256) s events) (records ++ new) part' ∧
      s.file <+: (final (step python sha256) s events).file := by
  induction events generalizing s records part with
  | nil => exact ⟨[], part, by rwa [List.append_nil], List.prefix_rfl⟩
  | cons event events ih =>
    obtain ⟨new, part', hstep, hfile⟩ := step_keeps python sha256 h event
    obtain ⟨more, part'', hrun, hfiles⟩ := ih hstep
    refine ⟨new ++ more, part'', ?_, hfile.trans hfiles⟩
    rw [← List.append_assoc]
    exact hrun

/-! ## Section 3: The run store -/

/-- **The run store.** Appending a record to a store that was written by `append`, and appending it
again to the file that is then there, returns both times and leaves that file as it is exactly when
`Repeats` holds. After any steps of the processes the file has the lines of records with distinct
identifiers, and after any more steps these lines are still there, at the beginning of the file. -/
theorem runStore_repeats_iff {records : List (Admitted F)} (hnodup : (runIds records).Nodup) (a : Admitted F)
    (events more : List (Event π F)) :
    ((∃ text, append python sha256 (stream records) a.record = .ok text ∧
        append python sha256 text a.record = .ok text) ↔ Repeats python records a) ∧
      ∃ (stored new : List (Admitted F)) (part part' : Text),
        (final (step python sha256) System.start events).file = stream stored ++ part ∧
          (final (step python sha256) System.start (events ++ more)).file =
            stream (stored ++ new) ++ part' ∧
          (runIds (stored ++ new)).Nodup ∧ Unfinished stored part ∧
          Unfinished (stored ++ new) part' ∧
          (final (step python sha256) System.start events).file <+:
            (final (step python sha256) System.start (events ++ more)).file := by
  refine ⟨append_again_iff hnodup a, ?_⟩
  obtain ⟨stored, part, hfirst, _⟩ :=
    run_keeps python sha256 consistent_start events
  obtain ⟨new, part', hlater, hprefix⟩ :=
    run_keeps python sha256 hfirst more
  rw [final_append]
  exact ⟨stored, new, part, part', hfirst.file_eq, hlater.file_eq, hlater.nodup, hfirst.unfinished,
    hlater.unfinished, hprefix⟩

/-! ## Section 4: A list in the metadata -/

/-- An interpreter without limits. -/
def samplePython : Interpreter IntegralFloat := ⟨fun _ => true, fun _ => true⟩

/-- The digits of a digest. -/
def sampleDigits : String := String.ofList (List.replicate 64 '0')

theorem toList_sampleDigits : sampleDigits.toList = List.replicate 64 '0' := String.toList_ofList

theorem length_sampleDigits : sampleDigits.toList.length = 64 := by
  rw [toList_sampleDigits, List.length_replicate]

theorem hex_sampleDigits : sampleDigits.toList.all isHex = true := by
  rw [toList_sampleDigits, List.all_replicate]
  decide

/-- A hash function with one digest. -/
def sampleSha256 : Sha256 where
  hexdigest _ := sampleDigits
  length_hexdigest _ := length_sampleDigits
  hex_hexdigest _ := hex_sampleDigits

/-- A run that passed. -/
def sampleRecord (adapterMetadata : Metadata IntegralFloat) : RunRecord (Metadata IntegralFloat) where
  runId := "run-1"
  attemptId := "attempt-1"
  retryOf := none
  attemptNumber := 0
  taskId := "task-1"
  condition := "CC"
  agent := "codex"
  repetition := 0
  repositoryCommit := "0123456789abcdef0123456789abcdef01234567"
  capsuleDigests := []
  promptDigest := "sha256:0123456789abcdef0123456789abcdef0123456789abcdef0123456789abcdef"
  viewManifestDigest := none
  rawEventPath := "raw/run-1.jsonl"
  exitCode := 0
  usage := UsageRecord.empty
  infrastructureFailure := false
  failureCode := none
  taskOutcome := .passed
  adapterMetadata := adapterMetadata
  configDigest := none
  preflightDigest := none
  startedAt := none
  finishedAt := none

/-- The metadata of an adapter that used one tool. -/
def sampleMetadata (tools : Data IntegralFloat) : Metadata IntegralFloat := [("tools", tools)]

theorem admitted_sampleRecord (adapterMetadata : Metadata IntegralFloat) :
    (sampleRecord adapterMetadata).admitted = true := by
  have hbare : (sampleRecord []).admitted = true := by decide +kernel
  exact hbare

/-- A run whose metadata have a list. -/
def listRun : Admitted IntegralFloat :=
  ⟨sampleRecord (sampleMetadata (.list [.string "shell"])), admitted_sampleRecord _, rfl⟩

/-- A run whose metadata have a tuple. -/
def tupleRun : Admitted IntegralFloat :=
  ⟨sampleRecord (sampleMetadata (.tuple [.string "shell"])), admitted_sampleRecord _, rfl⟩

/-- The second `append` of a run whose metadata have a list is refused. -/
theorem list_metadata_refused :
    ∃ text : Text, append samplePython sampleSha256 [] listRun.record = .ok text ∧
      append samplePython sampleSha256 text listRun.record =
        .error (.value "existing run_id cannot be overwritten") := by
  have hnone : (runIds ([] : List (Admitted IntegralFloat))).Nodup := List.nodup_nil
  have hnodup : (runIds [listRun]).Nodup := List.nodup_singleton _
  have hread : ∀ b ∈ [listRun], Readable samplePython b := fun b _ => rfl
  have hfresh : listRun.record.runId ∉ runIds ([] : List (Admitted IntegralFloat)) :=
    List.not_mem_nil
  refine ⟨stream [listRun], ?_, ?_⟩
  · have hprepare : prepare samplePython sampleSha256 (stream []) listRun.record =
        .ok (encoded listRun.record ++ [lineFeed]) :=
      prepare_fresh hnone (by simp) hfresh
    have hempty : stream ([] : List (Admitted IntegralFloat)) = [] := rfl
    rw [hempty] at hprepare
    rw [append, hprepare, stream_singleton]
    rfl
  · rw [append, prepare_stored hnodup hread (List.mem_singleton.mpr rfl) rfl,
      RunRecord.equal_reload listRun.distinct]
    rfl

theorem runStore_repeats_iff_tuple :
    ∃ text : Text,
      append samplePython sampleSha256 (stream ([] : List (Admitted IntegralFloat)))
          tupleRun.record = .ok text ∧
        append samplePython sampleSha256 text tupleRun.record = .ok text := by
  have hrepeats : Repeats samplePython [] tupleRun :=
    ⟨by simp, Or.inr ⟨List.not_mem_nil, rfl, rfl, rfl⟩⟩
  have hnone : (runIds ([] : List (Admitted IntegralFloat))).Nodup := List.nodup_nil
  have hall := @runStore_repeats_iff ℕ _ _ _ samplePython sampleSha256 [] hnone tupleRun [] []
  exact hall.1.mpr hrepeats

end ContractCapsule.Experiments
