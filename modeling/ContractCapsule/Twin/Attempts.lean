import ContractCapsule.Library.Run
import ContractCapsule.Library.Table
import ContractCapsule.Library.Transaction
import ContractCapsule.Twin.RunModels

/-!
# Reservations of Twin Attempts

`swap/attempts.py`: the rows that reserve the attempts of twin runs, one for each operation.
Clients issue `reserve` and `complete` as immediate transactions, in any order and with crashes
anywhere between the statements of the clients.

Over the rows stands a ledger, which gives every operation its attempt: an attempt is reserved
once, completed once, and then keeps its outcome. `step_refines` says that the rows implement the
ledger, and `attempts_run_once` what this means for the clients of a store.
-/

namespace ContractCapsule.Twin

open Library Models

/-! ## Section 1: Rows -/

/-- The column `state`. -/
inductive AttemptState where
  | running
  | complete
deriving DecidableEq, Repr

/-- The text of the column. -/
def AttemptState.text : AttemptState → String
  | .running => "RUNNING"
  | .complete => "COMPLETE"

/-- `AttemptRow` -/
structure AttemptRow where
  operationId : String
  bindingDigest : String
  state : AttemptState
  manifest : Option Bytes
deriving DecidableEq, Repr

/-- A row of `m5_twin_attempts`. -/
structure StoredAttempt extends AttemptRow where
  signature : Bytes
deriving DecidableEq, Repr

/-- The table `m5_twin_attempts`. -/
abbrev AttemptTable := List StoredAttempt

/-- What a transaction raises. -/
inductive AttemptError where
  | keyConflict
  | invalidTransition
  | authenticationFailed
  | bindingMismatch
  | alreadyReserved
  | completionRejected
deriving DecidableEq, Repr

/-! ## Section 2: The store -/

/-- A store of attempts: its key, and the two hash functions it calls. -/
structure AttemptStore where
  /-- `hmac.digest` with SHA-256; the payload stands as its text. -/
  hmacDigest : Bytes → List Char → Bytes
  /-- `digest_bytes` -/
  digestBytes : Bytes → String
  key : Bytes
  longKey : 16 ≤ key.length

namespace AttemptStore

variable (S : AttemptStore)

/-- `_sign` -/
def sign (operationId bindingDigest : String) (state : AttemptState) (manifest : Option Bytes) :
    Bytes :=
  let payload : Value IntegralFloat := .object [
    ("domain", .string "ccs-m5-twin-attempt/1"),
    ("operation_id", .string operationId),
    ("binding_digest", .string bindingDigest),
    ("state", .string state.text),
    ("manifest", (manifest.map fun bytes => Json.string (S.digestBytes bytes)).getD .null)]
  S.hmacDigest S.key (canonicalText payload)

/-- `_verified` -/
def verified (row : StoredAttempt) : Except AttemptError AttemptRow := do
  let expected := S.sign row.operationId row.bindingDigest row.state row.manifest
  raiseIf (expected ≠ row.signature) .authenticationFailed
  pure row.toAttemptRow

/-- The row of an operation. -/
def lookup (operationId : String) (rows : AttemptTable) : Option StoredAttempt :=
  rows.find? fun row => row.operationId = operationId

/-- `INSERT` -/
def insert (row : StoredAttempt) : Tx AttemptTable AttemptError Unit := do
  let rows ← query fun rows => orRaise (insertRow (·.operationId) row rows) .keyConflict
  write fun _ => rows

/-- The condition of the trigger `m5_twin_attempts_transition`. -/
def transitionAborts (old new : StoredAttempt) : Bool :=
  old.state ≠ .running || new.operationId ≠ old.operationId ||
    new.bindingDigest ≠ old.bindingDigest || new.state ≠ .complete

/-- `UPDATE`, with the trigger before every row that changes; it answers how many rows change. -/
def update (p : StoredAttempt → Bool) (f : StoredAttempt → StoredAttempt) :
    Tx AttemptTable AttemptError ℕ := do
  let changes ← query fun rows => do
    raiseIf (rows.any fun row => p row && transitionAborts row (f row)) .invalidTransition
    pure (rows.countP p)
  write (updateRows p f)
  pure changes

/-- `reserve`, between `BEGIN IMMEDIATE` and the end of the transaction. -/
def reserve (operationId bindingDigest : String) : Tx AttemptTable AttemptError AttemptRow := do
  let row ← select (lookup operationId)
  match row with
  | none =>
    let signature := S.sign operationId bindingDigest .running none
    insert ⟨⟨operationId, bindingDigest, .running, none⟩, signature⟩
    pure ⟨operationId, bindingDigest, .running, none⟩
  | some row =>
    let result ← check (S.verified row)
    check (raiseIf (result.bindingDigest ≠ bindingDigest) .bindingMismatch)
    check (raiseIf (result.state ≠ .complete) .alreadyReserved)
    pure result

/-- `complete`, between `BEGIN IMMEDIATE` and the end of the transaction. -/
def complete (operationId : String) (manifest : Bytes) : Tx AttemptTable AttemptError Unit := do
  let found ← select (lookup operationId)
  let row ← check (orRaise found .completionRejected)
  let result ← check (S.verified row)
  check (raiseIf (result.state ≠ .running) .completionRejected)
  let signature := S.sign operationId row.bindingDigest .complete (some manifest)
  let totalChanges ← update (fun r => r.operationId = operationId && r.state = .running)
    fun r => { r with state := .complete, manifest := some manifest, signature := signature }
  check (raiseIf (totalChanges ≠ 1) .completionRejected)

/-- `get` -/
def get (operationId : String) (rows : AttemptTable) : Except AttemptError (Option AttemptRow) :=
  match lookup operationId rows with
  | none => .ok none
  | some row => some <$> S.verified row

end AttemptStore

/-! ## Section 3: Clients -/

/-- A call of a client. -/
inductive AttemptCall where
  | reserve (operationId bindingDigest : String)
  | complete (operationId : String) (manifest : Bytes)

/-- What a call that returns gives. -/
inductive AttemptAnswer where
  | reserved (row : AttemptRow)
  | completed
deriving DecidableEq, Repr

/-- How a transaction ends for its client: it is answered; it commits, and the client is gone
before the answer; or it never commits, because the client crashes or the database is locked. -/
inductive Fate where
  | answered
  | lost
  | abandoned
deriving DecidableEq, Repr

/-- A transaction of some client. -/
structure AttemptEvent where
  call : AttemptCall
  fate : Fate

namespace AttemptStore

variable (S : AttemptStore)

/-- A call as a transaction. -/
def execute (call : AttemptCall) (rows : AttemptTable) :
    Except AttemptError AttemptAnswer × AttemptTable :=
  match call with
  | .reserve operationId bindingDigest =>
    transaction (AttemptAnswer.reserved <$> S.reserve operationId bindingDigest) rows
  | .complete operationId manifest =>
    transaction ((fun _ => AttemptAnswer.completed) <$> S.complete operationId manifest) rows

/-- A step of the store: what the client is answered, if it is, and the rows afterwards. -/
def step (rows : AttemptTable) (event : AttemptEvent) :
    Option (Except AttemptError AttemptAnswer) × AttemptTable :=
  match event.fate with
  | .answered => (some (S.execute event.call rows).1, (S.execute event.call rows).2)
  | .lost => (none, (S.execute event.call rows).2)
  | .abandoned => (none, rows)

/-- The rows after the transactions of the clients of a new store. -/
def after (events : List AttemptEvent) : AttemptTable := final S.step [] events

end AttemptStore

/-! ## Section 4: The ledger -/

/-- The attempt of an operation. -/
inductive Attempt where
  | vacant
  | running (bindingDigest : String)
  | complete (bindingDigest : String) (manifest : Bytes)
deriving DecidableEq, Repr

namespace Attempt

/-- What a reservation is answered, and the attempt afterwards: the first reservation runs the
attempt, and later ones get its outcome when they name its binding. -/
def reserve (operationId bindingDigest : String) : Attempt → Except AttemptError AttemptRow × Attempt
  | vacant => (.ok ⟨operationId, bindingDigest, .running, none⟩, running bindingDigest)
  | running held =>
    (.error (if held = bindingDigest then .alreadyReserved else .bindingMismatch), running held)
  | complete held manifest =>
    (if held = bindingDigest then .ok ⟨operationId, held, .complete, some manifest⟩
      else .error .bindingMismatch, complete held manifest)

/-- What a completion is answered, and the attempt afterwards. -/
def completeWith (manifest : Bytes) : Attempt → Except AttemptError Unit × Attempt
  | running held => (.ok (), complete held manifest)
  | vacant => (.error .completionRejected, vacant)
  | complete held recorded => (.error .completionRejected, complete held recorded)

/-- What an attempt can become. -/
inductive Becomes : Attempt → Attempt → Prop where
  | same (a : Attempt) : Becomes a a
  | start (a : Attempt) : Becomes vacant a
  | finish (bindingDigest : String) (manifest : Bytes) :
      Becomes (running bindingDigest) (complete bindingDigest manifest)

theorem Becomes.trans {a b c : Attempt} (hab : Becomes a b) (hbc : Becomes b c) : Becomes a c := by
  cases hab with
  | same => exact hbc
  | start => exact .start c
  | finish held manifest =>
    cases hbc
    exact .finish held manifest

theorem becomes_reserve (operationId bindingDigest : String) (a : Attempt) :
    Becomes a (a.reserve operationId bindingDigest).2 := by
  cases a with
  | vacant => exact .start _
  | running held => exact .same _
  | complete held manifest => exact .same _

theorem becomes_completeWith (manifest : Bytes) (a : Attempt) :
    Becomes a (a.completeWith manifest).2 := by
  cases a with
  | vacant => exact .same _
  | running held => exact .finish held manifest
  | complete held recorded => exact .same _

end Attempt

/-- The attempts of all operations. -/
abbrev Ledger := String → Attempt

namespace Ledger

/-- A call as an operation of the ledger. -/
def execute (call : AttemptCall) (ledger : Ledger) : Except AttemptError AttemptAnswer × Ledger :=
  match call with
  | .reserve operationId bindingDigest =>
    let result := (ledger operationId).reserve operationId bindingDigest
    (result.1.map .reserved, Function.update ledger operationId result.2)
  | .complete operationId manifest =>
    let result := (ledger operationId).completeWith manifest
    (result.1.map fun _ => .completed, Function.update ledger operationId result.2)

/-- A step of the ledger. -/
def step (ledger : Ledger) (event : AttemptEvent) :
    Option (Except AttemptError AttemptAnswer) × Ledger :=
  match event.fate with
  | .answered => (some (execute event.call ledger).1, (execute event.call ledger).2)
  | .lost => (none, (execute event.call ledger).2)
  | .abandoned => (none, ledger)

/-- A call changes the attempt of its operation as that attempt can change, and no other. -/
theorem becomes_execute (call : AttemptCall) (ledger : Ledger) (operationId : String) :
    (ledger operationId).Becomes ((execute call ledger).2 operationId) := by
  cases call with
  | reserve called bindingDigest =>
    rcases eq_or_ne operationId called with rfl | hother
    · simp only [execute, Function.update_self]
      exact Attempt.becomes_reserve _ _ _
    · simp only [execute, Function.update_of_ne hother]
      exact .same _
  | complete called manifest =>
    rcases eq_or_ne operationId called with rfl | hother
    · simp only [execute, Function.update_self]
      exact Attempt.becomes_completeWith _ _
    · simp only [execute, Function.update_of_ne hother]
      exact .same _

theorem becomes_step (ledger : Ledger) (event : AttemptEvent) (operationId : String) :
    (ledger operationId).Becomes ((step ledger event).2 operationId) := by
  unfold step
  cases event.fate with
  | answered => exact becomes_execute _ _ _
  | lost => exact becomes_execute _ _ _
  | abandoned => exact .same _

/-- Over a run every attempt changes as attempts can change. -/
theorem becomes_final (ledger : Ledger) (events : List AttemptEvent) (operationId : String) :
    (ledger operationId).Becomes (final step ledger events operationId) :=
  relates_final (fun _ => True) (fun a b : Ledger => (a operationId).Becomes (b operationId))
    (fun _ _ _ => trivial) (fun _ => .same _) Attempt.Becomes.trans
    (fun ledger event _ => becomes_step ledger event operationId) trivial events

end Ledger

/-- The answer permits the execution of an operation. -/
def Grants (operationId : String) (output : Option (Except AttemptError AttemptAnswer)) : Prop :=
  ∃ row : AttemptRow, output = some (.ok (.reserved row)) ∧ row.operationId = operationId ∧
    row.state = .running

/-- The ledger permits an execution only where the attempt is vacant, and then runs it. -/
theorem Ledger.grants_step {ledger : Ledger} {event : AttemptEvent} {operationId : String}
    (h : Grants operationId (Ledger.step ledger event).1) :
    ledger operationId = .vacant ∧ (Ledger.step ledger event).2 operationId ≠ .vacant := by
  obtain ⟨row, houtput, hoperation, hstate⟩ := h
  obtain ⟨call, fate⟩ := event
  cases fate with
  | lost => cases houtput
  | abandoned => cases houtput
  | answered =>
    have hanswer := Option.some.inj houtput
    cases call with
    | complete called manifest =>
      cases hattempt : ledger called <;>
        simp [Ledger.execute, Attempt.completeWith, hattempt, Except.map] at hanswer
    | reserve called bindingDigest =>
      cases hattempt : ledger called with
      | vacant =>
        simp only [Ledger.execute, hattempt, Attempt.reserve, Except.map, Except.ok.injEq,
          AttemptAnswer.reserved.injEq] at hanswer
        subst hanswer
        subst hoperation
        refine ⟨hattempt, ?_⟩
        simp [Ledger.step, Ledger.execute, hattempt, Attempt.reserve]
      | running held => simp [Ledger.execute, Attempt.reserve, hattempt, Except.map] at hanswer
      | complete held manifest =>
        -- an outcome is answered in the complete state
        by_cases hbinding : held = bindingDigest
        · simp only [Ledger.execute, hattempt, Attempt.reserve, hbinding, if_true, Except.map,
            Except.ok.injEq, AttemptAnswer.reserved.injEq] at hanswer
          subst hanswer
          cases hstate
        · simp [Ledger.execute, Attempt.reserve, hattempt, hbinding, Except.map] at hanswer

/-- In a run of the ledger an operation is permitted once. -/
theorem Ledger.grants_pairwise (operationId : String) (ledger : Ledger)
    (events : List AttemptEvent) :
    (trace Ledger.step ledger events).Pairwise
      fun t u => ¬ (Grants operationId t.output ∧ Grants operationId u.output) := by
  -- the first permission marks the ledger: the attempt is no longer vacant
  apply trace_pairwise (fun _ => True) _
    (fun t (later : Ledger) => Grants operationId t.output → later operationId ≠ .vacant)
  · exact fun _ _ _ => trivial
  · intro ledger event _ hgrants
    exact (Ledger.grants_step hgrants).2
  · intro t ledger event _ hmark hgrants hvacant
    have hbecomes := becomes_step ledger event operationId
    rw [hvacant] at hbecomes
    have hheld := hmark hgrants
    cases hattempt : ledger operationId with
    | vacant => exact hheld hattempt
    | running held => rw [hattempt] at hbecomes; cases hbecomes
    | complete held manifest => rw [hattempt] at hbecomes; cases hbecomes
  · intro t ledger event _ hmark hboth
    exact hmark hboth.1 (Ledger.grants_step hboth.2).1
  · trivial

/-! ## Section 5: The rows implement the ledger -/

namespace AttemptStore

variable {S : AttemptStore}

/-- What holds of the rows that the store writes. -/
structure Sound (S : AttemptStore) (rows : AttemptTable) : Prop where
  /-- The primary key. -/
  keys : (rows.map (·.operationId)).Nodup
  signed : ∀ row ∈ rows,
    row.signature = S.sign row.operationId row.bindingDigest row.state row.manifest
  /-- A row has a manifest when it is complete. -/
  manifests : ∀ row ∈ rows, row.manifest.isSome = decide (row.state = .complete)

/-- The attempt that a row stands for. -/
def attemptOf (row : StoredAttempt) : Attempt :=
  match row.state with
  | .running => .running row.bindingDigest
  | .complete => .complete row.bindingDigest (row.manifest.getD [])

/-- The ledger that the rows stand for. -/
def ledgerOf (rows : AttemptTable) : Ledger := fun operationId =>
  ((lookup operationId rows).map attemptOf).getD .vacant

theorem lookup_mem {operationId : String} {rows : AttemptTable} {row : StoredAttempt}
    (h : lookup operationId rows = some row) : row ∈ rows ∧ row.operationId = operationId :=
  ⟨List.mem_of_find?_eq_some h, by simpa using List.find?_some h⟩

theorem lookup_eq_none {operationId : String} {rows : AttemptTable} :
    lookup operationId rows = none ↔ ∀ row ∈ rows, row.operationId ≠ operationId := by
  simp [lookup]

theorem Sound.verified {rows : AttemptTable} (hs : Sound S rows) {row : StoredAttempt}
    (hrow : row ∈ rows) : S.verified row = .ok row.toAttemptRow := by
  have hsigned := hs.signed row hrow
  simp [AttemptStore.verified, raiseIf, hsigned]

/-- The row that a first reservation inserts. -/
def reservation (S : AttemptStore) (operationId bindingDigest : String) : StoredAttempt :=
  ⟨⟨operationId, bindingDigest, .running, none⟩, S.sign operationId bindingDigest .running none⟩

/-- A row of an operation after its completion. -/
def completion (S : AttemptStore) (operationId bindingDigest : String) (manifest : Bytes)
    (row : StoredAttempt) : StoredAttempt :=
  { row with
    state := .complete
    manifest := some manifest
    signature := S.sign operationId bindingDigest .complete (some manifest) }

/-- The rows that a completion of an operation updates. -/
def completes (operationId : String) (row : StoredAttempt) : Bool :=
  row.operationId = operationId && row.state = .running

/-- A reservation of an operation without a row inserts one. -/
theorem execute_reserve_vacant {operationId : String} {rows : AttemptTable}
    (h : lookup operationId rows = none) (bindingDigest : String) :
    S.execute (.reserve operationId bindingDigest) rows =
      (.ok (.reserved (S.reservation operationId bindingDigest).toAttemptRow),
        rows ++ [S.reservation operationId bindingDigest]) := by
  have hinsert : insertRow (·.operationId) (S.reservation operationId bindingDigest) rows =
      some (rows ++ [S.reservation operationId bindingDigest]) :=
    insertRow_eq_some.mpr ⟨lookup_eq_none.mp h, rfl⟩
  apply (transaction_eq_ok _ _ _ _).mpr
  rw [returns_map]
  refine ⟨_, ?_, rfl⟩
  simp only [reserve, returns_bind, returns_select]
  refine ⟨_, _, ⟨h, rfl⟩, ?_⟩
  simp only [insert, returns_bind, returns_query, returns_write, returns_pure, orRaise_eq_ok]
  exact ⟨(), _, ⟨_, _, ⟨hinsert, rfl⟩, rfl⟩, rfl, rfl⟩

/-- A reservation of an operation with a row answers from the row and changes nothing. -/
theorem execute_reserve_held {operationId : String} {rows : AttemptTable} (hs : Sound S rows)
    {row : StoredAttempt} (h : lookup operationId rows = some row) (bindingDigest : String) :
    S.execute (.reserve operationId bindingDigest) rows =
      (if row.bindingDigest ≠ bindingDigest then .error .bindingMismatch
        else if row.state ≠ .complete then .error .alreadyReserved
        else .ok (.reserved row.toAttemptRow), rows) := by
  have hverified := hs.verified (lookup_mem h).1
  by_cases hbinding : row.bindingDigest ≠ bindingDigest
  · rw [if_pos hbinding]
    apply (transaction_eq_error _ _ _).mpr
    simp [reserve, h, hverified, hbinding]
  · rw [if_neg hbinding]
    by_cases hstate : row.state ≠ .complete
    · rw [if_pos hstate]
      apply (transaction_eq_error _ _ _).mpr
      simp [reserve, h, hverified, hstate, not_ne_iff.mp hbinding]
    · rw [if_neg hstate]
      apply (transaction_eq_ok _ _ _ _).mpr
      simp [reserve, h, hverified, not_ne_iff.mp hstate, not_ne_iff.mp hbinding]

/-- A completion of a running attempt rewrites its row. -/
theorem execute_complete_running {operationId : String} {rows : AttemptTable} (hs : Sound S rows)
    {row : StoredAttempt} (h : lookup operationId rows = some row) (hstate : row.state = .running)
    (manifest : Bytes) :
    S.execute (.complete operationId manifest) rows =
      (.ok .completed,
        updateRows (completes operationId) (S.completion operationId row.bindingDigest manifest)
          rows) := by
  obtain ⟨hrow, hoperation⟩ := lookup_mem h
  -- the trigger lets a running row complete under the same operation and binding
  have hpermitted : ¬ rows.any (fun r => completes operationId r &&
      transitionAborts r (S.completion operationId row.bindingDigest manifest r)) = true := by
    intro hany
    obtain ⟨r, _, hr⟩ := List.any_eq_true.mp hany
    simp only [completes, transitionAborts, completion, ne_eq, not_true_eq_false, decide_false,
      Bool.or_false, Bool.and_eq_true, decide_eq_true_eq] at hr
    exact hr.2 hr.1.2
  -- the operation is the key of the table, so exactly one row is updated
  have hchanges : rows.countP (completes operationId) = 1 := by
    apply countP_eq_one_of_nodup hs.keys hrow
    · simp [completes, hoperation, hstate]
    · intro r _ hr
      simp only [completes, Bool.and_eq_true, decide_eq_true_eq] at hr
      exact hr.1.trans hoperation.symm
  apply (transaction_eq_ok _ _ _ _).mpr
  rw [returns_map]
  refine ⟨(), ?_, rfl⟩
  have hrunning : ¬ row.toAttemptRow.state ≠ .running := not_not_intro hstate
  simp only [complete, returns_bind, returns_select, returns_check, orRaise_eq_ok, raiseIf_eq_ok,
    update, returns_query, returns_write, returns_pure, Except.bind_eq_ok, Except.pure_eq_ok]
  refine ⟨_, _, ⟨h, rfl⟩, row, _, ⟨rfl, rfl⟩, _, _, ⟨hs.verified hrow, rfl⟩, (), _,
    ⟨hrunning, rfl⟩, 1, _, ⟨1, _, ⟨⟨(), hpermitted, hchanges⟩, rfl⟩, (), _, rfl, rfl, rfl⟩, ?_, rfl⟩
  exact not_not_intro rfl

/-- A completion of an attempt that does not run changes nothing. -/
theorem execute_complete_rejected {operationId : String} {rows : AttemptTable} (hs : Sound S rows)
    (h : ∀ row, lookup operationId rows = some row → row.state ≠ .running) (manifest : Bytes) :
    S.execute (.complete operationId manifest) rows = (.error .completionRejected, rows) := by
  apply (transaction_eq_error _ _ _).mpr
  cases hrow : lookup operationId rows with
  | none => simp [complete, hrow, orRaise]
  | some row =>
    have hverified := hs.verified (lookup_mem hrow).1
    have hstate := h row hrow
    simp [complete, hrow, orRaise, hverified, hstate]

/-- The calls keep what holds of the rows. -/
theorem sound_execute {rows : AttemptTable} (hs : Sound S rows) (call : AttemptCall) :
    Sound S (S.execute call rows).2 := by
  cases call with
  | reserve operationId bindingDigest =>
    cases hrow : lookup operationId rows with
    | some row =>
      rw [execute_reserve_held hs hrow]
      exact hs
    | none =>
      rw [execute_reserve_vacant hrow]
      -- the new row is signed when it is inserted, and it runs without a manifest
      refine ⟨nodup_append_row hs.keys (lookup_eq_none.mp hrow), ?_, ?_⟩
      · intro row hmem
        rcases List.mem_append.mp hmem with hold | hnew
        · exact hs.signed row hold
        · rw [List.mem_singleton.mp hnew]
          rfl
      · intro row hmem
        rcases List.mem_append.mp hmem with hold | hnew
        · exact hs.manifests row hold
        · rw [List.mem_singleton.mp hnew]
          rfl
  | complete operationId manifest =>
    by_cases hrunning : ∃ row, lookup operationId rows = some row ∧ row.state = .running
    · obtain ⟨row, hrow, hstate⟩ := hrunning
      rw [execute_complete_running hs hrow hstate]
      obtain ⟨hmem, hoperation⟩ := lookup_mem hrow
      refine ⟨?_, ?_, ?_⟩
      -- the update keeps the operation of every row
      · have hkeys := @map_updateRows _ (completes operationId)
          (S.completion operationId row.bindingDigest manifest) rows _
          (fun r : StoredAttempt => r.operationId) (fun _ _ _ => rfl)
        rw [hkeys]
        exact hs.keys
      · intro r hr
        obtain ⟨r₀, hr₀, rfl⟩ := mem_updateRows.mp hr
        by_cases hcompletes : completes operationId r₀ = true
        · -- the only row that is updated is the row that was read
          simp only [hcompletes, if_true]
          simp only [completes, Bool.and_eq_true, decide_eq_true_eq] at hcompletes
          have hsame : r₀ = row :=
            eq_of_key_eq hs.keys hr₀ hmem (hcompletes.1.trans hoperation.symm)
          rw [hsame, ← hoperation]
          rfl
        · rw [if_neg hcompletes]
          exact hs.signed r₀ hr₀
      · intro r hr
        obtain ⟨r₀, hr₀, rfl⟩ := mem_updateRows.mp hr
        by_cases hcompletes : completes operationId r₀ = true
        · simp [hcompletes, completion]
        · rw [if_neg hcompletes]
          exact hs.manifests r₀ hr₀
    · rw [execute_complete_rejected hs]
      · exact hs
      · intro row hrow hstate
        exact hrunning ⟨row, hrow, hstate⟩

theorem ledgerOf_append {rows : AttemptTable} {row : StoredAttempt}
    (h : lookup row.operationId rows = none) :
    ledgerOf (rows ++ [row]) = Function.update (ledgerOf rows) row.operationId (attemptOf row) := by
  funext operationId
  -- under the operation of the new row the ledger changes, under every other one it does not
  rcases eq_or_ne operationId row.operationId with rfl | hother
  · rw [Function.update_self, ledgerOf, lookup, List.find?_append]
    rw [lookup] at h
    simp [h]
  · rw [Function.update_of_ne hother, ledgerOf, ledgerOf, lookup, lookup, List.find?_append]
    simp [hother.symm]

theorem ledgerOf_completion {rows : AttemptTable} {row : StoredAttempt} {operationId : String}
    (h : lookup operationId rows = some row) (hstate : row.state = .running) (manifest : Bytes) :
    ledgerOf (updateRows (completes operationId)
        (S.completion operationId row.bindingDigest manifest) rows) =
      Function.update (ledgerOf rows) operationId (.complete row.bindingDigest manifest) := by
  have hoperation := (lookup_mem h).2
  funext other
  have hlookup := @find?_updateRows _ (completes operationId)
    (fun r : StoredAttempt => decide (r.operationId = other))
    (S.completion operationId row.bindingDigest manifest) rows (fun _ _ _ => rfl)
  rw [ledgerOf, lookup, hlookup]
  rcases eq_or_ne other operationId with rfl | hother
  · rw [lookup] at h
    rw [Function.update_self, h]
    simp [completes, hoperation, hstate, attemptOf, completion]
  · rw [Function.update_of_ne hother, ledgerOf, lookup]
    cases hfound : rows.find? (fun r => decide (r.operationId = other)) with
    | none => rfl
    | some found =>
      have hname : found.operationId = other := by simpa using List.find?_some hfound
      simp [completes, hname, hother]

/-- **Refinement of a call**: the rows answer as the ledger does and change as it does. -/
theorem execute_refines {rows : AttemptTable} (hs : Sound S rows) (call : AttemptCall) :
    Ledger.execute call (ledgerOf rows) =
      ((S.execute call rows).1, ledgerOf (S.execute call rows).2) := by
  cases call with
  -- a vacant operation gets a row; one with a row answers from it, by binding and then by state
  | reserve operationId bindingDigest =>
    cases hrow : lookup operationId rows with
    | none =>
      rw [execute_reserve_vacant hrow, ledgerOf_append hrow]
      have hvacant : ledgerOf rows operationId = .vacant := by rw [ledgerOf, hrow]; rfl
      simp only [Ledger.execute, hvacant]
      rfl
    | some row =>
      rw [execute_reserve_held hs hrow]
      have hmanifest := hs.manifests row (lookup_mem hrow).1
      have hoperation := (lookup_mem hrow).2
      have hattempt : ledgerOf rows operationId = attemptOf row := by rw [ledgerOf, hrow]; rfl
      have hsame : Function.update (ledgerOf rows) operationId (attemptOf row) = ledgerOf rows := by
        rw [← hattempt, Function.update_eq_self]
      obtain ⟨⟨held, binding, state, manifest⟩, signature⟩ := row
      obtain rfl : held = operationId := hoperation
      cases state with
      | running =>
        simp only [attemptOf] at hattempt hsame
        simp only [Ledger.execute, hattempt, Attempt.reserve, hsame]
        by_cases hbinding : binding = bindingDigest <;> simp [hbinding, Except.map]
      | complete =>
        -- a completed row carries its manifest
        obtain ⟨recorded, rfl⟩ := Option.isSome_iff_exists.mp hmanifest
        simp only [attemptOf, Option.getD_some] at hattempt hsame
        simp only [Ledger.execute, hattempt, Attempt.reserve, hsame]
        by_cases hbinding : binding = bindingDigest <;> simp [hbinding, Except.map]
  | complete operationId manifest =>
    by_cases hrunning : ∃ row, lookup operationId rows = some row ∧ row.state = .running
    · obtain ⟨row, hrow, hstate⟩ := hrunning
      rw [execute_complete_running hs hrow hstate, ledgerOf_completion hrow hstate]
      have hattempt : ledgerOf rows operationId = .running row.bindingDigest := by
        simp [ledgerOf, hrow, attemptOf, hstate]
      simp only [Ledger.execute, hattempt]
      rfl
    -- a completion is refused where there is no row or a completed one, which is what the ledger
    -- says
    · have hidle : ∀ row, lookup operationId rows = some row → row.state ≠ .running :=
        fun row hrow hstate => hrunning ⟨row, hrow, hstate⟩
      rw [execute_complete_rejected hs hidle]
      have hrejected : (ledgerOf rows operationId).completeWith manifest =
          (.error .completionRejected, ledgerOf rows operationId) := by
        cases hrow : lookup operationId rows with
        | none =>
          simp [ledgerOf, hrow, Attempt.completeWith]
        | some row =>
          have hcomplete : row.state = .complete := by
            cases hstate : row.state with
            | running => exact absurd hstate (hidle row hrow)
            | complete => rfl
          simp [ledgerOf, hrow, attemptOf, hcomplete, Attempt.completeWith]
      simp only [Ledger.execute, hrejected, Function.update_eq_self]
      rfl

theorem sound_step {rows : AttemptTable} (hs : Sound S rows) (event : AttemptEvent) :
    Sound S (S.step rows event).2 := by
  unfold step
  cases event.fate with
  | answered => exact sound_execute hs _
  | lost => exact sound_execute hs _
  | abandoned => exact hs

/-- **Refinement of a step**: the rows implement the ledger. -/
theorem step_refines {rows : AttemptTable} (hs : Sound S rows) (event : AttemptEvent) :
    Ledger.step (ledgerOf rows) event = ((S.step rows event).1, ledgerOf (S.step rows event).2) := by
  unfold step Ledger.step
  cases event.fate with
  | answered => simp only [execute_refines hs]
  | lost => simp only [execute_refines hs]
  | abandoned => rfl

theorem sound_nil : Sound S [] := ⟨List.nodup_nil, by simp, by simp⟩

/-- The rows of a store are sound after any transactions. -/
theorem sound_after (events : List AttemptEvent) : Sound S (S.after events) :=
  invariant_final (Sound S) (fun _ event hs => sound_step hs event) sound_nil events

/-- The ledger after the transactions of the clients. -/
theorem ledgerOf_after (events : List AttemptEvent) :
    ledgerOf (S.after events) = final Ledger.step (ledgerOf []) events :=
  (refines_final ledgerOf (Sound S) (fun _ event hs => sound_step hs event)
    (fun _ event hs => step_refines hs event) sound_nil events).symm

theorem after_append (before after : List AttemptEvent) :
    S.after (before ++ after) = final S.step (S.after before) after :=
  final_append _ _ _

/-- What the ledger says of an operation with a row. -/
theorem ledgerOf_of_lookup {rows : AttemptTable} {operationId : String} {row : StoredAttempt}
    (h : lookup operationId rows = some row) : ledgerOf rows operationId = attemptOf row := by
  rw [ledgerOf, h]
  rfl

/-! ## Section 6: Attempts run at most once -/

/-- What the clients of a store can rely on, after the transactions `events` of any clients. -/
structure RunsAtMostOnce (S : AttemptStore) (events : List AttemptEvent) : Prop where
  /-- For each operation one reservation at most is answered with the permission to run. -/
  permittedOnce : ∀ operationId, (trace S.step [] events).Pairwise
    fun t u => ¬ (Grants operationId t.output ∧ Grants operationId u.output)
  /-- A row stays, with its binding; it is as it was, or it was running and is complete. -/
  transitions : ∀ row ∈ S.after events, ∀ later, ∃ row' ∈ S.after (events ++ later),
    row'.operationId = row.operationId ∧ row'.bindingDigest = row.bindingDigest ∧
      (row'.toAttemptRow = row.toAttemptRow ∨ row.state = .running ∧ row'.state = .complete)
  /-- After a completion every reservation with the binding of the attempt is answered with the
  manifest that the completion recorded. -/
  replays : ∀ operationId manifest,
    (S.execute (.complete operationId manifest) (S.after events)).1 = .ok .completed →
    ∃ bindingDigest,
      (∃ row ∈ S.after events, row.operationId = operationId ∧ row.bindingDigest = bindingDigest ∧
        row.state = .running) ∧
      ∀ fate, fate ≠ .abandoned → ∀ later,
        let rows := S.after (events ++ ⟨.complete operationId manifest, fate⟩ :: later)
        S.execute (.reserve operationId bindingDigest) rows =
          (.ok (.reserved ⟨operationId, bindingDigest, .complete, some manifest⟩), rows)
  /-- A reservation with another binding is rejected and changes nothing. -/
  otherBinding : ∀ row ∈ S.after events, ∀ bindingDigest, bindingDigest ≠ row.bindingDigest →
    S.execute (.reserve row.operationId bindingDigest) (S.after events) =
      (.error .bindingMismatch, S.after events)
  /-- A completion of an attempt that does not run is rejected and changes nothing. -/
  notRunning : ∀ operationId,
    (∀ row ∈ S.after events, row.operationId = operationId → row.state ≠ .running) →
    ∀ manifest, S.execute (.complete operationId manifest) (S.after events) =
      (.error .completionRejected, S.after events)

/-- In rows with distinct keys, a row is found under its operation. -/
theorem Sound.lookup_eq {rows : AttemptTable} (hs : Sound S rows) {row : StoredAttempt}
    (hrow : row ∈ rows) : lookup row.operationId rows = some row :=
  find?_eq_some_of_nodup hs.keys hrow

/-- An attempt that is not vacant has a row. -/
theorem exists_row {rows : AttemptTable} {operationId : String}
    (h : ledgerOf rows operationId ≠ .vacant) :
    ∃ row ∈ rows, row.operationId = operationId ∧ attemptOf row = ledgerOf rows operationId := by
  cases hrow : lookup operationId rows with
  | none => simp [ledgerOf, hrow] at h
  | some row =>
    obtain ⟨hmem, hoperation⟩ := lookup_mem hrow
    exact ⟨row, hmem, hoperation, (ledgerOf_of_lookup hrow).symm⟩

/-- A row that stands for a completed attempt is the completed row. -/
theorem Sound.row_of_complete {rows : AttemptTable} (hs : Sound S rows) {row : StoredAttempt}
    (hrow : row ∈ rows) {bindingDigest : String} {manifest : Bytes}
    (h : attemptOf row = .complete bindingDigest manifest) :
    row.toAttemptRow = ⟨row.operationId, bindingDigest, .complete, some manifest⟩ := by
  have hmanifest := hs.manifests row hrow
  obtain ⟨⟨operationId, held, state, recorded⟩, signature⟩ := row
  cases state with
  | running => cases h
  | complete =>
    obtain ⟨bytes, rfl⟩ := Option.isSome_iff_exists.mp hmanifest
    simp only [attemptOf, Option.getD_some, Attempt.complete.injEq] at h
    rw [h.1, h.2]

theorem Sound.row_of_running {rows : AttemptTable} (hs : Sound S rows) {row : StoredAttempt}
    (hrow : row ∈ rows) {bindingDigest : String} (h : attemptOf row = .running bindingDigest) :
    row.toAttemptRow = ⟨row.operationId, bindingDigest, .running, none⟩ := by
  have hmanifest := hs.manifests row hrow
  obtain ⟨⟨operationId, held, state, recorded⟩, signature⟩ := row
  cases state with
  | complete => cases h
  | running =>
    have hnone : recorded = none := by simpa using hmanifest
    simp only [attemptOf, Attempt.running.injEq] at h
    rw [h, hnone]

/-- The rows of an operation change as its attempt does. -/
theorem row_later {events : List AttemptEvent} {row : StoredAttempt} (hrow : row ∈ S.after events)
    (later : List AttemptEvent) : ∃ row' ∈ S.after (events ++ later),
      row'.operationId = row.operationId ∧ row'.bindingDigest = row.bindingDigest ∧
        (row'.toAttemptRow = row.toAttemptRow ∨ row.state = .running ∧ row'.state = .complete) := by
  have hs : Sound S (S.after events) := sound_after events
  have hs' : Sound S (S.after (events ++ later)) := sound_after _
  have hattempt := ledgerOf_of_lookup (hs.lookup_eq hrow)
  have hbecomes := Ledger.becomes_final (ledgerOf (S.after events)) later row.operationId
  have hledger : final Ledger.step (ledgerOf (S.after events)) later =
      ledgerOf (S.after (events ++ later)) := by
    rw [ledgerOf_after, ledgerOf_after, final_append]
  rw [hledger, hattempt] at hbecomes
  generalize hnext : ledgerOf (S.after (events ++ later)) row.operationId = next at hbecomes
  -- a running attempt stays or is finished; a complete one stays
  cases hstate : row.state with
  | running =>
    have hrunning : attemptOf row = .running row.bindingDigest := by rw [attemptOf, hstate]
    rw [hrunning] at hbecomes
    cases hbecomes with
    | same =>
      obtain ⟨row', hrow', hoperation, hsame⟩ := exists_row (by rw [hnext]; simp)
      have hcolumns := hs'.row_of_running hrow' (hsame.trans hnext)
      refine ⟨row', hrow', hoperation, by rw [hcolumns], .inl ?_⟩
      rw [hcolumns, hs.row_of_running hrow hrunning, hoperation]
    | finish _ manifest =>
      obtain ⟨row', hrow', hoperation, hsame⟩ := exists_row (by rw [hnext]; simp)
      have hcolumns := hs'.row_of_complete hrow' (hsame.trans hnext)
      exact ⟨row', hrow', hoperation, by rw [hcolumns], .inr ⟨rfl, by rw [hcolumns]⟩⟩
  | complete =>
    have hcomplete : attemptOf row = .complete row.bindingDigest (row.manifest.getD []) := by
      rw [attemptOf, hstate]
    rw [hcomplete] at hbecomes
    cases hbecomes with
    | same =>
      obtain ⟨row', hrow', hoperation, hsame⟩ := exists_row (by rw [hnext]; simp)
      have hcolumns := hs'.row_of_complete hrow' (hsame.trans hnext)
      have hcolumns₀ := hs.row_of_complete hrow hcomplete
      refine ⟨row', hrow', hoperation, by rw [hcolumns], .inl ?_⟩
      rw [hcolumns, hoperation]
      exact hcolumns₀.symm

/-- **Attempts run at most once**, whatever the clients do and wherever they crash. -/
theorem attempts_run_once (S : AttemptStore) (events : List AttemptEvent) :
    RunsAtMostOnce S events where
  permittedOnce := by
    intro operationId
    -- the ledger grants once, and the store answers as the ledger does
    have hledger := Ledger.grants_pairwise operationId (ledgerOf []) events
    have htrace := refines_trace ledgerOf (Sound S) (fun _ event hs => sound_step hs event)
      (fun _ event hs => step_refines hs event) sound_nil events
    rw [htrace, List.pairwise_map] at hledger
    exact hledger
  transitions := fun row hrow later => row_later hrow later
  replays := by
    intro operationId manifest hcompleted
    have hs : Sound S (S.after events) := sound_after events
    -- the completion found the attempt running
    have hrunning : ∃ row, lookup operationId (S.after events) = some row ∧
        row.state = .running := by
      by_contra hidle
      have hrejected := execute_complete_rejected hs
        (fun row hrow hstate => hidle ⟨row, hrow, hstate⟩) manifest
      rw [hrejected] at hcompleted
      cases hcompleted
    obtain ⟨row, hrow, hstate⟩ := hrunning
    obtain ⟨hmem, hoperation⟩ := lookup_mem hrow
    refine ⟨row.bindingDigest, ⟨row, hmem, hoperation, rfl, hstate⟩, ?_⟩
    intro fate hfate later rows
    -- the completion took effect, whether or not its answer was lost
    have hcommitted : (S.step (S.after events) ⟨.complete operationId manifest, fate⟩).2 =
        (S.execute (.complete operationId manifest) (S.after events)).2 := by
      cases fate with
      | answered => rfl
      | lost => rfl
      | abandoned => exact absurd rfl hfate
    have hattempt : ledgerOf (S.after (events ++ [⟨.complete operationId manifest, fate⟩]))
        operationId = .complete row.bindingDigest manifest := by
      rw [after_append, final_cons, hcommitted, execute_complete_running hs hrow hstate,
        final_nil, ledgerOf_completion hrow hstate, Function.update_self]
    have hs' : Sound S (S.after (events ++ [⟨.complete operationId manifest, fate⟩])) :=
      sound_after _
    -- the completed row is there, and no later transaction changes it
    obtain ⟨done, hdone, hname, hsame⟩ := exists_row (by rw [hattempt]; simp)
    have hcolumns := hs'.row_of_complete hdone (hsame.trans hattempt)
    obtain ⟨kept, hkept, hkeptName, hkeptBinding, hkeptColumns⟩ := row_later hdone later
    rw [List.append_assoc] at hkept
    have hrows : Sound S rows := sound_after _
    have hreplay : kept.toAttemptRow =
        ⟨operationId, row.bindingDigest, .complete, some manifest⟩ := by
      rcases hkeptColumns with hkeptRow | hfinished
      · rw [hkeptRow, hcolumns, hname]
      · rw [hcolumns] at hfinished
        cases hfinished.1
    have hfound : lookup operationId rows = some kept := by
      rw [← hname, ← hkeptName]
      exact hrows.lookup_eq hkept
    rw [execute_reserve_held hrows hfound, hreplay]
    simp
  otherBinding := by
    intro row hrow bindingDigest hother
    have hs : Sound S (S.after events) := sound_after events
    rw [execute_reserve_held hs (hs.lookup_eq hrow), if_pos hother.symm]
  notRunning := by
    intro operationId hidle manifest
    have hs : Sound S (S.after events) := sound_after events
    apply execute_complete_rejected hs
    intro row hrow
    obtain ⟨hmem, hoperation⟩ := lookup_mem hrow
    exact hidle row hmem hoperation

end AttemptStore

end ContractCapsule.Twin
