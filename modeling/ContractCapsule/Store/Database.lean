import Mathlib.Data.List.Sort
import ContractCapsule.Library.Table
import ContractCapsule.Store.Models

/-!
# The Runtime Database

The six tables `RuntimeStore._initialize` creates, their rows, and the statements
the store issues against them. A statement that violates a primary key raises
`sqlite3.IntegrityError`, which reaches the caller as `unavailable`. The foreign
keys to the scope table cannot fire: every insert follows a read of that very
scope row in the same transaction.

Every row carries the digest of the scope it belongs to, but only the scope and the
action table have it in their primary key.
-/

namespace ContractCapsule.Store

open Library

variable {δ : Type}

/-! ## Section 1: Rows -/

/-- `m5_runtime_scopes` -/
structure ScopeRow (δ : Type) where
  scopeDigest : δ
  scopeJcs : RuntimeScope
  activeJcs : ActiveBinding δ
  generation : ℕ
  actionState : ActionState
  actionEpoch : ℕ
  currentOperationId : Option String
  stateSignature : δ
  updatedAt : Timestamp
deriving DecidableEq

/-- `m5_runtime_actions` -/
structure ActionRow (δ : Type) where
  scopeDigest : δ
  operationId : String
  requestDigest : DigestText δ
  actionEpoch : ℕ
  state : ActionState
  outcomeDigest : Option δ
  outcome : Option Bytes
  actionSignature : δ
deriving DecidableEq

/-- `m5_runtime_tickets` -/
structure TicketRow (δ : Type) extends BoundaryBody δ where
  signature : δ
  consumed : Bool
  recordSignature : δ
deriving DecidableEq

/-- `m5_runtime_prepared` -/
structure PreparedRow (δ : Type) where
  preparedId : String
  scopeDigest : δ
  operationId : String
  payload : PreparedReplacement δ
  digest : δ
  signature : δ
  expiresAt : Timestamp
deriving DecidableEq

inductive ReceiptKind where
  | activate
  | rollback
deriving DecidableEq, Repr

/-- The two models a receipt payload can be the canonical JSON of. -/
inductive ReceiptPayload (δ : Type) where
  | activation (receipt : ActivationReceipt δ)
  | rollback (receipt : RollbackReceipt δ)
deriving DecidableEq

/-- `m5_runtime_receipts` -/
structure ReceiptRow (δ : Type) where
  receiptId : String
  scopeDigest : δ
  operationId : String
  kind : ReceiptKind
  requestDigest : δ
  payload : ReceiptPayload δ
  signature : δ
  createdAt : Timestamp
deriving DecidableEq

/-- `m5_runtime_audit` -/
structure AuditRow (δ : Type) where
  eventId : String
  scopeDigest : δ
  event : AuditEvent δ
  signature : δ
  createdAt : Timestamp
deriving DecidableEq

structure Db (δ : Type) where
  scopes : List (ScopeRow δ)
  actions : List (ActionRow δ)
  tickets : List (TicketRow δ)
  prepared : List (PreparedRow δ)
  receipts : List (ReceiptRow δ)
  audit : List (AuditRow δ)
deriving DecidableEq

/-- The database `_initialize` creates. -/
def Db.empty : Db δ := ⟨[], [], [], [], [], []⟩

/-- What one call observes of its surroundings: the successive readings of the clock, the
successive fresh identifiers, and the verdicts of the configured authorities. A validator that
raises is a denial, so a verdict is a `Bool`; the binding authority may answer differently each
time it is asked. -/
structure Ambient (δ : Type) where
  clock : ℕ → Datetime
  uuid : ℕ → String
  bindingValidator : Option (ℕ → RuntimeScope → ActiveBinding δ → Bool) := none
  terminationValidator : Option (RuntimeScope → String → Bytes → Bool) := none

abbrev Sql (δ α : Type) := Tx (Db δ) StoreError α

variable [DecidableEq δ]

/-! ## Section 2: Queries -/

/-- `WHERE scope_digest=?` -/
def ScopeRow.isOf (scopeDigest : δ) (r : ScopeRow δ) : Bool := r.scopeDigest = scopeDigest

/-- `WHERE scope_digest=? AND generation=?` -/
def ScopeRow.isAt (scopeDigest : δ) (generation : ℕ) (r : ScopeRow δ) : Bool :=
  r.scopeDigest = scopeDigest ∧ r.generation = generation

/-- `WHERE scope_digest=?` -/
def ActionRow.isOf (scopeDigest : δ) (a : ActionRow δ) : Bool := a.scopeDigest = scopeDigest

/-- `WHERE scope_digest=? AND operation_id=?` -/
def ActionRow.isAt (scopeDigest : δ) (operationId : String) (a : ActionRow δ) : Bool :=
  a.scopeDigest = scopeDigest ∧ a.operationId = operationId

/-- `WHERE ticket_id=? AND consumed=0 AND record_signature=?` -/
def TicketRow.isConsumable (ticketId : String) (recordSignature : δ) (t : TicketRow δ) : Bool :=
  t.ticketId = ticketId ∧ t.consumed = false ∧ t.recordSignature = recordSignature

@[simp] theorem ScopeRow.isOf_iff {scopeDigest : δ} {r : ScopeRow δ} :
    r.isOf scopeDigest = true ↔ r.scopeDigest = scopeDigest := by
  simp [ScopeRow.isOf]

@[simp] theorem ScopeRow.isAt_iff {scopeDigest : δ} {generation : ℕ} {r : ScopeRow δ} :
    r.isAt scopeDigest generation = true ↔
      r.scopeDigest = scopeDigest ∧ r.generation = generation := by
  simp [ScopeRow.isAt]

@[simp] theorem ActionRow.isOf_iff {scopeDigest : δ} {a : ActionRow δ} :
    a.isOf scopeDigest = true ↔ a.scopeDigest = scopeDigest := by
  simp [ActionRow.isOf]

@[simp] theorem ActionRow.isAt_iff {scopeDigest : δ} {operationId : String} {a : ActionRow δ} :
    a.isAt scopeDigest operationId = true ↔
      a.scopeDigest = scopeDigest ∧ a.operationId = operationId := by
  simp [ActionRow.isAt]

@[simp] theorem TicketRow.isConsumable_iff {ticketId : String} {recordSignature : δ}
    {t : TicketRow δ} :
    t.isConsumable ticketId recordSignature = true ↔
      t.ticketId = ticketId ∧ t.consumed = false ∧ t.recordSignature = recordSignature := by
  simp [TicketRow.isConsumable]

def selectScope (db : Db δ) (scopeDigest : δ) : Option (ScopeRow δ) :=
  db.scopes.find? (ScopeRow.isOf scopeDigest)

def selectActions (db : Db δ) (scopeDigest : δ) : List (ActionRow δ) :=
  db.actions.filter (ActionRow.isOf scopeDigest)

def selectAction (db : Db δ) (scopeDigest : δ) (operationId : String) : Option (ActionRow δ) :=
  db.actions.find? (ActionRow.isAt scopeDigest operationId)

def selectTicket (db : Db δ) (ticketId : String) : Option (TicketRow δ) :=
  db.tickets.find? (fun t => t.ticketId = ticketId)

def selectPrepared (db : Db δ) (scopeDigest : δ) (preparedId : String) :
    Option (PreparedRow δ) :=
  db.prepared.find? (fun p => p.scopeDigest = scopeDigest ∧ p.preparedId = preparedId)

def selectReceipt (db : Db δ) (scopeDigest : δ) (receiptId : String) : Option (ReceiptRow δ) :=
  db.receipts.find? (fun r => r.scopeDigest = scopeDigest ∧ r.receiptId = receiptId)

def selectReceiptOf (db : Db δ) (scopeDigest : δ) (operationId : String) (kind : ReceiptKind) :
    Option (ReceiptRow δ) :=
  db.receipts.find?
    (fun r => r.scopeDigest = scopeDigest ∧ r.operationId = operationId ∧ r.kind = kind)

/-- The receipts of a scope of one kind, `ORDER BY created_at`. -/
def selectReceiptsByKind (db : Db δ) (scopeDigest : δ) (kind : ReceiptKind) :
    List (ReceiptRow δ) :=
  (db.receipts.filter (fun r => r.scopeDigest = scopeDigest ∧ r.kind = kind)).insertionSort
    (fun r r' => parseStamp r.createdAt ≤ parseStamp r'.createdAt)

/-! ## Section 3: Inserts and updates -/

/-- `INSERT INTO` one table: the row is added unless its key is in use. -/
def insertInto {ρ κ : Type} [DecidableEq κ] (table : Db δ → List ρ)
    (put : List ρ → Db δ → Db δ) (key : ρ → κ) (conflict : StoreError) (row : ρ) :
    Sql δ Unit := do
  let rows ← query fun db =>
    match insertRow key row (table db) with
    | some rows => .ok rows
    | none => .error conflict
  write (put rows)

def insertScope : ScopeRow δ → Sql δ Unit :=
  insertInto (·.scopes) (fun rows db => { db with scopes := rows }) (·.scopeDigest) unavailable

def insertAction : ActionRow δ → Sql δ Unit :=
  insertInto (·.actions) (fun rows db => { db with actions := rows })
    (fun a => (a.scopeDigest, a.operationId)) unavailable

def insertTicket : TicketRow δ → Sql δ Unit :=
  insertInto (·.tickets) (fun rows db => { db with tickets := rows }) (·.ticketId) unavailable

/-- `save_prepared` normalizes the key conflict itself. -/
def insertPrepared : PreparedRow δ → Sql δ Unit :=
  insertInto (·.prepared) (fun rows db => { db with prepared := rows }) (·.preparedId)
    (.runtimeStoreError "prepared record unavailable")

def insertReceipt : ReceiptRow δ → Sql δ Unit :=
  insertInto (·.receipts) (fun rows db => { db with receipts := rows }) (·.receiptId) unavailable

def insertAudit : AuditRow δ → Sql δ Unit :=
  insertInto (·.audit) (fun rows db => { db with audit := rows }) (·.eventId) unavailable

def updateScope (scopeDigest : δ) (f : ScopeRow δ → ScopeRow δ) : Sql δ Unit :=
  write fun db => { db with scopes := updateRows (ScopeRow.isOf scopeDigest) f db.scopes }

/-- `UPDATE ... WHERE scope_digest=? AND generation=?`, answering its row count. -/
def updateScopeAt (scopeDigest : δ) (generation : ℕ) (f : ScopeRow δ → ScopeRow δ) :
    Sql δ ℕ := do
  let count ← select fun db => db.scopes.countP (ScopeRow.isAt scopeDigest generation)
  write fun db =>
    { db with scopes := updateRows (ScopeRow.isAt scopeDigest generation) f db.scopes }
  return count

def updateAction (scopeDigest : δ) (operationId : String) (f : ActionRow δ → ActionRow δ) :
    Sql δ Unit :=
  write fun db =>
    { db with actions := updateRows (ActionRow.isAt scopeDigest operationId) f db.actions }

/-- `SET consumed=1,record_signature=?` -/
def TicketRow.consume (after : δ) (t : TicketRow δ) : TicketRow δ :=
  { t with consumed := true, recordSignature := after }

/-- `UPDATE m5_runtime_tickets SET consumed=1,record_signature=? ...`, answering its row count. -/
def updateTicketConsumed (ticketId : String) (before after : δ) : Sql δ ℕ := do
  let count ← select fun db => db.tickets.countP (TicketRow.isConsumable ticketId before)
  write fun db => { db with
    tickets := updateRows (TicketRow.isConsumable ticketId before) (TicketRow.consume after)
      db.tickets }
  return count

/-- `_audit`, with the positions of its identifier and its clock reading within the call. -/
def audit (K : Keyring δ) (env : Ambient δ) (u c : ℕ) (scopeDigest : δ) (event : AuditEvent δ) :
    Sql δ Unit := do
  let signature ← check (K.sign (.audit (env.uuid u) scopeDigest event))
  let createdAt ← check (stamp (env.clock c))
  insertAudit ⟨env.uuid u, scopeDigest, event, signature, createdAt⟩

/-! ## Section 4: What a successful statement did -/

variable {db db' : Db δ} {u : Unit}

omit [DecidableEq δ] in
theorem returns_insertInto {ρ κ : Type} [DecidableEq κ] {table : Db δ → List ρ}
    {put : List ρ → Db δ → Db δ} {key : ρ → κ} {conflict : StoreError} {row : ρ} :
    Returns (insertInto table put key conflict row) db u db' ↔
      (∀ r ∈ table db, key r ≠ key row) ∧ db' = put (table db ++ [row]) db := by
  simp only [insertInto, returns_bind, returns_query, returns_write]
  constructor
  · rintro ⟨rows, _, ⟨hrows, rfl⟩, rfl⟩
    cases hins : insertRow key row (table db) with
    | none => simp [hins] at hrows
    | some rows' =>
      rw [hins] at hrows
      obtain ⟨hne, rfl⟩ := insertRow_eq_some.mp hins
      cases hrows
      exact ⟨hne, rfl⟩
  · rintro ⟨hne, rfl⟩
    have hins : insertRow key row (table db) = some (table db ++ [row]) :=
      insertRow_eq_some.mpr ⟨hne, rfl⟩
    exact ⟨_, _, ⟨by rw [hins], rfl⟩, rfl⟩

@[simp] theorem returns_insertScope {row : ScopeRow δ} :
    Returns (insertScope row) db u db' ↔
      (∀ r ∈ db.scopes, r.scopeDigest ≠ row.scopeDigest) ∧
        db' = { db with scopes := db.scopes ++ [row] } :=
  returns_insertInto

@[simp] theorem returns_insertAction {row : ActionRow δ} :
    Returns (insertAction row) db u db' ↔
      (∀ a ∈ db.actions,
        (a.scopeDigest, a.operationId) ≠ (row.scopeDigest, row.operationId)) ∧
        db' = { db with actions := db.actions ++ [row] } :=
  returns_insertInto

omit [DecidableEq δ] in
@[simp] theorem returns_insertTicket {row : TicketRow δ} :
    Returns (insertTicket row) db u db' ↔
      (∀ t ∈ db.tickets, t.ticketId ≠ row.ticketId) ∧
        db' = { db with tickets := db.tickets ++ [row] } :=
  returns_insertInto

omit [DecidableEq δ] in
@[simp] theorem returns_insertPrepared {row : PreparedRow δ} :
    Returns (insertPrepared row) db u db' ↔
      (∀ p ∈ db.prepared, p.preparedId ≠ row.preparedId) ∧
        db' = { db with prepared := db.prepared ++ [row] } :=
  returns_insertInto

omit [DecidableEq δ] in
@[simp] theorem returns_insertReceipt {row : ReceiptRow δ} :
    Returns (insertReceipt row) db u db' ↔
      (∀ r ∈ db.receipts, r.receiptId ≠ row.receiptId) ∧
        db' = { db with receipts := db.receipts ++ [row] } :=
  returns_insertInto

omit [DecidableEq δ] in
@[simp] theorem returns_insertAudit {row : AuditRow δ} :
    Returns (insertAudit row) db u db' ↔
      (∀ r ∈ db.audit, r.eventId ≠ row.eventId) ∧
        db' = { db with audit := db.audit ++ [row] } :=
  returns_insertInto

@[simp] theorem returns_updateScope {scopeDigest : δ} {f : ScopeRow δ → ScopeRow δ} :
    Returns (updateScope scopeDigest f) db u db' ↔
      db' = { db with scopes := updateRows (ScopeRow.isOf scopeDigest) f db.scopes } := by
  rw [updateScope, returns_write, eq_comm]

@[simp] theorem returns_updateAction {scopeDigest : δ} {operationId : String}
    {f : ActionRow δ → ActionRow δ} :
    Returns (updateAction scopeDigest operationId f) db u db' ↔
      db' = { db with
        actions := updateRows (ActionRow.isAt scopeDigest operationId) f db.actions } := by
  rw [updateAction, returns_write, eq_comm]

@[simp] theorem returns_updateScopeAt {scopeDigest : δ} {generation n : ℕ}
    {f : ScopeRow δ → ScopeRow δ} :
    Returns (updateScopeAt scopeDigest generation f) db n db' ↔
      db.scopes.countP (ScopeRow.isAt scopeDigest generation) = n ∧
        db' = { db with
          scopes := updateRows (ScopeRow.isAt scopeDigest generation) f db.scopes } := by
  simp only [updateScopeAt, returns_bind, returns_select, returns_write, returns_pure]
  constructor
  · rintro ⟨_, _, ⟨rfl, rfl⟩, _, _, rfl, rfl, rfl⟩
    exact ⟨rfl, rfl⟩
  · rintro ⟨rfl, rfl⟩
    exact ⟨_, _, ⟨rfl, rfl⟩, (), _, rfl, rfl, rfl⟩

@[simp] theorem returns_updateTicketConsumed {ticketId : String} {before after : δ} {n : ℕ} :
    Returns (updateTicketConsumed ticketId before after) db n db' ↔
      db.tickets.countP (TicketRow.isConsumable ticketId before) = n ∧
        db' = { db with
          tickets := updateRows (TicketRow.isConsumable ticketId before)
            (TicketRow.consume after) db.tickets } := by
  simp only [updateTicketConsumed, returns_bind, returns_select, returns_write, returns_pure]
  constructor
  · rintro ⟨_, _, ⟨rfl, rfl⟩, _, _, rfl, rfl, rfl⟩
    exact ⟨rfl, rfl⟩
  · rintro ⟨rfl, rfl⟩
    exact ⟨_, _, ⟨rfl, rfl⟩, (), _, rfl, rfl, rfl⟩

omit [DecidableEq δ] in
/-- A recorded event extends the audit table by one row and does nothing else. -/
@[simp] theorem returns_audit {K : Keyring δ} {env : Ambient δ} {i c : ℕ} {scopeDigest : δ}
    {event : AuditEvent δ} :
    Returns (audit K env i c scopeDigest event) db u db' ↔
      ∃ signature createdAt,
        K.sign (.audit (env.uuid i) scopeDigest event) = .ok signature ∧
        stamp (env.clock c) = .ok createdAt ∧
        (∀ r ∈ db.audit, r.eventId ≠ env.uuid i) ∧
        db' = { db with
          audit := db.audit ++ [⟨env.uuid i, scopeDigest, event, signature, createdAt⟩] } := by
  simp only [audit, returns_bind, returns_check, returns_insertAudit]
  constructor
  · rintro ⟨signature, _, ⟨hsign, rfl⟩, createdAt, _, ⟨hstamp, rfl⟩, hne, rfl⟩
    exact ⟨signature, createdAt, hsign, hstamp, hne, rfl⟩
  · rintro ⟨signature, createdAt, hsign, hstamp, hne, rfl⟩
    exact ⟨_, _, ⟨hsign, rfl⟩, _, _, ⟨hstamp, rfl⟩, hne, rfl⟩

end ContractCapsule.Store
