import Mathlib.Data.List.MinMax
import ContractCapsule.Store.Database

/-!
# Authenticated Reads

What the store reads it authenticates: the scope row against its state signature
and against the action table (`_row`), every action row against its own signature,
prepared records, receipts and boundary tickets against theirs.

`_row` issues several `SELECT` statements. Inside a transaction they see one
database. `get` opens no transaction, so each of them sees whatever is committed
when it runs: `rowAcross` reads every statement from its own snapshot, and
`readRow` is `rowAcross` on a constant snapshot.
-/

namespace ContractCapsule.Store

open Library

variable {δ : Type} [DecidableEq δ]

/-! ## Section 1: Row integrity -/

/-- `_state_signature` -/
def stateSignature (K : Keyring δ) (scopeDigest : δ) (scopeJcs : RuntimeScope)
    (activeJcs : ActiveBinding δ) (generation : ℕ) (actionState : ActionState)
    (actionEpoch : ℕ) (currentOperationId : Option String) : Except StoreError δ :=
  K.sign (.state scopeDigest (K.scopeDigest scopeJcs) (K.bindingDigest activeJcs) generation
    actionState actionEpoch currentOperationId)

/-- `_verify_row` -/
def verifyRow (K : Keyring δ) (row : ScopeRow δ) : Except StoreError Unit := do
  raiseIf (K.scopeDigest row.scopeJcs ≠ row.scopeDigest ∨
      row.activeJcs.generation ≠ row.generation ∨
      (row.actionState = .running ∧
        (row.currentOperationId = none ∨ row.currentOperationId = some "")) ∨
      (row.actionState ≠ .running ∧ row.currentOperationId ≠ none))
    (.runtimeStoreError "runtime state rejected")
  let expected ← stateSignature K row.scopeDigest row.scopeJcs row.activeJcs row.generation
    row.actionState row.actionEpoch row.currentOperationId
  raiseIf (row.stateSignature ≠ expected) (.runtimeStoreError "runtime state rejected")

/-- `_action_signature` -/
def actionSignature (K : Keyring δ) (scopeDigest : δ) (operationId : String)
    (requestDigest : DigestText δ) (actionEpoch : ℕ) (state : ActionState)
    (outcomeDigest : Option δ) (outcome : Option Bytes) : Except StoreError δ := do
  match outcome with
  | some bytes =>
    raiseIf (outcomeDigest ≠ some (K.digestBytes bytes))
      (.runtimeStoreError "runtime action integrity unavailable")
  | none =>
    raiseIf (outcomeDigest ≠ none) (.runtimeStoreError "runtime action integrity unavailable")
  K.sign (.action scopeDigest operationId requestDigest actionEpoch state outcomeDigest
    (outcome.map K.digestBytes))

/-- `_verify_action` -/
def verifyAction (K : Keyring δ) (row : ActionRow δ) : Except StoreError Unit := do
  let expected ← actionSignature K row.scopeDigest row.operationId row.requestDigest
    row.actionEpoch row.state row.outcomeDigest row.outcome
  raiseIf (row.actionSignature ≠ expected) (.runtimeStoreError "runtime action rejected")

/-! ## Section 2: The scope row against the action table -/

/-- `SELECT ... WHERE scope_digest=? AND state='RUNNING'` -/
def selectRunning (db : Db δ) (scopeDigest : δ) : List (ActionRow δ) :=
  (selectActions db scopeDigest).filter (fun a => a.state = .running)

/-- `SELECT ... WHERE scope_digest=? ORDER BY action_epoch DESC LIMIT 1` -/
def selectLatest (db : Db δ) (scopeDigest : δ) : Option (ActionRow δ) :=
  (selectActions db scopeDigest).argmax (·.actionEpoch)

/-- The comparison of a row with the running actions of its scope and, when the row is
`RUNNING`, with the action it names. -/
def checkRunning (row : ScopeRow δ) (running : List (ActionRow δ))
    (current : Option (ActionRow δ)) : Except StoreError Unit :=
  if row.actionState = .running then
    raiseIf (running.length ≠ 1 ∨
        current.all (fun a => a.state ≠ .running ∨ a.actionEpoch ≠ row.actionEpoch))
      (.runtimeStoreError "runtime action state rejected")
  else
    raiseIf (running ≠ []) (.runtimeStoreError "runtime action state rejected")

/-- The comparison of a row with the latest action of its scope. -/
def checkLatest (row : ScopeRow δ) (latest : Option (ActionRow δ)) : Except StoreError Unit :=
  raiseIf (latest.any (fun a => a.actionEpoch = row.actionEpoch ∧ a.state ≠ row.actionState))
    (.runtimeStoreError "runtime action state rejected")

/-- `_row`, its `i`-th `SELECT` reading the database `read i`. -/
def rowAcross (K : Keyring δ) (scope : RuntimeScope) (read : ℕ → Db δ) :
    Except StoreError (ScopeRow δ) := do
  let row ← orRaise (selectScope (read 0) (K.scopeDigest scope))
    (.scopeNotInitialized "runtime scope is not initialized")
  verifyRow K row
  checkAll (verifyAction K) (selectActions (read 1) row.scopeDigest)
  checkRunning row (selectRunning (read 2) row.scopeDigest)
    (row.currentOperationId.bind (selectAction (read 3) row.scopeDigest))
  checkLatest row (selectLatest (read 4) row.scopeDigest)
  return row

/-- `_row` inside a transaction. -/
def readRow (K : Keyring δ) (scope : RuntimeScope) (db : Db δ) : Except StoreError (ScopeRow δ) :=
  rowAcross K scope fun _ => db

structure RuntimeState (δ : Type) where
  scope : RuntimeScope
  active : ActiveBinding δ
  actionState : ActionState
  actionEpoch : ℕ
  currentOperationId : Option String
deriving DecidableEq, Repr

/-- The state a scope row records. -/
def ScopeRow.state (row : ScopeRow δ) : RuntimeState δ :=
  ⟨row.scopeJcs, row.activeJcs, row.actionState, row.actionEpoch, row.currentOperationId⟩

/-- `_state` -/
def state (K : Keyring δ) (row : ScopeRow δ) : Except StoreError (RuntimeState δ) := do
  verifyRow K row
  return row.state

/-- `get`, its `i`-th `SELECT` reading the database `read i`. -/
def getAcross (K : Keyring δ) (scope : RuntimeScope) (read : ℕ → Db δ) :
    Except StoreError (RuntimeState δ) := do
  let row ← rowAcross K scope read
  state K row

/-! ## Section 3: Prepared records and receipts -/

/-- The expiry check of a prepared record. -/
def checkPreparedExpiry (now : Datetime) (record : PreparedReplacement δ) :
    Except StoreError Unit := do
  let isExpired ← expired now record.expiresAt
  raiseIf (isExpired = true) (.runtimeStoreError "prepared record expired")

/-- `_load_prepared_db`; `now` is the clock reading of the expiry check. -/
def loadPreparedDb (K : Keyring δ) (now : Datetime) (scope : RuntimeScope) (preparedId : String)
    (allowExpired : Bool) (db : Db δ) : Except StoreError (PreparedReplacement δ) := do
  let scopeDigest := K.scopeDigest scope
  let row ← orRaise (selectPrepared db scopeDigest preparedId)
    (.runtimeStoreError "prepared record unavailable")
  let record := row.payload
  let expected ← K.sign (.prepared row.preparedId row.scopeDigest record.operationId
    record.expiresAt row.digest)
  raiseIf (row.signature ≠ expected) (.runtimeStoreError "prepared record rejected")
  raiseIf (record.preparedId ≠ row.preparedId ∨ record.scopeDigest ≠ row.scopeDigest ∨
    record.scopeDigest ≠ scopeDigest) (.runtimeStoreError "prepared record rejected")
  let serialized ← encodePrepared record
  raiseIf (K.preparedDigest serialized ≠ row.digest)
    (.runtimeStoreError "prepared record rejected")
  bif allowExpired then pure () else checkPreparedExpiry now record
  return record

def ReceiptPayload.kind : ReceiptPayload δ → ReceiptKind
  | .activation _ => .activate
  | .rollback _ => .rollback

def ReceiptPayload.receiptId : ReceiptPayload δ → String
  | .activation r => r.receiptId
  | .rollback r => r.receiptId

def ReceiptPayload.scopeDigest : ReceiptPayload δ → δ
  | .activation r => r.scopeDigest
  | .rollback r => r.scopeDigest

def ReceiptPayload.operationId : ReceiptPayload δ → String
  | .activation r => r.operationId
  | .rollback r => r.operationId

def ReceiptPayload.requestDigest : ReceiptPayload δ → δ
  | .activation r => r.requestDigest
  | .rollback r => r.requestDigest

def ReceiptPayload.ticketId : ReceiptPayload δ → String
  | .activation r => r.ticketId
  | .rollback r => r.ticketId

/-- The generation the receipt establishes. -/
def ReceiptPayload.generationAfter : ReceiptPayload δ → ℕ
  | .activation r => r.generationAfter
  | .rollback r => r.generationAfter

/-- The binding the receipt installs. -/
def ReceiptPayload.installed : ReceiptPayload δ → ActiveBinding δ
  | .activation r => r.newBinding
  | .rollback r => r.restoredBinding

def ReceiptPayload.signature : ReceiptPayload δ → δ
  | .activation r => r.signature
  | .rollback r => r.signature

/-- What `_receipt_signature` signs. -/
def ReceiptPayload.signed : ReceiptPayload δ → Signed δ
  | .activation r => .activateReceipt r.toActivationBody
  | .rollback r => .rollbackReceipt r.toRollbackBody

/-- `_load_receipt_db`; the kind it answers besides the model is the model's own. -/
def loadReceiptDb (K : Keyring δ) (scope : RuntimeScope) (receiptId : String) (db : Db δ) :
    Except StoreError (ReceiptPayload δ) := do
  let row ← orRaise (selectReceipt db (K.scopeDigest scope) receiptId)
    (.runtimeStoreError "receipt unavailable")
  let model := row.payload
  raiseIf (model.kind ≠ row.kind) (.runtimeStoreError "receipt rejected")
  let expected ← K.sign model.signed
  raiseIf (row.signature ≠ expected) (.runtimeStoreError "receipt rejected")
  raiseIf (model.scopeDigest ≠ K.scopeDigest scope ∨ model.receiptId ≠ receiptId ∨
      model.operationId ≠ row.operationId ∨ model.requestDigest ≠ row.requestDigest)
    (.runtimeStoreError "receipt rejected")
  raiseIf (model.signature ≠ expected) (.runtimeStoreError "receipt rejected")
  return model

/-- `_find_activation_replay` -/
def findActivationReplay (K : Keyring δ) (scope : RuntimeScope) (record : PreparedReplacement δ)
    (db : Db δ) : Except StoreError (Option (ActivationReceipt δ)) := do
  match selectReceiptOf db (K.scopeDigest scope) record.operationId .activate with
  | none => return none
  | some existing =>
    match ← loadReceiptDb K scope existing.receiptId db with
    | .rollback _ =>
      .error (.replayConflict "activation operation is bound to another request")
    | .activation receipt =>
      raiseIf (receipt.requestDigest ≠ record.requestDigest)
        (.replayConflict "activation operation is bound to another request")
      raiseIf (receipt.preparedId ≠ record.preparedId)
        (.replayConflict "activation operation is bound to another preparation")
      return some receipt

/-- The first model in a list of receipt rows that `find_activation` or `find_rollback` is
after; every row up to it is authenticated. -/
def findReceipt {ρ : Type} (K : Keyring δ) (scope : RuntimeScope) (db : Db δ)
    (wanted : ReceiptPayload δ → Option ρ) : List (ReceiptRow δ) → Except StoreError (Option ρ)
  | [] => return none
  | row :: rows => do
    let receipt ← loadReceiptDb K scope row.receiptId db
    match wanted receipt with
    | some r => return some r
    | none => findReceipt K scope db wanted rows

/-- `find_activation` -/
def findActivation (K : Keyring δ) (scope : RuntimeScope) (preparedId : String) (db : Db δ) :
    Except StoreError (Option (ActivationReceipt δ)) :=
  findReceipt K scope db
    (fun
      | .activation r => if r.preparedId = preparedId then some r else none
      | .rollback _ => none)
    (selectReceiptsByKind db (K.scopeDigest scope) .activate)

/-- `find_rollback` -/
def findRollback (K : Keyring δ) (scope : RuntimeScope) (sourceReceiptId : String) (db : Db δ) :
    Except StoreError (Option (RollbackReceipt δ)) :=
  findReceipt K scope db
    (fun
      | .activation _ => none
      | .rollback r => if r.sourceReceiptId = sourceReceiptId then some r else none)
    (selectReceiptsByKind db (K.scopeDigest scope) .rollback)

/-! ## Section 4: Boundary tickets -/

/-- `_ticket_signature` -/
def ticketSignature (K : Keyring δ) (ticket : BoundaryBody δ) : Except StoreError δ :=
  K.sign (.boundary ticket)

/-- `_ticket_record_signature` -/
def ticketRecordSignature (K : Keyring δ) (ticket : BoundaryBody δ) (consumed : Bool) :
    Except StoreError δ :=
  K.sign (.ticketRow ticket consumed)

/-- The stored row of a ticket: it is there, unspent, and the very ticket presented. -/
def checkStoredTicket (K : Keyring δ) (ticket : BoundaryTicket δ) (db : Db δ) :
    Except StoreError Unit := do
  let stored ← orRaise (selectTicket db ticket.ticketId)
    (.runtimeStoreError "boundary ticket already consumed")
  raiseIf (stored.consumed = true) (.runtimeStoreError "boundary ticket already consumed")
  raiseIf (stored.scopeDigest ≠ ticket.scopeDigest ∨
      stored.expectedGeneration ≠ ticket.expectedGeneration ∨
      stored.actionEpoch ≠ ticket.actionEpoch ∨ stored.operationId ≠ ticket.operationId ∨
      stored.expiresAt ≠ ticket.expiresAt ∨ stored.signature ≠ ticket.signature)
    (.runtimeStoreError "boundary ticket rejected")
  let record ← ticketRecordSignature K ticket.toBoundaryBody false
  raiseIf (stored.recordSignature ≠ record) (.runtimeStoreError "boundary ticket rejected")

/-- The action the ticket names, complete at the ticket's epoch. -/
def checkTicketAction (ticket : BoundaryTicket δ) (expectedRequestDigest : Option δ)
    (action : Option (ActionRow δ)) : Except StoreError Unit :=
  raiseIf (action.all fun a => a.state ≠ .idle ∨ a.actionEpoch ≠ ticket.actionEpoch ∨
      expectedRequestDigest.any fun d => a.requestDigest ≠ .digest d)
    (.runtimeStoreError "boundary operation is not complete")

/-- `_check_ticket_db` -/
def checkTicketDb (K : Keyring δ) (now : Datetime) (scope : RuntimeScope)
    (ticket : BoundaryTicket δ) (row : ScopeRow δ) (expectedOperationId : Option String)
    (expectedRequestDigest : Option δ) (db : Db δ) : Except StoreError Unit := do
  let scopeDigest := K.scopeDigest scope
  raiseIf (ticket.scopeDigest ≠ scopeDigest ∨
      expectedOperationId.any fun operationId => ticket.operationId ≠ operationId)
    (.runtimeStoreError "boundary ticket rejected")
  let signature ← ticketSignature K ticket.toBoundaryBody
  raiseIf (ticket.signature ≠ signature) (.runtimeStoreError "boundary ticket rejected")
  checkStoredTicket K ticket db
  let isExpired ← expired now ticket.expiresAt
  raiseIf (isExpired = true) (.runtimeStoreError "boundary ticket expired")
  raiseIf (row.actionState ≠ .idle ∨ row.generation ≠ ticket.expectedGeneration ∨
    row.actionEpoch ≠ ticket.actionEpoch) (.runtimeStoreError "boundary ticket is stale")
  checkTicketAction ticket expectedRequestDigest
    (selectAction db scopeDigest ticket.operationId)

/-! ## Section 5: What a passed check says -/

variable {K : Keyring δ} {db : Db δ}

/-- A scope row that `_verify_row` accepts. -/
structure RowVerified (K : Keyring δ) (row : ScopeRow δ) : Prop where
  scope : K.scopeDigest row.scopeJcs = row.scopeDigest
  generation : row.activeJcs.generation = row.generation
  running : row.actionState = .running → ∃ op, row.currentOperationId = some op ∧ op ≠ ""
  settled : row.actionState ≠ .running → row.currentOperationId = none
  signed : stateSignature K row.scopeDigest row.scopeJcs row.activeJcs row.generation
    row.actionState row.actionEpoch row.currentOperationId = .ok row.stateSignature

theorem verifyRow_eq_ok {row : ScopeRow δ} : verifyRow K row = .ok () ↔ RowVerified K row := by
  simp only [verifyRow, Except.bind_eq_ok, raiseIf_eq_ok, not_or, not_not, not_and]
  constructor
  · rintro ⟨_, ⟨hscope, hgen, hrun, hset⟩, expected, hsign, rfl⟩
    refine ⟨hscope, hgen, fun hr => ?_, hset, hsign⟩
    obtain ⟨hnone, hempty⟩ := hrun hr
    obtain ⟨op, hop⟩ := Option.ne_none_iff_exists'.mp hnone
    exact ⟨op, hop, fun h => hempty (h ▸ hop)⟩
  · intro h
    refine ⟨(), ⟨h.scope, h.generation, fun hr => ?_, h.settled⟩, _, h.signed, rfl⟩
    obtain ⟨op, hop, hne⟩ := h.running hr
    simp [hop, hne]

/-- An action row that `_verify_action` accepts. -/
def ActionVerified (K : Keyring δ) (a : ActionRow δ) : Prop :=
  actionSignature K a.scopeDigest a.operationId a.requestDigest a.actionEpoch a.state
    a.outcomeDigest a.outcome = .ok a.actionSignature

theorem verifyAction_eq_ok {a : ActionRow δ} : verifyAction K a = .ok () ↔ ActionVerified K a := by
  simp only [verifyAction, Except.bind_eq_ok, raiseIf_eq_ok, not_not]
  constructor
  · rintro ⟨_, h, heq⟩
    exact h.trans (congrArg _ heq.symm)
  · intro h
    exact ⟨_, h, rfl⟩

omit [DecidableEq δ] in
theorem stateSignature_eq_ok {scopeDigest : δ} {scopeJcs : RuntimeScope}
    {activeJcs : ActiveBinding δ} {generation : ℕ} {actionState : ActionState}
    {actionEpoch : ℕ} {currentOperationId : Option String} {signature : δ} :
    stateSignature K scopeDigest scopeJcs activeJcs generation actionState actionEpoch
        currentOperationId = .ok signature ↔
      (generation ≤ maxSafeInteger ∧ actionEpoch ≤ maxSafeInteger) ∧
        K.hmac (.state scopeDigest (K.scopeDigest scopeJcs) (K.bindingDigest activeJcs)
          generation actionState actionEpoch currentOperationId) = signature := by
  simp [stateSignature, Keyring.sign_eq_ok, Signed.integers, exactIntegers]

theorem selectScope_eq_some {scopeDigest : δ} {row : ScopeRow δ}
    (h : selectScope db scopeDigest = some row) :
    row ∈ db.scopes ∧ row.scopeDigest = scopeDigest :=
  ⟨List.mem_of_find?_eq_some h, by simpa using List.find?_some h⟩

theorem selectAction_eq_some {scopeDigest : δ} {operationId : String} {a : ActionRow δ}
    (h : selectAction db scopeDigest operationId = some a) :
    a ∈ db.actions ∧ a.scopeDigest = scopeDigest ∧ a.operationId = operationId :=
  ⟨List.mem_of_find?_eq_some h, by simpa using List.find?_some h⟩

/-- A row that passed `_row` is the stored row of its scope, and verified. -/
theorem readRow_eq_ok {scope : RuntimeScope} {row : ScopeRow δ}
    (h : readRow K scope db = .ok row) :
    selectScope db (K.scopeDigest scope) = some row ∧ RowVerified K row := by
  simp only [readRow, rowAcross, Except.bind_eq_ok, orRaise_eq_ok, Except.pure_eq_ok] at h
  obtain ⟨_, hsel, _, hver, _, _, _, _, _, _, rfl⟩ := h
  exact ⟨hsel, verifyRow_eq_ok.mp hver⟩

/-- A prepared row that `_load_prepared_db` accepts. -/
structure PreparedRow.Authentic (K : Keyring δ) (p : PreparedRow δ) : Prop where
  signed : K.hmac (.prepared p.preparedId p.scopeDigest p.payload.operationId
    p.payload.expiresAt p.digest) = p.signature
  preparedId : p.payload.preparedId = p.preparedId
  scopeDigest : p.payload.scopeDigest = p.scopeDigest
  exact : p.payload.oldBinding.generation ≤ maxSafeInteger ∧
    p.payload.newBinding.generation ≤ maxSafeInteger
  digest : K.preparedDigest p.payload = p.digest

theorem selectPrepared_eq_some {scopeDigest : δ} {preparedId : String} {p : PreparedRow δ}
    (h : selectPrepared db scopeDigest preparedId = some p) :
    p ∈ db.prepared ∧ p.scopeDigest = scopeDigest ∧ p.preparedId = preparedId :=
  ⟨List.mem_of_find?_eq_some h, by simpa using List.find?_some h⟩

theorem loadPreparedDb_eq_ok {now : Datetime} {scope : RuntimeScope} {preparedId : String}
    {record : PreparedReplacement δ} :
    loadPreparedDb K now scope preparedId true db = .ok record ↔
      ∃ p, selectPrepared db (K.scopeDigest scope) preparedId = some p ∧ p.Authentic K ∧
        p.payload = record := by
  simp only [loadPreparedDb, Except.bind_eq_ok, orRaise_eq_ok, Keyring.sign_eq_ok,
    raiseIf_eq_ok, not_not, not_or, encodePrepared_eq_ok, cond_true, Except.pure_eq_ok]
  constructor
  · rintro ⟨p, hsel, _, ⟨_, rfl⟩, _, hsig, _, ⟨hid, hscope, _⟩, _, ⟨hold, hnew, rfl⟩, _, hdig,
      _, _, rfl⟩
    exact ⟨p, hsel, ⟨hsig.symm, hid, hscope, ⟨hold, hnew⟩, hdig⟩, rfl⟩
  · rintro ⟨p, hsel, hp, rfl⟩
    have hscope : p.payload.scopeDigest = K.scopeDigest scope :=
      hp.scopeDigest.trans (selectPrepared_eq_some hsel).2.1
    exact ⟨p, hsel, _, ⟨by simp [Signed.integers, exactIntegers], rfl⟩, (), hp.signed.symm, (),
      ⟨hp.preparedId, hp.scopeDigest, hscope⟩, _, ⟨hp.exact.1, hp.exact.2, rfl⟩, (), hp.digest,
      (), trivial, rfl⟩

/-- A receipt row that `_load_receipt_db` accepts. -/
structure ReceiptRow.Authentic (K : Keyring δ) (r : ReceiptRow δ) : Prop where
  kind : r.payload.kind = r.kind
  signed : K.sign r.payload.signed = .ok r.signature
  receiptId : r.payload.receiptId = r.receiptId
  scopeDigest : r.payload.scopeDigest = r.scopeDigest
  operationId : r.payload.operationId = r.operationId
  requestDigest : r.payload.requestDigest = r.requestDigest
  signature : r.payload.signature = r.signature

theorem selectReceipt_eq_some {scopeDigest : δ} {receiptId : String} {r : ReceiptRow δ}
    (h : selectReceipt db scopeDigest receiptId = some r) :
    r ∈ db.receipts ∧ r.scopeDigest = scopeDigest ∧ r.receiptId = receiptId :=
  ⟨List.mem_of_find?_eq_some h, by simpa using List.find?_some h⟩

theorem selectReceiptOf_eq_some {scopeDigest : δ} {operationId : String} {kind : ReceiptKind}
    {r : ReceiptRow δ} (h : selectReceiptOf db scopeDigest operationId kind = some r) :
    r ∈ db.receipts ∧ r.scopeDigest = scopeDigest ∧ r.operationId = operationId ∧
      r.kind = kind :=
  ⟨List.mem_of_find?_eq_some h, by simpa using List.find?_some h⟩

theorem loadReceiptDb_eq_ok {scope : RuntimeScope} {receiptId : String}
    {model : ReceiptPayload δ} :
    loadReceiptDb K scope receiptId db = .ok model ↔
      ∃ r, selectReceipt db (K.scopeDigest scope) receiptId = some r ∧ r.Authentic K ∧
        r.payload = model := by
  simp only [loadReceiptDb, Except.bind_eq_ok, orRaise_eq_ok, raiseIf_eq_ok, not_not, not_or,
    Except.pure_eq_ok]
  constructor
  · rintro ⟨r, hsel, _, hkind, _, hsign, _, rfl, _, ⟨hscope, hid, hop, hreq⟩, _, hsig, rfl⟩
    obtain ⟨_, hs, hr⟩ := selectReceipt_eq_some hsel
    exact ⟨r, hsel, ⟨hkind, hsign, hid.trans hr.symm, hscope.trans hs.symm, hop, hreq, hsig⟩,
      rfl⟩
  · rintro ⟨r, hsel, hr, rfl⟩
    obtain ⟨_, hs, hid⟩ := selectReceipt_eq_some hsel
    exact ⟨r, hsel, (), hr.kind, _, hr.signed, (), rfl, (), ⟨hr.scopeDigest.trans hs,
      hr.receiptId.trans hid, hr.operationId, hr.requestDigest⟩, (), hr.signature, rfl⟩

omit [DecidableEq δ] in
theorem selectTicket_eq_some {ticketId : String} {t : TicketRow δ}
    (h : selectTicket db ticketId = some t) : t ∈ db.tickets ∧ t.ticketId = ticketId :=
  ⟨List.mem_of_find?_eq_some h, by simpa using List.find?_some h⟩

/-- A ticket `_check_ticket_db` accepts against a row. -/
structure TicketAccepted (K : Keyring δ) (now : Datetime) (scopeDigest : δ)
    (ticket : BoundaryTicket δ) (row : ScopeRow δ) (expectedOperationId : Option String)
    (expectedRequestDigest : Option δ) (db : Db δ) : Prop where
  scope : ticket.scopeDigest = scopeDigest
  operation : ∀ operationId ∈ expectedOperationId, ticket.operationId = operationId
  signed : K.sign (.boundary ticket.toBoundaryBody) = .ok ticket.signature
  stored : ∃ t, selectTicket db ticket.ticketId = some t ∧ t.consumed = false ∧
    t.toBoundaryBody = ticket.toBoundaryBody ∧ t.signature = ticket.signature ∧
    K.sign (.ticketRow ticket.toBoundaryBody false) = .ok t.recordSignature
  unexpired : expired now ticket.expiresAt = .ok false
  idle : row.actionState = .idle
  generation : row.generation = ticket.expectedGeneration
  epoch : row.actionEpoch = ticket.actionEpoch
  action : ∃ a, selectAction db scopeDigest ticket.operationId = some a ∧ a.state = .idle ∧
    a.actionEpoch = ticket.actionEpoch ∧
    ∀ d ∈ expectedRequestDigest, a.requestDigest = .digest d

theorem checkStoredTicket_eq_ok {ticket : BoundaryTicket δ} :
    checkStoredTicket K ticket db = .ok () ↔
      ∃ t, selectTicket db ticket.ticketId = some t ∧ t.consumed = false ∧
        t.toBoundaryBody = ticket.toBoundaryBody ∧ t.signature = ticket.signature ∧
        K.sign (.ticketRow ticket.toBoundaryBody false) = .ok t.recordSignature := by
  simp only [checkStoredTicket, ticketRecordSignature, Except.bind_eq_ok, orRaise_eq_ok,
    raiseIf_eq_ok, not_not, not_or, Bool.not_eq_true]
  constructor
  · rintro ⟨t, hsel, _, hcon, _, ⟨hs, hg, he, ho, hx, hsig⟩, record, hrec, rfl⟩
    have hid := (selectTicket_eq_some hsel).2
    refine ⟨t, hsel, hcon, ?_, hsig, hrec⟩
    cases hb : t.toBoundaryBody
    cases hb' : ticket.toBoundaryBody
    simp_all
  · rintro ⟨t, hsel, hcon, hbody, hsig, hrec⟩
    exact ⟨t, hsel, (), hcon, (), by simp [hbody, hsig], _, hrec, rfl⟩

theorem checkTicketAction_eq_ok {ticket : BoundaryTicket δ} {expectedRequestDigest : Option δ}
    {action : Option (ActionRow δ)} :
    checkTicketAction ticket expectedRequestDigest action = .ok () ↔
      ∃ a, action = some a ∧ a.state = .idle ∧ a.actionEpoch = ticket.actionEpoch ∧
        ∀ d ∈ expectedRequestDigest, a.requestDigest = .digest d := by
  cases action with
  | none => simp [checkTicketAction]
  | some a =>
    cases expectedRequestDigest <;> simp [checkTicketAction]

theorem checkTicketDb_eq_ok {now : Datetime} {scope : RuntimeScope} {ticket : BoundaryTicket δ}
    {row : ScopeRow δ} {expectedOperationId : Option String} {expectedRequestDigest : Option δ} :
    checkTicketDb K now scope ticket row expectedOperationId expectedRequestDigest db = .ok () ↔
      TicketAccepted K now (K.scopeDigest scope) ticket row expectedOperationId
        expectedRequestDigest db := by
  simp only [checkTicketDb, ticketSignature, Except.bind_eq_ok, raiseIf_eq_ok, not_not, not_or,
    checkTicketAction_eq_ok, Bool.not_eq_true]
  constructor
  · rintro ⟨_, ⟨hscope, hop⟩, _, hsign, _, hsig, _, hstored, isExpired, hexp, _, rfl, _,
      ⟨hidle, hgen, hepoch⟩, haction⟩
    refine ⟨hscope, fun op hmem => ?_, hsig ▸ hsign, checkStoredTicket_eq_ok.mp hstored, hexp,
      hidle, hgen, hepoch, haction⟩
    rw [Option.mem_def.mp hmem] at hop
    simpa using hop
  · intro h
    refine ⟨(), ⟨h.scope, ?_⟩, _, h.signed, (), rfl, (), checkStoredTicket_eq_ok.mpr h.stored,
      false, h.unexpired, (), rfl, (), ⟨h.idle, h.generation, h.epoch⟩, h.action⟩
    cases hop : expectedOperationId with
    | none => rfl
    | some op => simpa using h.operation op hop

end ContractCapsule.Store
