import ContractCapsule.Store.Actions

/-!
# Boundaries and Swaps

A boundary ticket is reserved for a completed action; it is spent by
`consume_boundary`, by the activation of a prepared replacement or by the
rollback of an activation. The last two move the active binding of the scope by
compare-and-swap on its generation and store a receipt; `commitReceipt` is the
part of their text that they share.
-/

namespace ContractCapsule.Store

open Library

variable {δ : Type} [DecidableEq δ]

/-! ## Section 1: Boundary tickets -/

/-- The longest lifetime of a ticket, ten minutes in microseconds. -/
def maxTicketLifetime : ℤ := 600000000

/-- `reserve_boundary`; `ttl` is in microseconds. -/
def reserveBoundary (K : Keyring δ) (env : Ambient δ) (scope : RuntimeScope)
    (operationId : String) (expectedGeneration : ℤ) (ttl : ℤ) : Sql δ (BoundaryTicket δ) := do
  check (raiseIf (operationId = "") (.runtimeStoreError "boundary request rejected"))
  check (raiseIf (ttl ≤ 0 ∨ maxTicketLifetime < ttl)
    (.runtimeStoreError "boundary lifetime rejected"))
  let scopeDigest := K.scopeDigest scope
  let row ← query (readRow K scope)
  check (raiseIf (row.actionState = .uncertain)
    (.uncertainState "uncertain action blocks boundary"))
  check (raiseIf (row.actionState ≠ .idle) (.actionInProgress "running action blocks boundary"))
  check (raiseIf (row.generation ≠ expectedGeneration) (.generationMismatch "generation changed"))
  let action ← query fun db => orRaise (selectAction db scopeDigest operationId)
    (.runtimeStoreError "boundary operation is not complete")
  check (raiseIf (action.state ≠ .idle ∨ action.actionEpoch ≠ row.actionEpoch)
    (.runtimeStoreError "boundary operation is not complete"))
  let deadline ← check ((env.clock 0).plus ttl.toNat)
  let expires ← check (stamp deadline)
  let unsigned : BoundaryBody δ :=
    ⟨env.uuid 0, scopeDigest, row.generation, row.actionEpoch, operationId, expires⟩
  let signature ← check (ticketSignature K unsigned)
  let recordSignature ← check (ticketRecordSignature K unsigned false)
  insertTicket { toBoundaryBody := unsigned, signature, consumed := false, recordSignature }
  audit K env 1 1 scopeDigest (.reserveBoundary unsigned.ticketId)
  return { toBoundaryBody := unsigned, signature }

/-- Mark the row of a ticket as spent. -/
def spendTicket (K : Keyring δ) (ticket : BoundaryTicket δ) : Sql δ Unit := do
  let after ← check (ticketRecordSignature K ticket.toBoundaryBody true)
  let before ← check (ticketRecordSignature K ticket.toBoundaryBody false)
  let count ← updateTicketConsumed ticket.ticketId before after
  check (raiseIf (count ≠ 1) (.runtimeStoreError "boundary ticket consumption failed"))

/-- `consume_boundary` -/
def consumeBoundary (K : Keyring δ) (env : Ambient δ) (scope : RuntimeScope)
    (ticket : BoundaryTicket δ) : Sql δ (BoundaryTicket δ) := do
  check (raiseIf (ticket.scopeDigest ≠ K.scopeDigest scope)
    (.runtimeStoreError "boundary ticket rejected"))
  let signature ← check (ticketSignature K ticket.toBoundaryBody)
  check (raiseIf (ticket.signature ≠ signature) (.runtimeStoreError "boundary ticket rejected"))
  let scopeDigest := K.scopeDigest scope
  let row ← query (readRow K scope)
  query (checkTicketDb K (env.clock 0) scope ticket row none none)
  spendTicket K ticket
  audit K env 0 1 scopeDigest (.consumeBoundary ticket.ticketId)
  return ticket

/-! ## Section 2: Receipts -/

/-- `SET active_jcs=?, generation=?, state_signature=?, updated_at=?` -/
def ScopeRow.advance (binding : ActiveBinding δ) (signature : δ) (updatedAt : Timestamp)
    (row : ScopeRow δ) : ScopeRow δ :=
  { row with
    activeJcs := binding
    generation := binding.generation
    stateSignature := signature
    updatedAt := updatedAt }

/-- Move the pointer to what the receipt installs, spend the ticket, store the receipt. The
clock is read at `c`, `c + 1` and `c + 2`. -/
def commitReceipt (K : Keyring δ) (env : Ambient δ) (c : ℕ) (scopeDigest : δ) (row : ScopeRow δ)
    (ticket : BoundaryTicket δ) (receipt : ReceiptPayload δ) (swapFailed : StoreError)
    (event : String → AuditEvent δ) : Sql δ Unit := do
  let installed ← check (encodeBinding receipt.installed)
  let stateSig ← check (stateSignature K scopeDigest row.scopeJcs installed installed.generation
    .idle row.actionEpoch none)
  let updatedAt ← check (stamp (env.clock c))
  let count ← updateScopeAt scopeDigest row.generation
    (ScopeRow.advance installed stateSig updatedAt)
  check (raiseIf (count ≠ 1) swapFailed)
  spendTicket K ticket
  let createdAt ← check (stamp (env.clock (c + 1)))
  insertReceipt ⟨receipt.receiptId, scopeDigest, receipt.operationId, receipt.kind,
    receipt.requestDigest, receipt, receipt.signature, createdAt⟩
  audit K env 1 (c + 2) scopeDigest (event receipt.receiptId)

/-! ## Section 3: Activation -/

/-- `_authorize_activation` -/
def authorizeActivation (record : PreparedReplacement δ) (approvalDigest : DigestText δ)
    (validator : Option (PreparedReplacement δ → DigestText δ → Bool)) :
    Except StoreError Unit := do
  let authorized ← orRaise validator (.runtimeStoreError "activation authority unavailable")
  raiseIf (authorized record approvalDigest = false)
    (.runtimeStoreError "activation authorization rejected")

/-- The validated fields of the receipt of an activation. -/
def activationBody (receiptId : String) (scopeDigest : δ) (row : ScopeRow δ)
    (record : PreparedReplacement δ) (ticketId : String) (approvalDigest : DigestText δ) :
    Except StoreError (ActivationBody δ) := do
  let approval ← approvalDigest.validate
  if h : record.newBinding.generation = row.generation + 1 ∧
      row.activeJcs.generation = row.generation then
    return {
      receiptId := receiptId
      scopeDigest := scopeDigest
      operationId := record.operationId
      preparedId := record.preparedId
      ticketId := ticketId
      requestDigest := record.requestDigest
      oldBinding := row.activeJcs
      newBinding := record.newBinding
      generationBefore := row.generation
      generationAfter := record.newBinding.generation
      approvalDigest := approval
      generationAdvances := h.1
      oldGeneration := h.2
      newGeneration := rfl }
  else
    .error unavailable

/-- `_commit_activation` -/
def commitActivation (K : Keyring δ) (env : Ambient δ) (scopeDigest : δ) (row : ScopeRow δ)
    (record : PreparedReplacement δ) (ticket : BoundaryTicket δ)
    (approvalDigest : DigestText δ) : Sql δ (ActivationReceipt δ) := do
  let unsigned ← check (activationBody (env.uuid 0) scopeDigest row record ticket.ticketId
    approvalDigest)
  let signature ← check (K.sign (.activateReceipt unsigned))
  let receipt : ActivationReceipt δ := { toActivationBody := unsigned, signature }
  commitReceipt K env 2 scopeDigest row ticket (.activation receipt)
    (.runtimeStoreError "activation compare-and-swap failed") .activate
  return receipt

/-- `activate_prepared` of a record that no receipt is bound to yet. -/
def activateFresh (K : Keyring δ) (env : Ambient δ) (scope : RuntimeScope) (row : ScopeRow δ)
    (record : PreparedReplacement δ) (ticket : BoundaryTicket δ) (approvalDigest : DigestText δ)
    (activationValidator : Option (PreparedReplacement δ → DigestText δ → Bool)) :
    Sql δ (ActivationReceipt δ) := do
  check (checkPreparedExpiry (env.clock 0) record)
  check (raiseIf (K.bindingDigest record.oldBinding ≠ K.bindingDigest row.activeJcs)
    (.runtimeStoreError "prepared old binding mismatch"))
  query (checkTicketDb K (env.clock 1) scope ticket row (some record.operationId)
    (some record.requestDigest))
  check (raiseIf (record.newBinding.generation ≠ row.generation + 1)
    (.generationMismatch "prepared generation mismatch"))
  check (authorizeActivation record approvalDigest activationValidator)
  commitActivation K env (K.scopeDigest scope) row record ticket approvalDigest

/-- `activate_prepared` -/
def activatePrepared (K : Keyring δ) (env : Ambient δ) (scope : RuntimeScope)
    (preparedId : String) (ticket : BoundaryTicket δ) (approvalDigest : DigestText δ)
    (activationValidator : Option (PreparedReplacement δ → DigestText δ → Bool)) :
    Sql δ (ActivationReceipt δ) := do
  check (raiseIf (approvalDigest.startsWithSha256 = false)
    (.runtimeStoreError "activation approval rejected"))
  let row ← query (readRow K scope)
  let record ← query (loadPreparedDb K (env.clock 0) scope preparedId true)
  match ← query (findActivationReplay K scope record) with
  | some replay => return replay
  | none => activateFresh K env scope row record ticket approvalDigest activationValidator

/-! ## Section 4: Rollback -/

/-- The authority `rollback_receipt` asks. -/
def authorizeRollback (source : ActivationReceipt δ)
    (validator : Option (ActivationReceipt δ → Bool)) : Except StoreError Unit := do
  let authorized ← orRaise validator (.runtimeStoreError "rollback authority unavailable")
  raiseIf (authorized source = false) (.runtimeStoreError "rollback authorization rejected")

/-- The fields of the receipt of a rollback. -/
def rollbackBody (receiptId : String) (scopeDigest : δ) (row : ScopeRow δ)
    (source : ActivationReceipt δ) (ticketId : String) : RollbackBody δ where
  receiptId := receiptId
  sourceReceiptId := source.receiptId
  scopeDigest := scopeDigest
  operationId := source.operationId
  ticketId := ticketId
  requestDigest := source.requestDigest
  restoredBinding := source.oldBinding.atGeneration (row.generation + 1)
  generationBefore := row.generation
  generationAfter := row.generation + 1
  generationAdvances := rfl
  restoredGeneration := rfl

/-- `rollback_receipt` of an activation that is not rolled back yet. -/
def rollbackFresh (K : Keyring δ) (env : Ambient δ) (scope : RuntimeScope) (row : ScopeRow δ)
    (source : ActivationReceipt δ) (ticket : BoundaryTicket δ)
    (rollbackValidator : Option (ActivationReceipt δ → Bool)) : Sql δ (RollbackReceipt δ) := do
  check (raiseIf (row.generation ≠ source.generationAfter ∨
      K.bindingDigest row.activeJcs ≠ K.bindingDigest source.newBinding)
    (.generationMismatch "rollback generation or binding mismatch"))
  query (checkTicketDb K (env.clock 0) scope ticket row (some source.operationId)
    (some source.requestDigest))
  check (authorizeRollback source rollbackValidator)
  let unsigned := rollbackBody (env.uuid 0) (K.scopeDigest scope) row source ticket.ticketId
  let signature ← check (K.sign (.rollbackReceipt unsigned))
  let receipt : RollbackReceipt δ := { toRollbackBody := unsigned, signature }
  commitReceipt K env 1 (K.scopeDigest scope) row ticket (.rollback receipt)
    (.runtimeStoreError "rollback compare-and-swap failed") .rollback
  return receipt

/-- The rollback already stored for an operation id. -/
def replayRollback (K : Keyring δ) (scope : RuntimeScope) (existing : ReceiptRow δ) (db : Db δ) :
    Except StoreError (RollbackReceipt δ) := do
  match ← loadReceiptDb K scope existing.receiptId db with
  | .activation _ => .error (.runtimeStoreError "rollback receipt rejected")
  | .rollback receipt => return receipt

/-- `rollback_receipt` -/
def rollbackReceipt (K : Keyring δ) (env : Ambient δ) (scope : RuntimeScope) (receiptId : String)
    (ticket : BoundaryTicket δ) (rollbackValidator : Option (ActivationReceipt δ → Bool)) :
    Sql δ (RollbackReceipt δ) := do
  let row ← query (readRow K scope)
  match ← query (loadReceiptDb K scope receiptId) with
  | .rollback _ => check (.error (.runtimeStoreError "rollback receipt rejected"))
  | .activation source =>
    match ← select fun db =>
      selectReceiptOf db (K.scopeDigest scope) source.operationId .rollback with
    | some existing => query (replayRollback K scope existing)
    | none => rollbackFresh K env scope row source ticket rollbackValidator

/-! ## Section 5: Prepared records -/

/-- `save_prepared`. The scope the record names is read back from its row. -/
def savePrepared (K : Keyring δ) (record : PreparedReplacement δ) : Sql δ Unit := do
  let serialized ← check (encodePrepared record)
  let digest := K.preparedDigest serialized
  let signature ← check (K.sign (.prepared record.preparedId record.scopeDigest
    record.operationId record.expiresAt digest))
  let stored ← query fun db => orRaise (selectScope db record.scopeDigest)
    (.scopeNotInitialized "runtime scope is not initialized")
  let _row ← query (readRow K stored.scopeJcs)
  insertPrepared ⟨record.preparedId, record.scopeDigest, record.operationId, serialized, digest,
    signature, record.expiresAt⟩

end ContractCapsule.Store
