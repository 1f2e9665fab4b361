import ContractCapsule.Library.Run
import ContractCapsule.Store.Swap

/-!
# The Store as a Machine

Any number of clients call one store. `BEGIN IMMEDIATE` serializes the calls that
write, so a run is a list of calls, each with what it observes of its
surroundings; `execute` answers one call and moves the database.
-/

namespace ContractCapsule.Store

open Library

variable {δ : Type} [DecidableEq δ]

/-- The public operations of `RuntimeStore`, with their arguments. -/
inductive Call (δ : Type) where
  | issueBootstrap (scope : RuntimeScope) (binding : ActiveBinding δ)
  | initializeScope (scope : RuntimeScope) (binding : ActiveBinding δ) (proof : BootstrapProof δ)
  | get (scope : RuntimeScope)
  | beginAction (scope : RuntimeScope) (operationId : String) (requestDigest : DigestText δ)
  | endAction (scope : RuntimeScope) (lease : ActionLease δ) (uncertain : Bool) (outcome : Bytes)
  | issueReconciliation (scope : RuntimeScope) (operationId : String)
      (terminationEvidence : Bytes)
  | reconcile (scope : RuntimeScope) (proof : ReconciliationProof δ)
  | reserveBoundary (scope : RuntimeScope) (operationId : String) (expectedGeneration ttl : ℤ)
  | consumeBoundary (scope : RuntimeScope) (ticket : BoundaryTicket δ)
  | savePrepared (record : PreparedReplacement δ)
  | activatePrepared (scope : RuntimeScope) (preparedId : String) (ticket : BoundaryTicket δ)
      (approvalDigest : DigestText δ)
      (activationValidator : Option (PreparedReplacement δ → DigestText δ → Bool))
  | rollbackReceipt (scope : RuntimeScope) (receiptId : String) (ticket : BoundaryTicket δ)
      (rollbackValidator : Option (ActivationReceipt δ → Bool))
  | getPrepared (scope : RuntimeScope) (preparedId : String) (allowExpired : Bool)
  | getReceipt (scope : RuntimeScope) (receiptId : String)
  | findActivation (scope : RuntimeScope) (preparedId : String)
  | findRollback (scope : RuntimeScope) (sourceReceiptId : String)

/-- What a call returns. -/
inductive Answer (δ : Type) where
  | bootstrapProof (proof : BootstrapProof δ)
  | binding (binding : ActiveBinding δ)
  | state (state : RuntimeState δ)
  | lease (lease : ActionLease δ)
  | reconciliationProof (proof : ReconciliationProof δ)
  | ticket (ticket : BoundaryTicket δ)
  | prepared (record : PreparedReplacement δ)
  | receipt (receipt : ReceiptPayload δ)
  | activation (receipt : Option (ActivationReceipt δ))
  | rollback (receipt : Option (RollbackReceipt δ))
  | done
deriving DecidableEq

/-- The digest of the scope a call is about. -/
def Call.scopeDigest (K : Keyring δ) : Call δ → δ
  | .issueBootstrap scope _ | .initializeScope scope _ _ | .get scope | .beginAction scope _ _
  | .endAction scope _ _ _ | .issueReconciliation scope _ _ | .reconcile scope _
  | .reserveBoundary scope _ _ _ | .consumeBoundary scope _ | .activatePrepared scope _ _ _ _
  | .rollbackReceipt scope _ _ _ | .getPrepared scope _ _ | .getReceipt scope _
  | .findActivation scope _ | .findRollback scope _ => K.scopeDigest scope
  | .savePrepared record => record.scopeDigest

/-- The statements a call issues. -/
def program (K : Keyring δ) (env : Ambient δ) : Call δ → Sql δ (Answer δ)
  | .issueBootstrap scope binding =>
    .bootstrapProof <$> check (issueBootstrap K env scope binding)
  | .initializeScope scope binding proof =>
    .binding <$> initializeScope K env scope binding proof
  | .get scope => .state <$> query fun db => getAcross K scope fun _ => db
  | .beginAction scope operationId requestDigest =>
    .lease <$> beginAction K env scope operationId requestDigest
  | .endAction scope lease uncertain outcome =>
    (fun _ => .done) <$> endAction K env scope lease uncertain outcome
  | .issueReconciliation scope operationId terminationEvidence =>
    .reconciliationProof <$> issueReconciliation K env scope operationId terminationEvidence
  | .reconcile scope proof => (fun _ => .done) <$> reconcile K env scope proof
  | .reserveBoundary scope operationId expectedGeneration ttl =>
    .ticket <$> reserveBoundary K env scope operationId expectedGeneration ttl
  | .consumeBoundary scope ticket => .ticket <$> consumeBoundary K env scope ticket
  | .savePrepared record => (fun _ => .done) <$> savePrepared K record
  | .activatePrepared scope preparedId ticket approvalDigest activationValidator =>
    (fun r => .receipt (.activation r)) <$>
      activatePrepared K env scope preparedId ticket approvalDigest activationValidator
  | .rollbackReceipt scope receiptId ticket rollbackValidator =>
    (fun r => .receipt (.rollback r)) <$>
      rollbackReceipt K env scope receiptId ticket rollbackValidator
  | .getPrepared scope preparedId allowExpired =>
    .prepared <$> query (loadPreparedDb K (env.clock 0) scope preparedId allowExpired)
  | .getReceipt scope receiptId => .receipt <$> query (loadReceiptDb K scope receiptId)
  | .findActivation scope preparedId => .activation <$> query (findActivation K scope preparedId)
  | .findRollback scope sourceReceiptId =>
    .rollback <$> query (findRollback K scope sourceReceiptId)

/-- One call of a run, with what it observes of its surroundings. -/
structure Event (δ : Type) where
  ambient : Ambient δ
  call : Call δ

abbrev Reply (δ : Type) := Except StoreError (Answer δ)

/-- Answer one call: its statements commit together or leave the database as it was. -/
def execute (K : Keyring δ) (db : Db δ) (event : Event δ) : Reply δ × Db δ :=
  transaction (program K event.ambient event.call) db

/-- The database after a run from the empty one. -/
def runStore (K : Keyring δ) (events : List (Event δ)) : Db δ :=
  final (execute K) Db.empty events

/-- The transitions of a run from the empty database. -/
def history (K : Keyring δ) (events : List (Event δ)) :
    List (Transition (Db δ) (Event δ) (Reply δ)) :=
  trace (execute K) Db.empty events

/-- A call that raises leaves every table as it was. -/
theorem execute_error {K : Keyring δ} {db : Db δ} {event : Event δ} {e : StoreError}
    (h : (execute K db event).1 = .error e) : (execute K db event).2 = db :=
  transaction_error _ _ _ h

end ContractCapsule.Store
