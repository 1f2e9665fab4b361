import ContractCapsule.Store.Reads

/-!
# Scopes and Actions

Initialization of a scope and the life of an action: begin, end, and the
reconciliation of an action whose end is uncertain.

Every operation is a program of statements in the order the source issues them.
`env.clock i` and `env.uuid i` are the `i`-th clock reading and the `i`-th fresh
identifier the call takes.
-/

namespace ContractCapsule.Store

open Library

variable {δ : Type} [DecidableEq δ]

/-! ## Section 1: Initialization -/

/-- `_validate_binding`, the `i`-th time the call asks the authority. -/
def validateBinding (env : Ambient δ) (i : ℕ) (scope : RuntimeScope) (binding : ActiveBinding δ) :
    Except StoreError Unit := do
  let validator ← orRaise env.bindingValidator
    (.runtimeStoreError "validated binding authority is not configured")
  raiseIf (validator i scope binding = false) (.runtimeStoreError "binding validation rejected")

/-- `issue_bootstrap` -/
def issueBootstrap (K : Keyring δ) (env : Ambient δ) (scope : RuntimeScope)
    (binding : ActiveBinding δ) : Except StoreError (BootstrapProof δ) := do
  validateBinding env 0 scope binding
  let issued ← stamp (env.clock 0)
  let encoded ← encodeBinding binding
  let unsigned : BootstrapBody δ := ⟨K.scopeDigest scope, K.bindingDigest encoded, issued⟩
  let signature ← K.sign (.bootstrap unsigned)
  return { toBootstrapBody := unsigned, signature }

/-- `_verify_bootstrap` -/
def verifyBootstrap (K : Keyring δ) (scope : RuntimeScope) (binding : ActiveBinding δ)
    (proof : BootstrapProof δ) : Except StoreError Unit := do
  raiseIf (proof.scopeDigest ≠ K.scopeDigest scope) (.runtimeStoreError "bootstrap proof rejected")
  let encoded ← encodeBinding binding
  raiseIf (proof.bindingDigest ≠ K.bindingDigest encoded)
    (.runtimeStoreError "bootstrap proof rejected")
  let signature ← K.sign (.bootstrap proof.toBootstrapBody)
  raiseIf (proof.signature ≠ signature) (.runtimeStoreError "bootstrap proof rejected")

/-- `initialize` -/
def initializeScope (K : Keyring δ) (env : Ambient δ) (scope : RuntimeScope)
    (binding : ActiveBinding δ) (proof : BootstrapProof δ) : Sql δ (ActiveBinding δ) := do
  check (verifyBootstrap K scope binding proof)
  check (validateBinding env 0 scope binding)
  check (raiseIf (binding.generation ≠ 0)
    (.runtimeStoreError "bootstrap requires generation zero"))
  let scopeDigest := K.scopeDigest scope
  -- the authority is asked again inside the transaction
  check (validateBinding env 1 scope binding)
  let present ← select fun db => (selectScope db scopeDigest).isSome
  check (raiseIf (present = true) (.runtimeStoreError "scope already initialized"))
  let activeJcs ← check (encodeBinding binding)
  let signature ← check (stateSignature K scopeDigest scope activeJcs binding.generation .idle 0
    none)
  let updatedAt ← check (stamp (env.clock 0))
  insertScope ⟨scopeDigest, scope, activeJcs, binding.generation, .idle, 0, none, signature,
    updatedAt⟩
  audit K env 0 1 scopeDigest (.initializeScope (K.bindingDigest binding))
  return binding

/-! ## Section 2: Begin -/

/-- `SET action_state='RUNNING', action_epoch=?, current_operation_id=?, ...` -/
def ScopeRow.begin (epoch : ℕ) (operationId : String) (signature : δ) (updatedAt : Timestamp)
    (row : ScopeRow δ) : ScopeRow δ :=
  { row with
    actionState := .running
    actionEpoch := epoch
    currentOperationId := some operationId
    stateSignature := signature
    updatedAt := updatedAt }

/-- `begin_action` of an operation id that is already there: a replay, or a refusal. -/
def replayAction (K : Keyring δ) (scopeDigest : δ) (row : ScopeRow δ) (existing : ActionRow δ)
    (operationId : String) (requestDigest : DigestText δ) : Except StoreError (ActionLease δ) := do
  raiseIf (existing.requestDigest ≠ requestDigest)
    (.replayConflict "operation id is bound to another request")
  raiseIf (existing.state = .running) (.actionInProgress "action already running")
  raiseIf (row.actionState ≠ .idle) (.uncertainState "runtime action is uncertain")
  raiseIf (existing.outcome.any fun bytes => existing.outcomeDigest ≠ some (K.digestBytes bytes))
    (.runtimeStoreError "stored action outcome rejected")
  let request ← requestDigest.validate
  return {
    scopeDigest := scopeDigest
    operationId := operationId
    requestDigest := request
    actionEpoch := existing.actionEpoch
    state := .idle
    replayed := true
    outcomeDigest := existing.outcomeDigest
    outcome := existing.outcome }

/-- `begin_action` of a new operation id. The lease validates the request digest, after the rows
are written and before they are committed. -/
def startAction (K : Keyring δ) (env : Ambient δ) (scopeDigest : δ) (row : ScopeRow δ)
    (operationId : String) (requestDigest : DigestText δ) : Sql δ (ActionLease δ) := do
  check (raiseIf (row.actionState = .running) (.actionInProgress "another action is running"))
  check (raiseIf (row.actionState = .uncertain) (.uncertainState "runtime action is uncertain"))
  let epoch := row.actionEpoch + 1
  let stateSig ← check (stateSignature K scopeDigest row.scopeJcs row.activeJcs row.generation
    .running epoch (some operationId))
  let updatedAt ← check (stamp (env.clock 0))
  updateScope scopeDigest (ScopeRow.begin epoch operationId stateSig updatedAt)
  let actionSig ← check (actionSignature K scopeDigest operationId requestDigest epoch .running
    none none)
  insertAction ⟨scopeDigest, operationId, requestDigest, epoch, .running, none, none, actionSig⟩
  audit K env 0 1 scopeDigest (.beginAction operationId epoch)
  let request ← check requestDigest.validate
  return {
    scopeDigest := scopeDigest
    operationId := operationId
    requestDigest := request
    actionEpoch := epoch
    state := .running }

/-- `begin_action` -/
def beginAction (K : Keyring δ) (env : Ambient δ) (scope : RuntimeScope) (operationId : String)
    (requestDigest : DigestText δ) : Sql δ (ActionLease δ) := do
  check (raiseIf (operationId = "") (.runtimeStoreError "action request rejected"))
  let scopeDigest := K.scopeDigest scope
  let row ← query (readRow K scope)
  match ← select fun db => selectAction db scopeDigest operationId with
  | some existing => check (replayAction K scopeDigest row existing operationId requestDigest)
  | none => startAction K env scopeDigest row operationId requestDigest

/-! ## Section 3: End and reconciliation -/

/-- `SET action_state=?, current_operation_id=NULL, ...` -/
def ScopeRow.settle (target : ActionState) (signature : δ) (updatedAt : Timestamp)
    (row : ScopeRow δ) : ScopeRow δ :=
  { row with
    actionState := target
    currentOperationId := none
    stateSignature := signature
    updatedAt := updatedAt }

/-- `SET state=?, outcome_digest=?, outcome=?, action_signature=?` -/
def ActionRow.finish (target : ActionState) (outcomeDigest : δ) (outcome : Bytes)
    (signature : δ) (a : ActionRow δ) : ActionRow δ :=
  { a with
    state := target
    outcomeDigest := some outcomeDigest
    outcome := some outcome
    actionSignature := signature }

/-- `SET state='IDLE', action_signature=?` -/
def ActionRow.clear (signature : δ) (a : ActionRow δ) : ActionRow δ :=
  { a with
    state := .idle
    actionSignature := signature }

/-- `end_action` -/
def endAction (K : Keyring δ) (env : Ambient δ) (scope : RuntimeScope) (lease : ActionLease δ)
    (uncertain : Bool) (outcome : Bytes) : Sql δ Unit := do
  check (raiseIf (lease.scopeDigest ≠ K.scopeDigest scope ∨ lease.state ≠ .running ∨
    lease.replayed = true) (.runtimeStoreError "action lease rejected"))
  let target : ActionState := if uncertain then .uncertain else .idle
  let outcomeDigest := K.digestBytes outcome
  let row ← query (readRow K scope)
  check (raiseIf (row.actionState ≠ .running ∨
    row.currentOperationId ≠ some lease.operationId ∨ row.actionEpoch ≠ lease.actionEpoch)
    (.runtimeStoreError "action lease is not current"))
  let action ← query fun db =>
    orRaise (selectAction db lease.scopeDigest lease.operationId)
      (.runtimeStoreError "action lease is not current")
  check (raiseIf (action.state ≠ .running ∨ action.actionEpoch ≠ lease.actionEpoch ∨
    action.requestDigest ≠ .digest lease.requestDigest)
    (.runtimeStoreError "action lease is not current"))
  let stateSig ← check (stateSignature K lease.scopeDigest row.scopeJcs row.activeJcs
    row.generation target row.actionEpoch none)
  let updatedAt ← check (stamp (env.clock 0))
  updateScope lease.scopeDigest (ScopeRow.settle target stateSig updatedAt)
  let actionSig ← check (actionSignature K lease.scopeDigest lease.operationId
    (.digest lease.requestDigest) lease.actionEpoch target (some outcomeDigest) (some outcome))
  updateAction lease.scopeDigest lease.operationId
    (ActionRow.finish target outcomeDigest outcome actionSig)
  audit K env 0 1 lease.scopeDigest (.endAction lease.operationId target)

/-- The action that `issue_reconciliation` and `reconcile` are about. -/
def selectUncertain (db : Db δ) (row : ScopeRow δ) (scopeDigest : δ) (operationId : String) :
    Except StoreError (ActionRow δ) := do
  raiseIf (row.actionState ≠ .uncertain) (.runtimeStoreError "reconciliation is not required")
  let action ← orRaise (selectAction db scopeDigest operationId)
    (.runtimeStoreError "reconciliation is not required")
  raiseIf (action.state ≠ .uncertain) (.runtimeStoreError "reconciliation is not required")
  return action

/-- `issue_reconciliation` -/
def issueReconciliation (K : Keyring δ) (env : Ambient δ) (scope : RuntimeScope)
    (operationId : String) (terminationEvidence : Bytes) : Sql δ (ReconciliationProof δ) := do
  check (raiseIf (operationId = "") (.runtimeStoreError "reconciliation evidence rejected"))
  let validator ← check (orRaise env.terminationValidator
    (.runtimeStoreError "termination authority is not configured"))
  check (raiseIf (validator scope operationId terminationEvidence = false)
    (.runtimeStoreError "termination evidence rejected"))
  let scopeDigest := K.scopeDigest scope
  let row ← query (readRow K scope)
  let action ← query fun db => selectUncertain db row scopeDigest operationId
  let issued ← check (stamp (env.clock 0))
  let evidence := K.digestBytes terminationEvidence
  let unsigned : ReconciliationBody δ :=
    ⟨scopeDigest, operationId, action.actionEpoch, evidence, evidence, issued⟩
  let signature ← check (K.sign (.reconcile unsigned))
  return { toReconciliationBody := unsigned, signature }

/-- `reconcile` -/
def reconcile (K : Keyring δ) (env : Ambient δ) (scope : RuntimeScope)
    (proof : ReconciliationProof δ) : Sql δ Unit := do
  check (raiseIf (proof.scopeDigest ≠ K.scopeDigest scope)
    (.runtimeStoreError "reconciliation evidence rejected"))
  let signature ← check (K.sign (.reconcile proof.toReconciliationBody))
  check (raiseIf (proof.signature ≠ signature)
    (.runtimeStoreError "reconciliation evidence rejected"))
  let scopeDigest := K.scopeDigest scope
  let row ← query (readRow K scope)
  let action ← query fun db => selectUncertain db row scopeDigest proof.operationId
  check (raiseIf (action.actionEpoch ≠ proof.actionEpoch)
    (.runtimeStoreError "reconciliation is not required"))
  let stateSig ← check (stateSignature K scopeDigest row.scopeJcs row.activeJcs row.generation
    .idle row.actionEpoch none)
  let updatedAt ← check (stamp (env.clock 0))
  updateScope scopeDigest (ScopeRow.settle .idle stateSig updatedAt)
  let actionSig ← check (actionSignature K scopeDigest proof.operationId action.requestDigest
    action.actionEpoch .idle action.outcomeDigest action.outcome)
  updateAction scopeDigest proof.operationId (ActionRow.clear actionSig)
  audit K env 0 1 scopeDigest (.reconcile proof.operationId proof.evidenceDigest)

end ContractCapsule.Store
