import ContractCapsule.Store.Approvals
import ContractCapsule.Store.Effects

/-!
# The Swap Controller

`swap/controller.py`. `SwapController.activate` makes three calls on the store:
it looks for a receipt to replay, it reads the prepared record, and it commits.
Policy is checked twice, before the committing transaction and, by the gate that
is handed to the store, inside it. Between the calls anything may happen: any
client may save, activate or roll back, and any time may pass.

A `World` is the database with the clients that are in the middle of an
`activate`; a move is a store call of anybody, or the next call of one client.
`PolicyReading` is what a client observes while it makes that call: the verdicts
of the replacement validator and a reading of the controller's clock.
-/

namespace ContractCapsule.Store

open Library

variable {δ : Type} [DecidableEq δ]

/-! ## Section 1: Policy -/

/-- The configuration of a controller; its validator and its clock are observed. -/
structure SwapController (δ : Type) where
  scope : RuntimeScope
  approvalVerifier : Option (ApprovalVerifier δ)

/-- What the validator answers, for any record, and what the clock shows at one moment. A
validator that raises is a denial; a clock that raises counts as one that is not in UTC. -/
structure PolicyReading (δ : Type) where
  validator : PreparedReplacement δ → Bool
  clock : Datetime

/-- What leaves the controller: an error of its own or of the store, or the `ValueError` of
canonical JSON over a generation that it cannot encode. -/
inductive SwapError where
  | runtimeStoreError (message : String)
  | store (error : StoreError)
  | canonicalization
deriving DecidableEq, Repr

/-- `_check_record` -/
def SwapController.checkRecord (K : Keyring δ) (controller : SwapController δ)
    (policy : PolicyReading δ) (record : PreparedReplacement δ) : Except SwapError Unit := do
  raiseIf (record.scopeDigest ≠ K.scopeDigest controller.scope)
    (.runtimeStoreError "prepared scope rejected")
  raiseIf (policy.validator record = false) (.runtimeStoreError "replacement validation rejected")

/-- `needs_approval` -/
def PreparedReplacement.needsApproval (record : PreparedReplacement δ) : Bool :=
  record.approvalRequired || record.effectiveRisk = .high || record.effectiveRisk = .critical

/-- What an activation approval of the record is issued for. -/
def PreparedReplacement.activationPayload (K : Keyring δ) (record : PreparedReplacement δ) :
    Digested δ :=
  .activationSubject record.operationId (K.preparedDigest record) record.scopeDigest
    record.requestDigest record.oldBinding.generation

/-- `activation_subject` of a record. -/
def activationSubject (K : Keyring δ) (digest : Digested δ → δ)
    (record : PreparedReplacement δ) : Except SwapError δ := do
  raiseIf (maxSafeInteger < record.oldBinding.generation) .canonicalization
  return digest (record.activationPayload K)

/-- `_approval_digest` -/
def SwapController.approvalDigest (K : Keyring δ) (digest : Digested δ → δ)
    (controller : SwapController δ) (policy : PolicyReading δ) (record : PreparedReplacement δ)
    (approval : Option (ApprovalObject δ)) : Except SwapError δ :=
  match approval with
  | none => do
    raiseIf (record.needsApproval = true)
      (.runtimeStoreError "distinct activation approval required")
    return digest (.noApproval (K.preparedDigest record))
  | some object => do
    let verifier ← orRaise controller.approvalVerifier
      (.runtimeStoreError "activation approval authority unavailable")
    match object with
    | .foreign => .error (.runtimeStoreError "activation approval rejected")
    | .approval shown => do
      raiseIf (shown.issuer = controller.scope.principal)
        (.runtimeStoreError "activation approval must be distinct")
      let subject ← activationSubject K digest record
      -- the clock is read here, each time the approval is verified
      match verifier.verify object .activation record.operationId subject policy.clock with
      | .ok checked => return digest (.approval checked)
      | .error _ => .error (.runtimeStoreError "activation approval rejected")

/-- `transaction_gate`, closed over what was checked before the transaction. -/
def SwapController.transactionGate (K : Keyring δ) (digest : Digested δ → δ)
    (controller : SwapController δ) (policy : PolicyReading δ) (record : PreparedReplacement δ)
    (approval : Option (ApprovalObject δ)) (approvalDigest : δ)
    (currentRecord : PreparedReplacement δ) (currentDigest : DigestText δ) : Bool :=
  if K.preparedDigest currentRecord ≠ K.preparedDigest record ∨
      currentDigest ≠ .digest approvalDigest then
    false
  else
    match controller.checkRecord K policy currentRecord with
    | .error _ => false
    | .ok () =>
      match controller.approvalDigest K digest policy currentRecord approval with
      | .error _ => false
      | .ok checked => .digest checked = currentDigest

/-! ## Section 2: Clients and moves -/

/-- One `activate` call with its arguments. -/
structure Activation (δ : Type) where
  controller : SwapController δ
  preparedId : String
  ticket : BoundaryTicket δ
  approval : Option (ApprovalObject δ)

/-- Where a client stands within `activate`. -/
inductive Phase (δ : Type) where
  | idle
  /-- before `find_activation` -/
  | finding (request : Activation δ)
  /-- before `get_prepared` -/
  | reading (request : Activation δ)
  /-- before the policy checks outside the transaction -/
  | checking (request : Activation δ) (record : PreparedReplacement δ)
  /-- before `activate_prepared` -/
  | committing (request : Activation δ) (record : PreparedReplacement δ) (approvalDigest : δ)
  | returned (receipt : ActivationReceipt δ)
  | raised (error : SwapError)

/-- What one client observes while it makes its next call. -/
structure Observation (δ : Type) where
  ambient : Ambient δ
  policy : PolicyReading δ

/-- The policy checks of `activate` in front of the transaction. -/
def Activation.check (K : Keyring δ) (digest : Digested δ → δ) (request : Activation δ)
    (policy : PolicyReading δ) (record : PreparedReplacement δ) : Except SwapError δ := do
  request.controller.checkRecord K policy record
  request.controller.approvalDigest K digest policy record request.approval

/-- The transaction of `activate`. -/
def Activation.commit (K : Keyring δ) (digest : Digested δ → δ) (request : Activation δ)
    (observation : Observation δ) (record : PreparedReplacement δ) (approvalDigest : δ) :
    Sql δ (ActivationReceipt δ) :=
  activatePrepared K observation.ambient request.controller.scope request.preparedId request.ticket
    (.digest approvalDigest)
    (some (request.controller.transactionGate K digest observation.policy record request.approval
      approvalDigest))

/-- The next call of a client, with the phase it leaves the client in. -/
def Phase.proceed (K : Keyring δ) (digest : Digested δ → δ) (observation : Observation δ)
    (db : Db δ) : Phase δ → Phase δ × Db δ
  | .finding request =>
    match findActivation K request.controller.scope request.preparedId db with
    | .ok (some replay) => (.returned replay, db)
    | .ok none => (.reading request, db)
    | .error e => (.raised (.store e), db)
  | .reading request =>
    match loadPreparedDb K (observation.ambient.clock 0) request.controller.scope
      request.preparedId true db with
    | .ok record => (.checking request record, db)
    | .error e => (.raised (.store e), db)
  | .checking request record =>
    match request.check K digest observation.policy record with
    | .ok approvalDigest => (.committing request record approvalDigest, db)
    | .error e => (.raised e, db)
  | .committing request record approvalDigest =>
    match transaction (request.commit K digest observation record approvalDigest) db with
    | (.ok receipt, db') => (.returned receipt, db')
    | (.error e, db') => (.raised (.store e), db')
  | phase => (phase, db)

structure World (δ : Type) where
  db : Db δ
  clients : ℕ → Phase δ

/-- An empty database and no call under way. -/
def World.start : World δ := ⟨Db.empty, fun _ => .idle⟩

/-- One step of the world. -/
inductive Move (δ : Type) where
  /-- a call on the store by anybody -/
  | store (event : Event δ)
  /-- `SwapController.prepare` -/
  | prepare (controller : SwapController δ) (observation : Observation δ)
      (record : PreparedReplacement δ)
  /-- `activate` is called; a client that is in the middle of a call makes no other -/
  | activate (client : ℕ) (request : Activation δ)
  | proceed (client : ℕ) (observation : Observation δ)

/-- What a move does, with the answer when it is a call of its own. -/
def stepWorld (K : Keyring δ) (digest : Digested δ → δ) (world : World δ) :
    Move δ → Option (Except SwapError (Answer δ)) × World δ
  | .store event =>
    let (reply, db) := execute K world.db event
    (some (reply.mapError .store), { world with db := db })
  | .prepare controller observation record =>
    match controller.checkRecord K observation.policy record with
    | .error e => (some (.error e), world)
    | .ok () =>
      let (reply, db) := execute K world.db ⟨observation.ambient, .savePrepared record⟩
      (some (reply.mapError .store), { world with db := db })
  | .activate client request =>
    match world.clients client with
    | .idle | .returned _ | .raised _ =>
      (none, { world with clients := Function.update world.clients client (.finding request) })
    | _ => (none, world)
  | .proceed client observation =>
    let (phase, db) := (world.clients client).proceed K digest observation world.db
    (none, ⟨db, Function.update world.clients client phase⟩)

/-- The world after a run. -/
def runWorld (K : Keyring δ) (digest : Digested δ → δ) (moves : List (Move δ)) : World δ :=
  final (stepWorld K digest) World.start moves

end ContractCapsule.Store
