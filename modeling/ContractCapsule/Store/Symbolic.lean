import ContractCapsule.Store.System

/-!
# Symbolic Digests

A keyring whose digests are the terms that were hashed, so that two digests are
equal exactly when the hashed values are. Under it a run of the store can be
evaluated; the sample calls below are the building blocks of the concrete runs
that accompany the general results.
-/

namespace ContractCapsule.Store.Symbolic

open Library

/-- Hashed terms. -/
inductive Hash where
  | text (s : String)
  | nat (n : ℕ)
  | pair (a b : Hash)
deriving DecidableEq

/-! ## Section 1: Terms -/

def tuple : List Hash → Hash
  | [] => .text ""
  | h :: hs => .pair h (tuple hs)

def optional {α : Type} (term : α → Hash) : Option α → Hash
  | none => .text "none"
  | some a => .pair (.text "some") (term a)

def scopeTerm (s : RuntimeScope) : Hash :=
  tuple [.text s.tenant, .text s.principal, .text s.repository, .text s.environment,
    .text s.session]

def bindingTerm (b : ActiveBinding Hash) : Hash :=
  tuple [.text b.capsule.capsuleId, .text b.capsule.version, b.capsule.digest, b.viewDigest,
    b.inputDigest, .nat b.generation]

def timeTerm (t : Timestamp) : Hash := .pair (.nat t.seconds) (tuple (t.fraction.map (.nat ·.val)))

def bytesTerm (bytes : Bytes) : Hash := tuple (bytes.map (.nat ·.toNat))

def riskTerm : Risk → Hash
  | .low => .text "low"
  | .medium => .text "medium"
  | .high => .text "high"
  | .critical => .text "critical"

def flagTerm (b : Bool) : Hash := .nat b.toNat

def preparedTerm (r : PreparedReplacement Hash) : Hash :=
  tuple [.text r.preparedId, r.scopeDigest, .text r.operationId, r.requestDigest,
    bindingTerm r.oldBinding, bindingTerm r.newBinding, r.evidenceDigest, timeTerm r.expiresAt,
    bytesTerm r.payload, riskTerm r.effectiveRisk, flagTerm r.approvalRequired]

def requestTerm : DigestText Hash → Hash
  | .digest d => .pair (.text "digest") d
  | .text s => .pair (.text "text") (.text s)

def stateTerm : ActionState → Hash
  | .idle => .text "IDLE"
  | .running => .text "RUNNING"
  | .uncertain => .text "UNCERTAIN"

def boundaryTerm (t : BoundaryBody Hash) : Hash :=
  tuple [.text t.ticketId, t.scopeDigest, .nat t.expectedGeneration, .nat t.actionEpoch,
    .text t.operationId, timeTerm t.expiresAt]

def eventTerm : AuditEvent Hash → Hash
  | .initializeScope binding => .pair (.text "INITIALIZE") binding
  | .beginAction operationId epoch =>
    tuple [.text "BEGIN_ACTION", .text operationId, .nat epoch]
  | .endAction operationId state => tuple [.text "END_ACTION", .text operationId, stateTerm state]
  | .reconcile operationId evidence => tuple [.text "RECONCILE", .text operationId, evidence]
  | .reserveBoundary ticketId => .pair (.text "RESERVE_BOUNDARY") (.text ticketId)
  | .consumeBoundary ticketId => .pair (.text "CONSUME_BOUNDARY") (.text ticketId)
  | .activate receiptId => .pair (.text "ACTIVATE") (.text receiptId)
  | .rollback receiptId => .pair (.text "ROLLBACK") (.text receiptId)

def activationTerm (r : ActivationBody Hash) : Hash :=
  tuple [.text r.receiptId, r.scopeDigest, .text r.operationId, .text r.preparedId,
    .text r.ticketId, r.requestDigest, bindingTerm r.oldBinding, bindingTerm r.newBinding,
    .nat r.generationBefore, .nat r.generationAfter, r.approvalDigest, flagTerm r.applied,
    flagTerm r.rolledBack]

def rollbackTerm (r : RollbackBody Hash) : Hash :=
  tuple [.text r.receiptId, .text r.sourceReceiptId, r.scopeDigest, .text r.operationId,
    .text r.ticketId, r.requestDigest, bindingTerm r.restoredBinding, .nat r.generationBefore,
    .nat r.generationAfter, flagTerm r.applied]

def signedTerm : Signed Hash → Hash
  | .bootstrap b =>
    tuple [.text "ccs-m5-runtime-bootstrap/1", b.scopeDigest, b.bindingDigest, timeTerm b.issuedAt]
  | .state scopeDigest scopeJcs activeJcs generation actionState actionEpoch current =>
    tuple [.text "ccs-m5-runtime-state/1", scopeDigest, scopeJcs, activeJcs, .nat generation,
      stateTerm actionState, .nat actionEpoch, optional .text current]
  | .action scopeDigest operationId requestDigest actionEpoch state outcomeDigest outcome =>
    tuple [.text "ccs-m5-runtime-action/1", scopeDigest, .text operationId,
      requestTerm requestDigest, .nat actionEpoch, stateTerm state, optional id outcomeDigest,
      optional id outcome]
  | .reconcile b =>
    tuple [.text "ccs-m5-runtime-reconcile/1", b.scopeDigest, .text b.operationId,
      .nat b.actionEpoch, b.terminationDigest, b.evidenceDigest, timeTerm b.issuedAt]
  | .boundary b => .pair (.text "ccs-m5-runtime-boundary/1") (boundaryTerm b)
  | .ticketRow b consumed =>
    tuple [.text "ccs-m5-runtime-ticket-row/1", boundaryTerm b, flagTerm consumed]
  | .prepared preparedId scopeDigest operationId expiresAt digest =>
    tuple [.text "ccs-m5-runtime-prepared/1", .text preparedId, scopeDigest, .text operationId,
      timeTerm expiresAt, digest]
  | .activateReceipt b => tuple [.text "ccs-m5-runtime-receipt/1", .text "ACTIVATE",
      activationTerm b]
  | .rollbackReceipt b => tuple [.text "ccs-m5-runtime-receipt/1", .text "ROLLBACK",
      rollbackTerm b]
  | .audit eventId scopeDigest event =>
    tuple [.text "ccs-m5-runtime-audit/1", .text eventId, scopeDigest, eventTerm event]

/-- Every digest is the term it stands for. -/
def keyring : Keyring Hash where
  scopeDigest := scopeTerm
  bindingDigest := bindingTerm
  preparedDigest := preparedTerm
  digestBytes := bytesTerm
  hmac := signedTerm

theorem tuple_injective : Function.Injective tuple := by
  intro xs
  induction xs with
  | nil =>
    intro ys h
    cases ys with
    | nil => rfl
    | cons y ys => cases h
  | cons x xs ih =>
    intro ys h
    cases ys with
    | nil => cases h
    | cons y ys =>
      obtain ⟨hhead, htail⟩ := Hash.pair.inj h
      rw [hhead, ih htail]

theorem timeTerm_injective : Function.Injective timeTerm := by
  intro t t' h
  obtain ⟨hseconds, hdigits⟩ := Hash.pair.inj h
  have hdigit : Function.Injective (fun d : Fin 10 => Hash.nat d.val) := by
    intro d d' h
    exact Fin.val_injective (Hash.nat.inj h)
  have hfraction := hdigit.list_map (tuple_injective hdigits)
  cases t
  cases t'
  cases Hash.nat.inj hseconds
  cases hfraction
  rfl

theorem bytesTerm_injective : Function.Injective bytesTerm := by
  have hbyte : Function.Injective (fun b : UInt8 => Hash.nat b.toNat) := by
    intro b b' h
    exact UInt8.toNat_inj.mp (Hash.nat.inj h)
  exact tuple_injective.comp hbyte.list_map

theorem bindingTerm_injective : Function.Injective bindingTerm := by
  intro b b' h
  have hfields := tuple_injective h
  obtain ⟨⟨_, _, _⟩, _, _, _⟩ := b
  obtain ⟨⟨_, _, _⟩, _, _, _⟩ := b'
  simpa [and_assoc] using hfields

theorem riskTerm_injective : Function.Injective riskTerm := by
  intro r r' h
  cases r <;> cases r' <;> first | rfl | simp [riskTerm] at h

theorem flagTerm_injective : Function.Injective flagTerm := by
  intro b b' h
  cases b <;> cases b' <;> first | rfl | simp [flagTerm] at h

/-- No two prepared records have one term. -/
theorem preparedTerm_injective : Function.Injective preparedTerm := by
  intro r r' h
  have hfields := tuple_injective h
  simp only [List.cons.injEq, and_true, Hash.text.injEq, bindingTerm_injective.eq_iff,
    timeTerm_injective.eq_iff, bytesTerm_injective.eq_iff, riskTerm_injective.eq_iff,
    flagTerm_injective.eq_iff] at hfields
  cases r
  cases r'
  simpa using hfields

/-! ## Section 2: Sample calls -/

def scopeOf (tenant : String) : RuntimeScope := ⟨tenant, "agent", "repo", "ci", "s1"⟩

/-- The binding of a named capsule at a generation. -/
def bindingOf (name : String) (generation : ℕ) : ActiveBinding Hash :=
  ⟨⟨name, "1.0.0", .text name⟩, .text "view", .text "input", generation⟩

/-- The clock stands at second `n`; the call draws the identifiers `first` and `second`. -/
def ambient (n : ℕ) (first second : String) : Ambient Hash where
  clock _ := ⟨true, n * 1000000⟩
  uuid i := if i = 0 then first else second
  bindingValidator := some fun _ _ _ => true
  terminationValidator := some fun _ _ _ => true

def bootstrapOf (tenant : String) : BootstrapProof Hash :=
  let body : BootstrapBody Hash :=
    ⟨scopeTerm (scopeOf tenant), bindingTerm (bindingOf "base" 0), ⟨0, []⟩⟩
  { toBootstrapBody := body, signature := signedTerm (.bootstrap body) }

def initializeCall (tenant : String) (n : ℕ) (audit : String) : Event Hash :=
  ⟨ambient n audit "", .initializeScope (scopeOf tenant) (bindingOf "base" 0) (bootstrapOf tenant)⟩

def beginCall (tenant operationId : String) (n : ℕ) (audit : String) : Event Hash :=
  ⟨ambient n audit "", .beginAction (scopeOf tenant) operationId (.digest (.text "request"))⟩

def leaseOf (tenant operationId : String) (epoch : ℕ) : ActionLease Hash where
  scopeDigest := scopeTerm (scopeOf tenant)
  operationId := operationId
  requestDigest := .text "request"
  actionEpoch := epoch
  state := .running

def endCall (tenant operationId : String) (epoch n : ℕ) (uncertain : Bool) (audit : String) :
    Event Hash :=
  ⟨ambient n audit "", .endAction (scopeOf tenant) (leaseOf tenant operationId epoch) uncertain []⟩

def ticketOf (tenant operationId ticketId : String) (generation epoch n : ℕ) :
    BoundaryTicket Hash :=
  let body : BoundaryBody Hash :=
    ⟨ticketId, scopeTerm (scopeOf tenant), generation, epoch, operationId,
      ⟨n, microsecondDigits 0⟩⟩
  { toBoundaryBody := body, signature := signedTerm (.boundary body) }

/-- Reserve a ticket that expires thirty seconds later. -/
def reserveCall (tenant operationId ticketId : String) (generation : ℤ) (n : ℕ)
    (audit : String) : Event Hash :=
  ⟨ambient n ticketId audit, .reserveBoundary (scopeOf tenant) operationId generation 30000000⟩

def preparedOf (tenant operationId preparedId : String) (old new : String) (generation : ℕ) :
    PreparedReplacement Hash where
  preparedId := preparedId
  scopeDigest := scopeTerm (scopeOf tenant)
  operationId := operationId
  requestDigest := .text "request"
  oldBinding := bindingOf old generation
  newBinding := bindingOf new (generation + 1)
  evidenceDigest := .text "evidence"
  expiresAt := ⟨1000, []⟩
  payload := []
  generationAdvances := rfl

/-- The receipt of the activation of a record. -/
def activationOf (record : PreparedReplacement Hash) (receiptId ticketId : String) :
    ActivationReceipt Hash :=
  let body : ActivationBody Hash :=
    { receiptId := receiptId
      scopeDigest := record.scopeDigest
      operationId := record.operationId
      preparedId := record.preparedId
      ticketId := ticketId
      requestDigest := record.requestDigest
      oldBinding := record.oldBinding
      newBinding := record.newBinding
      generationBefore := record.oldBinding.generation
      generationAfter := record.newBinding.generation
      approvalDigest := .text "approval"
      generationAdvances := record.generationAdvances
      oldGeneration := rfl
      newGeneration := rfl }
  { toActivationBody := body, signature := signedTerm (.activateReceipt body) }

def saveCall (record : PreparedReplacement Hash) : Event Hash :=
  ⟨ambient 0 "" "", .savePrepared record⟩

def activateCall (tenant preparedId : String) (ticket : BoundaryTicket Hash) (n : ℕ)
    (receipt audit : String) : Event Hash :=
  ⟨ambient n receipt audit, .activatePrepared (scopeOf tenant) preparedId ticket
    (.digest (.text "approval")) (some fun _ _ => true)⟩

def rollbackCall (tenant receiptId : String) (ticket : BoundaryTicket Hash) (n : ℕ)
    (receipt audit : String) : Event Hash :=
  ⟨ambient n receipt audit, .rollbackReceipt (scopeOf tenant) receiptId ticket
    (some fun _ => true)⟩

/-- The row of the scope of tenant `A` at the end of a run. -/
def sampleRow (events : List (Event Hash)) : ScopeRow Hash :=
  (selectScope (runStore keyring events) (scopeTerm (scopeOf "A"))).getD
    ⟨.text "", scopeOf "", bindingOf "" 0, 0, .idle, 0, none, .text "", ⟨0, []⟩⟩

end ContractCapsule.Store.Symbolic
