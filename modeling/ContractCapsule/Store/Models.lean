import ContractCapsule.Library.Transaction

/-!
# Runtime Models

The immutable transport models of the runtime store
(`swap/runtime_models.py`), the clock readings and timestamp strings it compares,
and the digests and signatures it computes.

Digests and signatures are values of an abstract type `δ` of 256-bit strings.
`Keyring δ` holds the functions that produce them: SHA-256 of the canonical JSON
of a scope, a binding, a prepared record or a byte string, and the keyed HMAC of
a payload under its domain. A validated model is stored and signed as its
canonical JSON; reading it back gives the model, so the columns hold the models.
Canonical JSON refuses integers beyond `2 ^ 53 - 1`; that refusal is kept.
-/

namespace ContractCapsule.Store

open Library

/-! ## Section 1: Errors -/

/-- The exceptions that leave the store, with their messages. -/
inductive StoreError where
  | runtimeStoreError (message : String)
  | scopeNotInitialized (message : String)
  | actionInProgress (message : String)
  | uncertainState (message : String)
  | generationMismatch (message : String)
  | replayConflict (message : String)
  /-- `datetime` arithmetic past the year 9999; it is not a `ValueError` and is not normalized. -/
  | overflowError
deriving DecidableEq, Repr

/-- What `_safe_db_call` makes of a `ValueError` or an SQLite error. -/
def unavailable : StoreError := .runtimeStoreError "runtime store unavailable"

/-! ## Section 2: Bytes, digests and time -/

abbrev Bytes := List UInt8

/-- A string argument where a digest is expected: a string of the digest pattern, or some other. -/
inductive DigestText (δ : Type) where
  | digest (d : δ)
  | text (s : String)
deriving DecidableEq, Repr

/-- `str.startswith("sha256:")`. -/
def DigestText.startsWithSha256 {δ : Type} : DigestText δ → Bool
  | .digest _ => true
  | .text s => "sha256:".toList.isPrefixOf s.toList

/-- Validation of a `Digest` field. -/
def DigestText.validate {δ : Type} : DigestText δ → Except StoreError δ
  | .digest d => .ok d
  | .text _ => .error unavailable

/-- A `datetime` reading: whether its offset is UTC, and its microseconds since year 1. -/
structure Datetime where
  utc : Bool
  micros : ℕ
deriving DecidableEq, Repr

/-- Microseconds of the last representable `datetime`, 9999-12-31T23:59:59.999999. -/
def datetimeMax : ℕ := 315537897599999999

/-- An RFC 3339 UTC string: the second it names and the fraction digits as they are written. -/
structure Timestamp where
  seconds : ℕ
  fraction : List (Fin 10)
deriving DecidableEq, Repr

/-- The six fraction digits of a microsecond count. -/
def microsecondDigits (m : ℕ) : List (Fin 10) :=
  [Fin.ofNat 10 (m / 100000), Fin.ofNat 10 (m / 10000), Fin.ofNat 10 (m / 1000),
    Fin.ofNat 10 (m / 100), Fin.ofNat 10 (m / 10), Fin.ofNat 10 m]

/-- `_stamp`: an explicit UTC reading with microseconds. -/
def stamp (value : Datetime) : Except StoreError Timestamp := do
  raiseIf (value.utc = false) (.runtimeStoreError "explicit UTC clock required")
  return ⟨value.micros / 1000000, microsecondDigits (value.micros % 1000000)⟩

/-- `_parse_stamp`: fraction digits beyond the sixth are dropped. -/
def parseStamp (value : Timestamp) : ℕ :=
  value.seconds * 1000000 +
    (value.fraction.getD 0 0).val * 100000 + (value.fraction.getD 1 0).val * 10000 +
    (value.fraction.getD 2 0).val * 1000 + (value.fraction.getD 3 0).val * 100 +
    (value.fraction.getD 4 0).val * 10 + (value.fraction.getD 5 0).val

/-- `_expired`. -/
def expired (now : Datetime) (expiresAt : Timestamp) : Except StoreError Bool := do
  let stamped ← stamp now
  return decide (parseStamp stamped ≥ parseStamp expiresAt)

/-- `datetime + timedelta` for a non-negative delta of microseconds. -/
def Datetime.plus (value : Datetime) (delta : ℕ) : Except StoreError Datetime := do
  raiseIf (datetimeMax < value.micros + delta) .overflowError
  return { value with micros := value.micros + delta }

theorem stamp_eq_ok {value : Datetime} {t : Timestamp} (h : stamp value = .ok t) :
    value.utc = true ∧ parseStamp t = value.micros := by
  simp only [stamp, Except.bind_eq_ok, raiseIf_eq_ok, Except.pure_eq_ok] at h
  obtain ⟨_, hutc, rfl⟩ := h
  refine ⟨by simpa using hutc, ?_⟩
  simp only [parseStamp, microsecondDigits, List.getD_cons_zero, List.getD_cons_succ, Fin.ofNat]
  omega

theorem stamp_of_utc {value : Datetime} (h : value.utc = true) : ∃ t, stamp value = .ok t :=
  ⟨_, by simp [stamp, raiseIf_of_not, h]; rfl⟩

/-- A deadline check that passes was made on a UTC reading before the deadline. -/
theorem expired_eq_ok_false {now : Datetime} {expiresAt : Timestamp}
    (h : expired now expiresAt = .ok false) :
    now.utc = true ∧ now.micros < parseStamp expiresAt := by
  simp only [expired, Except.bind_eq_ok, Except.pure_eq_ok, decide_eq_false_iff_not] at h
  obtain ⟨stamped, hstamp, hlt⟩ := h
  obtain ⟨hutc, hparse⟩ := stamp_eq_ok hstamp
  rw [hparse] at hlt
  exact ⟨hutc, by omega⟩

/-! ## Section 3: Scopes and bindings -/

/-- The complete isolation key for runtime state. -/
structure RuntimeScope where
  tenant : String
  principal : String
  repository : String
  environment : String
  session : String
deriving DecidableEq, Repr

structure CapsuleRef (δ : Type) where
  capsuleId : String
  version : String
  digest : δ
deriving DecidableEq, Repr

/-- A durable binding snapshot; it is not itself activation authority. -/
structure ActiveBinding (δ : Type) where
  capsule : CapsuleRef δ
  viewDigest : δ
  inputDigest : δ
  generation : ℕ
deriving DecidableEq, Repr

/-- `binding.model_copy(update={"generation": n})`. -/
def ActiveBinding.atGeneration {δ : Type} (b : ActiveBinding δ) (n : ℕ) : ActiveBinding δ :=
  { b with generation := n }

inductive ActionState where
  | idle
  | running
  | uncertain
deriving DecidableEq, Repr

/-- The states a lease can carry. -/
inductive LeaseState where
  | running
  | idle
deriving DecidableEq, Repr

structure ActionLease (δ : Type) where
  scopeDigest : δ
  operationId : String
  requestDigest : δ
  actionEpoch : ℕ
  state : LeaseState
  replayed : Bool := false
  outcomeDigest : Option δ := none
  outcome : Option Bytes := none
deriving DecidableEq, Repr

/-! ## Section 4: Signed bodies -/

/-- The signed fields of a `BootstrapProof`. -/
structure BootstrapBody (δ : Type) where
  scopeDigest : δ
  bindingDigest : δ
  issuedAt : Timestamp
deriving DecidableEq, Repr

structure BootstrapProof (δ : Type) extends BootstrapBody δ where
  signature : δ
deriving DecidableEq, Repr

/-- The signed fields of a `ReconciliationProof`. -/
structure ReconciliationBody (δ : Type) where
  scopeDigest : δ
  operationId : String
  actionEpoch : ℕ
  terminationDigest : δ
  evidenceDigest : δ
  issuedAt : Timestamp
deriving DecidableEq, Repr

structure ReconciliationProof (δ : Type) extends ReconciliationBody δ where
  signature : δ
deriving DecidableEq, Repr

/-- The signed fields of a `BoundaryTicket`. -/
structure BoundaryBody (δ : Type) where
  ticketId : String
  scopeDigest : δ
  expectedGeneration : ℕ
  actionEpoch : ℕ
  operationId : String
  expiresAt : Timestamp
deriving DecidableEq, Repr

structure BoundaryTicket (δ : Type) extends BoundaryBody δ where
  signature : δ
deriving DecidableEq, Repr

/-! ## Section 5: Prepared records and receipts -/

inductive Risk where
  | low
  | medium
  | high
  | critical
deriving DecidableEq, Repr

/-- Opaque, authenticated hand-off record. Its validator makes the new binding advance the
generation of the old one by exactly one. -/
structure PreparedReplacement (δ : Type) where
  preparedId : String
  scopeDigest : δ
  operationId : String
  requestDigest : δ
  oldBinding : ActiveBinding δ
  newBinding : ActiveBinding δ
  evidenceDigest : δ
  expiresAt : Timestamp
  payload : Bytes
  effectiveRisk : Risk := .low
  approvalRequired : Bool := false
  generationAdvances : newBinding.generation = oldBinding.generation + 1
deriving DecidableEq

/-- The fields of an `ActivationReceipt` under its signature, with its validators. -/
structure ActivationBody (δ : Type) where
  receiptId : String
  scopeDigest : δ
  operationId : String
  preparedId : String
  ticketId : String
  requestDigest : δ
  oldBinding : ActiveBinding δ
  newBinding : ActiveBinding δ
  generationBefore : ℕ
  generationAfter : ℕ
  approvalDigest : δ
  applied : Bool := true
  rolledBack : Bool := false
  generationAdvances : generationAfter = generationBefore + 1
  oldGeneration : oldBinding.generation = generationBefore
  newGeneration : newBinding.generation = generationAfter
deriving DecidableEq

structure ActivationReceipt (δ : Type) extends ActivationBody δ where
  signature : δ
deriving DecidableEq

/-- The fields of a `RollbackReceipt` under its signature, with its validators. -/
structure RollbackBody (δ : Type) where
  receiptId : String
  sourceReceiptId : String
  scopeDigest : δ
  operationId : String
  ticketId : String
  requestDigest : δ
  restoredBinding : ActiveBinding δ
  generationBefore : ℕ
  generationAfter : ℕ
  applied : Bool := true
  generationAdvances : generationAfter = generationBefore + 1
  restoredGeneration : restoredBinding.generation = generationAfter
deriving DecidableEq

structure RollbackReceipt (δ : Type) extends RollbackBody δ where
  signature : δ
deriving DecidableEq

/-- What an audit row records besides its kind, which the constructor names. -/
inductive AuditEvent (δ : Type) where
  | initializeScope (binding : δ)
  | beginAction (operationId : String) (epoch : ℕ)
  | endAction (operationId : String) (state : ActionState)
  | reconcile (operationId : String) (evidence : δ)
  | reserveBoundary (ticketId : String)
  | consumeBoundary (ticketId : String)
  | activate (receiptId : String)
  | rollback (receiptId : String)
deriving DecidableEq, Repr

/-! ## Section 6: Digests and signatures -/

/-- The largest integer canonical JSON encodes, `2 ^ 53 - 1`. -/
def maxSafeInteger : ℕ := 9007199254740991

/-- The payloads the store signs, one constructor for each signing domain. -/
inductive Signed (δ : Type) where
  /-- `ccs-m5-runtime-bootstrap/1` -/
  | bootstrap (body : BootstrapBody δ)
  /-- `ccs-m5-runtime-state/1` -/
  | state (scopeDigest scopeJcs activeJcs : δ) (generation : ℕ) (actionState : ActionState)
      (actionEpoch : ℕ) (currentOperationId : Option String)
  /-- `ccs-m5-runtime-action/1` -/
  | action (scopeDigest : δ) (operationId : String) (requestDigest : DigestText δ)
      (actionEpoch : ℕ) (state : ActionState) (outcomeDigest outcome : Option δ)
  /-- `ccs-m5-runtime-reconcile/1` -/
  | reconcile (body : ReconciliationBody δ)
  /-- `ccs-m5-runtime-boundary/1` -/
  | boundary (body : BoundaryBody δ)
  /-- `ccs-m5-runtime-ticket-row/1` -/
  | ticketRow (body : BoundaryBody δ) (consumed : Bool)
  /-- `ccs-m5-runtime-prepared/1` -/
  | prepared (preparedId : String) (scopeDigest : δ) (operationId : String)
      (expiresAt : Timestamp) (digest : δ)
  /-- `ccs-m5-runtime-receipt/1`, kind `ACTIVATE` -/
  | activateReceipt (body : ActivationBody δ)
  /-- `ccs-m5-runtime-receipt/1`, kind `ROLLBACK` -/
  | rollbackReceipt (body : RollbackBody δ)
  /-- `ccs-m5-runtime-audit/1` -/
  | audit (eventId : String) (scopeDigest : δ) (event : AuditEvent δ)
deriving DecidableEq

/-- The integers a payload carries; canonical JSON refuses them above `maxSafeInteger`. -/
def Signed.integers {δ : Type} : Signed δ → List ℕ
  | .bootstrap _ => []
  | .state _ _ _ generation _ actionEpoch _ => [generation, actionEpoch]
  | .action _ _ _ actionEpoch _ _ _ => [actionEpoch]
  | .reconcile body => [body.actionEpoch]
  | .boundary body => [body.expectedGeneration, body.actionEpoch]
  | .ticketRow body _ => [body.expectedGeneration, body.actionEpoch]
  | .prepared _ _ _ _ _ => []
  | .activateReceipt body =>
    [body.oldBinding.generation, body.newBinding.generation, body.generationBefore,
      body.generationAfter]
  | .rollbackReceipt body =>
    [body.restoredBinding.generation, body.generationBefore, body.generationAfter]
  | .audit _ _ (.beginAction _ epoch) => [epoch]
  | .audit _ _ _ => []

/-- The digest functions and the keyed signature of one deployment. -/
structure Keyring (δ : Type) where
  /-- `RuntimeScope.digest` -/
  scopeDigest : RuntimeScope → δ
  /-- `ActiveBinding.digest` -/
  bindingDigest : ActiveBinding δ → δ
  /-- `PreparedReplacement.digest` -/
  preparedDigest : PreparedReplacement δ → δ
  /-- `digest_bytes` -/
  digestBytes : Bytes → δ
  /-- `RuntimeStore._sign`: HMAC-SHA256 under the store's key -/
  hmac : Signed δ → δ

variable {δ : Type}

/-- Every integer of the list has a canonical JSON encoding. -/
def exactIntegers (ns : List ℕ) : Bool := ns.all (· ≤ maxSafeInteger)

/-- `_sign`: the canonical encoding of the payload may be refused. -/
def Keyring.sign (K : Keyring δ) (payload : Signed δ) : Except StoreError δ := do
  raiseIf (exactIntegers payload.integers = false) unavailable
  return K.hmac payload

/-- `canonical_json_bytes` of a binding, whose only integer is its generation. -/
def encodeBinding (b : ActiveBinding δ) : Except StoreError (ActiveBinding δ) := do
  raiseIf (exactIntegers [b.generation] = false) unavailable
  return b

/-- `canonical_json_bytes` of a prepared record. -/
def encodePrepared (r : PreparedReplacement δ) : Except StoreError (PreparedReplacement δ) := do
  raiseIf (exactIntegers [r.oldBinding.generation, r.newBinding.generation] = false) unavailable
  return r

theorem Keyring.sign_eq_ok {K : Keyring δ} {payload : Signed δ} {tag : δ} :
    K.sign payload = .ok tag ↔ exactIntegers payload.integers = true ∧ K.hmac payload = tag := by
  simp [Keyring.sign]

theorem encodeBinding_eq_ok {b b' : ActiveBinding δ} :
    encodeBinding b = .ok b' ↔ b.generation ≤ maxSafeInteger ∧ b = b' := by
  simp [encodeBinding, exactIntegers]

theorem encodePrepared_eq_ok {r r' : PreparedReplacement δ} :
    encodePrepared r = .ok r' ↔
      r.oldBinding.generation ≤ maxSafeInteger ∧ r.newBinding.generation ≤ maxSafeInteger ∧
        r = r' := by
  simp [encodePrepared, exactIntegers, and_assoc]

end ContractCapsule.Store
