import ContractCapsule.Store.Models

/-!
# Activation Approvals

`validate/approvals.py`: the approval an authority issues, the payloads that are
digested around it, and the verifier. A verifier holds the name of the one
issuer it trusts and that issuer's key; `envelope` is the HMAC under this key of
everything an approval says. Verifying consumes nothing, so one approval can be
shown any number of times.
-/

namespace ContractCapsule.Store

open Library

variable {δ : Type}

/-! ## Section 1: Approvals -/

/-- What an approval is good for. -/
inductive ApprovalDomain where
  | execution
  | activation
deriving DecidableEq, Repr

/-- The fields of an `Approval` under its signature. -/
structure ApprovalBody (δ : Type) where
  issuer : String
  domain : ApprovalDomain
  operationId : String
  subject : δ
  issuedAt : Timestamp
  expiresAt : Timestamp
  synthetic : Bool
  -- `NonEmptyString`
  issuerNonempty : issuer ≠ ""
  operationNonempty : operationId ≠ ""
deriving DecidableEq

structure Approval (δ : Type) extends ApprovalBody δ where
  signature : δ
deriving DecidableEq

/-- An object handed over as an approval: an `Approval`, or something of another type. -/
inductive ApprovalObject (δ : Type) where
  | approval (approval : Approval δ)
  | foreign

/-- The payloads whose canonical JSON is digested, one constructor for each. The three have
different keys or a different `domain`. -/
inductive Digested (δ : Type) where
  /-- `ccs-m5-activation-approval/1.0.0` -/
  | activationSubject (operationId : String) (preparedDigest scopeDigest requestDigest : δ)
      (expectedGeneration : ℕ)
  /-- `ccs-m5-no-approval/1` -/
  | noApproval (preparedDigest : δ)
  /-- `checked.model_dump(mode="json")` -/
  | approval (approval : Approval δ)

/-! ## Section 2: The verifier -/

/-- The one way in which an approval is refused. -/
inductive ApprovalError where
  | approvalRejected
deriving DecidableEq, Repr

/-- `ApprovalVerifier`: the trusted issuer and `_signature` under its key. -/
structure ApprovalVerifier (δ : Type) where
  issuer : String
  envelope : ApprovalBody δ → δ

/-- `_parse_utc(_utc(now))` -/
def currentUtc (now : Datetime) : Except ApprovalError ℕ :=
  match stamp now with
  | .ok current => .ok (parseStamp current)
  | .error _ => .error .approvalRejected

/-- `ApprovalVerifier.verify`. Validating the fields of an `Approval` again changes nothing. -/
def ApprovalVerifier.verify [DecidableEq δ] (verifier : ApprovalVerifier δ)
    (approval : ApprovalObject δ) (domain : ApprovalDomain) (operationId : String) (subject : δ)
    (now : Datetime) : Except ApprovalError (Approval δ) :=
  match approval with
  | .foreign => .error .approvalRejected
  | .approval checked => do
    let current ← currentUtc now
    raiseIf (¬ (checked.issuer = verifier.issuer ∧ checked.domain = domain ∧
      checked.operationId = operationId ∧ checked.subject = subject ∧
      (parseStamp checked.issuedAt ≤ current ∧ current < parseStamp checked.expiresAt) ∧
      checked.signature = verifier.envelope checked.toApprovalBody)) .approvalRejected
    return checked

/-- The approval was in force at a reading of the clock. -/
structure ApprovalBody.InForce (body : ApprovalBody δ) (now : Datetime) : Prop where
  utc : now.utc = true
  issued : parseStamp body.issuedAt ≤ now.micros
  unexpired : now.micros < parseStamp body.expiresAt

/-- The approval carries the name and the signature of the trusted issuer. -/
structure ApprovalVerifier.Trusts (verifier : ApprovalVerifier δ) (approval : Approval δ) :
    Prop where
  issuer : approval.issuer = verifier.issuer
  signature : approval.signature = verifier.envelope approval.toApprovalBody

theorem currentUtc_eq_ok {now : Datetime} {current : ℕ} (h : currentUtc now = .ok current) :
    now.utc = true ∧ current = now.micros := by
  unfold currentUtc at h
  cases hstamp : stamp now with
  | error e => simp [hstamp] at h
  | ok t =>
    rw [hstamp] at h
    obtain ⟨hutc, hparse⟩ := stamp_eq_ok hstamp
    exact ⟨hutc, (Except.ok.inj h).symm.trans hparse⟩

/-- What verifying establishes, all of it at the one reading of the clock. -/
theorem ApprovalVerifier.verify_eq_ok [DecidableEq δ] {verifier : ApprovalVerifier δ}
    {object : ApprovalObject δ} {domain : ApprovalDomain} {operationId : String} {subject : δ}
    {now : Datetime} {checked : Approval δ}
    (h : verifier.verify object domain operationId subject now = .ok checked) :
    object = .approval checked ∧ verifier.Trusts checked ∧ checked.InForce now ∧
      checked.domain = domain ∧ checked.operationId = operationId ∧
      checked.subject = subject := by
  cases object with
  | foreign => cases h
  | approval approval =>
    simp only [verify, Except.bind_eq_ok, raiseIf_eq_ok, not_not, Except.pure_eq_ok] at h
    obtain ⟨current, hcurrent, _, hvalid, heq⟩ := h
    subst heq
    obtain ⟨hutc, hmicros⟩ := currentUtc_eq_ok hcurrent
    subst hmicros
    obtain ⟨hissuer, hdomain, hoperation, hsubject, ⟨hissued, hunexpired⟩, hsignature⟩ := hvalid
    exact ⟨rfl, ⟨hissuer, hsignature⟩, ⟨hutc, hissued, hunexpired⟩, hdomain, hoperation, hsubject⟩

theorem currentUtc_of_utc {now : Datetime} (h : now.utc = true) :
    currentUtc now = .ok now.micros := by
  obtain ⟨t, ht⟩ := stamp_of_utc h
  rw [currentUtc, ht]
  exact congrArg Except.ok (stamp_eq_ok ht).2

/-- A trusted approval that is in force passes for what it says. -/
theorem ApprovalVerifier.verify_of_trusts [DecidableEq δ] {verifier : ApprovalVerifier δ}
    {checked : Approval δ} {now : Datetime} (htrusts : verifier.Trusts checked)
    (hforce : checked.InForce now) :
    verifier.verify (.approval checked) checked.domain checked.operationId checked.subject now =
      .ok checked := by
  simp only [verify, Except.bind_eq_ok, raiseIf_eq_ok, not_not, Except.pure_eq_ok]
  exact ⟨now.micros, currentUtc_of_utc hforce.utc, (), ⟨htrusts.issuer, trivial, trivial, trivial,
    ⟨hforce.issued, hforce.unexpired⟩, htrusts.signature⟩, trivial⟩

end ContractCapsule.Store
