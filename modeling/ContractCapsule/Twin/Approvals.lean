import ContractCapsule.Registry.Rows
import ContractCapsule.Store.Approvals
import ContractCapsule.Twin.Coverage

/-!
# Execution Approvals

`ApprovalAuthority` and `ApprovalVerifier.verify_execution` of `validate/approvals.py`. An approval
names an execution by its subject. Verifying does not consume it, so what one approval is good for
is all that its holder can run.

`issued_execution_verified` says that an approval is good for the execution it was issued for, for
nothing else, and only within its interval.
-/

namespace ContractCapsule.Twin

open Library Models
open Registry (withoutSidecars)

variable {F : Type} [FloatText F]

/-! ## Section 1: What the subject of an execution determines -/

/-- Two publications have one status, and capsules that agree but for their sidecars, with numbers
compared by value. -/
structure SamePublication (p q : Publication F) : Prop where
  registryStatus : p.val.registryStatus = q.val.registryStatus
  capsule : (withoutSidecars p.val.capsule).byValue = (withoutSidecars q.val.capsule).byValue

/-- Two executions agree in everything that is approved of one. -/
structure SameExecution (a b : BoundExecution F) : Prop where
  operationId : a.request.operationId = b.request.operationId
  principal : a.request.principal = b.request.principal
  old : SamePublication a.request.old b.request.old
  new : SamePublication a.request.new b.request.new
  task : a.request.task = b.request.task
  source : a.request.sourceRepository = b.request.sourceRepository ∧
    a.request.sourceCommit = b.request.sourceCommit
  budget : a.request.budget = b.request.budget
  rendering : a.request.modelId = b.request.modelId ∧
    a.request.tokenizerProfile = b.request.tokenizerProfile ∧
    a.request.rendererVersion = b.request.rendererVersion
  profile : a.profile.byValue = b.profile.byValue
  artifacts : a.artifacts = b.artifacts

/-- The projection of a capsule determines it but for its sidecars. -/
theorem byValue_of_coreProjection {a b : Capsule (Number F)}
    (h : Same (coreProjection a) (coreProjection b)) :
    (withoutSidecars a).byValue = (withoutSidecars b).byValue := by
  have hnodup : ∀ c : Capsule (Number F),
      ((coreMembers c ++ signatureMembers c.detachedSignature).map Prod.fst).Nodup := by
    intro c
    cases hs : c.detachedSignature <;> simp [coreMembers, signatureMembers]
  have hsigned : (a.detachedSignature.isSome : Bool) = b.detachedSignature.isSome := by
    have hlookup := congrArg Option.isSome
      (lookup_of_same h (hnodup a) (hnodup b) "detached_signature")
    cases ha : a.detachedSignature <;> cases hb : b.detachedSignature <;>
      simp [ha, hb, coreMembers, signatureMembers, List.lookup_cons] at hlookup ⊢
  have hkeys : (coreMembers a ++ signatureMembers a.detachedSignature).map Prod.fst =
      (coreMembers b ++ signatureMembers b.detachedSignature).map Prod.fst := by
    cases ha : a.detachedSignature <;> cases hb : b.detachedSignature <;>
      simp [ha, hb, coreMembers, signatureMembers] at hsigned ⊢
  have hvalues := values_of_same h hkeys (hnodup a)
  -- the wire dictionaries without sidecars have the members of the projections and two more
  have hempty : ∀ c : Capsule (Number F), capsuleWireDict (withoutSidecars c) =
      .object ((coreMembers c ++ signatureMembers c.detachedSignature) ++
        [("derived_artifacts", .object []), ("runtime_sidecar", .object [])]) := fun _ => rfl
  have hwire : Same (capsuleWireDict (withoutSidecars a)) (capsuleWireDict (withoutSidecars b)) := by
    rw [hempty, hempty]
    apply (Json.same_object (by rw [List.map_append, hkeys, ← List.map_append]) ?_).mpr
    · simp only [List.map_append] at hvalues ⊢
      exact List.rel_append hvalues (by simp [Json.Same.refl])
    · cases a.detachedSignature <;> simp [coreMembers, signatureMembers]
  have hread := Transport.byValue.capsule_value (withoutSidecars a)
  rw [show Transport.byValue.value (capsuleWireDict (withoutSidecars a)) =
    Transport.byValue.value (capsuleWireDict (withoutSidecars b)) from hwire,
    Transport.byValue.capsule_value] at hread
  exact (Option.some.inj hread).symm

theorem samePublication_of_projection {p q : Publication F}
    (h : Same (publicationProjection p) (publicationProjection q)) : SamePublication p q := by
  have hvalues := values_of_same h rfl (by simp)
  simp only [List.map_cons, List.map_nil, List.forall₂_cons, List.forall₂_nil_left_iff, and_true,
    Json.same_string] at hvalues
  exact ⟨hvalues.2, byValue_of_coreProjection hvalues.1⟩

theorem faithful_artifact {digestBytes : Bytes → String} (h : Function.Injective digestBytes) :
    Faithful (artifactDump digestBytes : Artifact → Value F) := by
  intro a b hsame
  have hvalues := values_of_same hsame rfl (by simp)
  simp only [List.map_cons, List.map_nil, List.forall₂_cons, List.forall₂_nil_left_iff, and_true,
    Json.same_string, ArtifactKind.text_injective.eq_iff, h.eq_iff] at hvalues
  cases a
  cases b
  simpa using hvalues

/-- **One subject, one execution**: executions with one subject agree in everything that an approval
of them covers. -/
theorem sameExecution_of_subject {digestBytes : Bytes → String}
    (hdigest : Function.Injective digestBytes) {a b : BoundExecution F} {subject : String}
    (ha : executionSubject digestBytes a = some subject)
    (hb : executionSubject digestBytes b = some subject) : SameExecution a b := by
  have hvalues := values_of_same (same_of_identity hdigest ha hb) rfl (by simp)
  simp only [List.map_cons, List.map_nil, List.forall₂_cons, List.forall₂_nil_left_iff, and_true,
    Json.same_string, faithful_task.same_iff, faithful_budget.same_iff,
    (faithful_artifact hdigest).listing.same_iff] at hvalues
  obtain ⟨_, hoperation, hprincipal, hold, hnew, htask, hrepository, hcommit, hbudget, hmodel,
    htokenizer, hrenderer, hprofile, hartifacts⟩ := hvalues
  exact {
    operationId := hoperation
    principal := congrArg Principal.mk hprincipal
    old := samePublication_of_projection hold
    new := samePublication_of_projection hnew
    task := htask
    source := ⟨hrepository, hcommit⟩
    budget := hbudget
    rendering := ⟨hmodel, htokenizer, hrenderer⟩
    profile := profile_of_same hprofile
    artifacts := hartifacts }

/-! ## Section 2: The authority -/

/-- What leaves an authority or its verifier. -/
inductive AuthorityError where
  /-- `ApprovalError`, with its message -/
  | approvalError (message : String)
  /-- the `ValidationError` of an `Approval` -/
  | validationError
  /-- `canonical_json_bytes` refuses the payload of a subject. -/
  | canonicalizationError
deriving DecidableEq, Repr

/-- `ApprovalAuthority`, by the verifier that it hands out. -/
structure ApprovalAuthority where
  verifier : Store.ApprovalVerifier String
  issuerNonempty : verifier.issuer ≠ ""

/-- `_utc` -/
def utc (value : Store.Datetime) : Except AuthorityError Store.Timestamp :=
  match Store.stamp value with
  | .ok text => .ok text
  | .error _ => .error (.approvalError "explicit UTC clock required")

/-- `ApprovalAuthority.issue`, for a subject that is a digest. Texts of `_utc` are in the order of
the times that they name. -/
def ApprovalAuthority.issue (authority : ApprovalAuthority) (domain : Store.ApprovalDomain)
    (operationId subject : String) (issuedAt expiresAt : Store.Datetime) (synthetic : Bool) :
    Except AuthorityError (Store.Approval String) := do
  let start ← utc issuedAt
  let stop ← utc expiresAt
  raiseIf (Store.parseStamp stop ≤ Store.parseStamp start)
    (.approvalError "invalid approval interval")
  if hoperation : operationId = "" then
    .error .validationError
  else
    let unsigned : Store.ApprovalBody String :=
      { issuer := authority.verifier.issuer
        domain := domain
        operationId := operationId
        subject := subject
        issuedAt := start
        expiresAt := stop
        synthetic := synthetic
        issuerNonempty := authority.issuerNonempty
        operationNonempty := hoperation }
    .ok ⟨unsigned, authority.verifier.envelope unsigned⟩

/-- `ApprovalAuthority.issue_execution` -/
def ApprovalAuthority.issueExecution (authority : ApprovalAuthority)
    (digestBytes : Bytes → String) (bound : BoundExecution F)
    (issuedAt expiresAt : Store.Datetime) (synthetic : Bool) :
    Except AuthorityError (Store.Approval String) := do
  let subject ← orRaise (executionSubject digestBytes bound) .canonicalizationError
  authority.issue .execution bound.request.operationId subject issuedAt expiresAt synthetic

/-- `ApprovalVerifier.verify_execution` -/
def verifyExecution (verifier : Store.ApprovalVerifier String) (digestBytes : Bytes → String)
    (approval : Store.ApprovalObject String) (bound : BoundExecution F) (now : Store.Datetime) :
    Except AuthorityError (Store.Approval String) := do
  let subject ← orRaise (executionSubject digestBytes bound) .canonicalizationError
  match verifier.verify approval .execution bound.request.operationId subject now with
  | .ok checked => .ok checked
  | .error _ => .error (.approvalError "approval rejected")

/-! ## Section 3: What an approval is good for -/

theorem utc_eq_ok {value : Store.Datetime} {text : Store.Timestamp} (h : utc value = .ok text) :
    value.utc = true ∧ Store.parseStamp text = value.micros := by
  unfold utc at h
  cases hstamp : Store.stamp value with
  | error e => simp [hstamp] at h
  | ok stamped =>
    rw [hstamp] at h
    obtain rfl := Except.ok.inj h
    exact Store.stamp_eq_ok hstamp

/-- An approval says what it was issued for, under the signature of its authority. -/
structure IssuedFor (authority : ApprovalAuthority) (domain : Store.ApprovalDomain)
    (operationId subject : String) (issuedAt expiresAt : Store.Datetime)
    (approval : Store.Approval String) : Prop where
  trusted : authority.verifier.Trusts approval
  domain : approval.domain = domain
  operationId : approval.operationId = operationId
  subject : approval.subject = subject
  issuedAt : Store.parseStamp approval.issuedAt = issuedAt.micros
  expiresAt : Store.parseStamp approval.expiresAt = expiresAt.micros

theorem ApprovalAuthority.issue_eq_ok {authority : ApprovalAuthority}
    {domain : Store.ApprovalDomain} {operationId subject : String}
    {issuedAt expiresAt : Store.Datetime} {synthetic : Bool} {approval : Store.Approval String}
    (h : authority.issue domain operationId subject issuedAt expiresAt synthetic = .ok approval) :
    IssuedFor authority domain operationId subject issuedAt expiresAt approval := by
  simp only [issue, Except.bind_eq_ok] at h
  obtain ⟨start, hstart, stop, hstop, _, _, h⟩ := h
  by_cases hoperation : operationId = ""
  · rw [dif_pos hoperation] at h
    cases h
  · rw [dif_neg hoperation] at h
    obtain rfl := Except.ok.inj h
    exact ⟨⟨rfl, rfl⟩, rfl, rfl, rfl, (utc_eq_ok hstart).2, (utc_eq_ok hstop).2⟩

theorem utc_of_utc {value : Store.Datetime} (h : value.utc = true) :
    ∃ text, utc value = .ok text ∧ Store.parseStamp text = value.micros := by
  obtain ⟨text, htext⟩ := Store.stamp_of_utc h
  refine ⟨text, by rw [utc, htext], ?_⟩
  exact (Store.stamp_eq_ok htext).2

/-- An authority issues an approval for every interval of time. -/
theorem ApprovalAuthority.exists_issue (authority : ApprovalAuthority)
    (domain : Store.ApprovalDomain) {operationId : String} (subject : String)
    {issuedAt expiresAt : Store.Datetime} (synthetic : Bool) (hoperation : operationId ≠ "")
    (hissued : issuedAt.utc = true) (hexpires : expiresAt.utc = true)
    (hlt : issuedAt.micros < expiresAt.micros) :
    ∃ approval,
      authority.issue domain operationId subject issuedAt expiresAt synthetic = .ok approval := by
  obtain ⟨start, hstart, hstarts⟩ := utc_of_utc hissued
  obtain ⟨stop, hstop, hstops⟩ := utc_of_utc hexpires
  have hinterval : ¬ Store.parseStamp stop ≤ Store.parseStamp start := by
    rw [hstarts, hstops]
    exact Nat.not_le.mpr hlt
  have hraise : raiseIf (Store.parseStamp stop ≤ Store.parseStamp start)
      (AuthorityError.approvalError "invalid approval interval") = .ok () :=
    raiseIf_of_not _ hinterval
  rw [issue, hstart, Except.ok_bind, hstop, Except.ok_bind, hraise, Except.ok_bind,
    dif_neg hoperation]
  exact ⟨_, rfl⟩

/-- Verification accepts a trusted approval in force for its own subject. -/
theorem verifyExecution_eq_ok {verifier : Store.ApprovalVerifier String}
    {digestBytes : Bytes → String} {object : Store.ApprovalObject String}
    {bound : BoundExecution F} {now : Store.Datetime} {checked : Store.Approval String} :
    verifyExecution verifier digestBytes object bound now = .ok checked ↔
      object = .approval checked ∧ verifier.Trusts checked ∧ checked.InForce now ∧
        checked.domain = .execution ∧ checked.operationId = bound.request.operationId ∧
        executionSubject digestBytes bound = some checked.subject := by
  simp only [verifyExecution, Except.bind_eq_ok, orRaise_eq_ok]
  constructor
  -- the verifier compares the domain, the operation and the subject of what it was shown
  · intro h
    obtain ⟨subject, hsubject, h⟩ := h
    cases hverify : verifier.verify object .execution bound.request.operationId subject now with
    | error e => simp [hverify] at h
    | ok approval =>
      rw [hverify] at h
      obtain rfl := Except.ok.inj h
      obtain ⟨hobject, htrusts, hforce, hdomain, hoperation, heq⟩ :=
        Store.ApprovalVerifier.verify_eq_ok hverify
      exact ⟨hobject, htrusts, hforce, hdomain, hoperation, by rw [hsubject, heq]⟩
  · intro h
    obtain ⟨rfl, htrusts, hforce, hdomain, hoperation, hsubject⟩ := h
    refine ⟨checked.subject, hsubject, ?_⟩
    rw [← hdomain, ← hoperation, Store.ApprovalVerifier.verify_of_trusts htrusts hforce]

/-- **An approval is good for one execution**: an approval that an authority issues for an execution
is accepted for it at every time of its interval, and whatever it is accepted for, at whatever time,
is the same execution within the interval. -/
theorem issued_execution_verified {authority : ApprovalAuthority} {digestBytes : Bytes → String}
    (hdigest : Function.Injective digestBytes) {bound : BoundExecution F}
    {issuedAt expiresAt : Store.Datetime} {synthetic : Bool} {approval : Store.Approval String}
    (h : authority.issueExecution digestBytes bound issuedAt expiresAt synthetic = .ok approval) :
    (∀ now : Store.Datetime, now.utc = true → issuedAt.micros ≤ now.micros →
      now.micros < expiresAt.micros →
      verifyExecution authority.verifier digestBytes (.approval approval) bound now =
        .ok approval) ∧
    ∀ (other : BoundExecution F) (now : Store.Datetime) (checked : Store.Approval String),
      verifyExecution authority.verifier digestBytes (.approval approval) other now =
        .ok checked →
      checked = approval ∧ SameExecution bound other ∧ now.utc = true ∧
        issuedAt.micros ≤ now.micros ∧ now.micros < expiresAt.micros := by
  simp only [ApprovalAuthority.issueExecution, Except.bind_eq_ok, orRaise_eq_ok] at h
  obtain ⟨subject, hsubject, hissue⟩ := h
  have hissued := ApprovalAuthority.issue_eq_ok hissue
  constructor
  -- an issued approval has the trust, the interval, the domain and the subject that are verified
  · intro now hutc hstart hstop
    apply verifyExecution_eq_ok.mpr
    refine ⟨rfl, hissued.trusted, ⟨hutc, ?_, ?_⟩, hissued.domain, hissued.operationId, ?_⟩
    · rwa [hissued.issuedAt]
    · rwa [hissued.expiresAt]
    · rw [hissued.subject, hsubject]
  -- what is verified has the subject that was issued, and subjects determine executions
  · intro other now checked hverify
    obtain ⟨hobject, _, hforce, _, _, hother⟩ := verifyExecution_eq_ok.mp hverify
    obtain rfl := Store.ApprovalObject.approval.inj hobject
    rw [hissued.subject] at hother
    refine ⟨rfl, sameExecution_of_subject hdigest hsubject hother, hforce.utc, ?_, ?_⟩
    · rw [← hissued.issuedAt]
      exact hforce.issued
    · rw [← hissued.expiresAt]
      exact hforce.unexpired

/-- An authority whose signature spells out what is signed. -/
def sampleAuthority : ApprovalAuthority where
  verifier := ⟨"issuer", fun body => body.operationId ++ body.subject⟩
  issuerNonempty := by decide

/-- The accepted execution of the sample contract. -/
def sampleExecution : BoundExecution IntegralFloat :=
  ⟨sampleReplacementRequest, sampleProfile, sampleArtifacts⟩

/-- The sample execution has a subject: its payload has exact integers. -/
theorem exists_executionSubject_sample (digestBytes : Bytes → String) : ∃ subject,
    executionSubject digestBytes sampleExecution = some subject := by
  have hold := numbersAll_of_freezable
    (freezable_coreProjection sampleExecution.request.old.property)
  have hnew := numbersAll_of_freezable
    (freezable_coreProjection sampleExecution.request.new.property)
  rw [← Option.isSome_iff_exists, executionSubject, identity, Option.isSome_map,
    canonicalBytes_isSome]
  simp only [executionPayload, publicationProjection, Json.numbersAll, Json.membersAll_eq,
    List.all_cons, List.all_nil, hold, hnew, Bool.true_and]
  rfl

/-- The execution of the sample contract is approved, and runs within the interval. -/
theorem issued_execution_verified_sample :
    ∃ approval, sampleAuthority.issueExecution RecordJournal.sampleJournal.digestBytes
        sampleExecution ⟨true, 10⟩ ⟨true, 20⟩ true = .ok approval ∧
      verifyExecution sampleAuthority.verifier RecordJournal.sampleJournal.digestBytes
        (.approval approval) sampleExecution ⟨true, 15⟩ = .ok approval := by
  obtain ⟨subject, hsubject⟩ :=
    exists_executionSubject_sample RecordJournal.sampleJournal.digestBytes
  have hissue : ∃ approval, sampleAuthority.issueExecution
      RecordJournal.sampleJournal.digestBytes sampleExecution ⟨true, 10⟩ ⟨true, 20⟩ true =
        .ok approval := by
    rw [ApprovalAuthority.issueExecution, hsubject, orRaise, Except.ok_bind]
    exact sampleAuthority.exists_issue .execution subject true (by decide) rfl rfl (by decide)
  obtain ⟨approval, happroval⟩ := hissue
  exact ⟨approval, happroval, (issued_execution_verified RecordJournal.sampleJournal_digest
    happroval).1 ⟨true, 15⟩ rfl (by decide) (by decide)⟩

end ContractCapsule.Twin
