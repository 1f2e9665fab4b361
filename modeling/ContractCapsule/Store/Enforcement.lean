import ContractCapsule.Store.Controller
import ContractCapsule.Store.Symbolic

/-!
# Approval at Commit

What stands behind a receipt that a controller committed: the record in the
store was accepted by the validator, and, when it needs an approval, an approval
of the trusted issuer for exactly this record was in force. Both hold at the
observations made inside the committing transaction, so it does not matter what
was saved and how much time passed since the checks in front of it.
-/

namespace ContractCapsule.Store

open Library

variable {δ : Type} [DecidableEq δ] {K : Keyring δ} {digest : Digested δ → δ}

/-! ## Section 1: Policy that passes -/

omit [DecidableEq δ] in
theorem checkRecord_eq_ok [DecidableEq δ] {controller : SwapController δ}
    {policy : PolicyReading δ} {record : PreparedReplacement δ} {u : Unit}
    (h : controller.checkRecord K policy record = .ok u) :
    record.scopeDigest = K.scopeDigest controller.scope ∧ policy.validator record = true := by
  simp only [SwapController.checkRecord, Except.bind_eq_ok, raiseIf_eq_ok, not_not,
    Bool.not_eq_false] at h
  obtain ⟨_, hscope, haccepted⟩ := h
  exact ⟨hscope, haccepted⟩

/-- An approval authorizes the activation of a record under a reading of policy. -/
structure Authorizes (K : Keyring δ) (digest : Digested δ → δ) (controller : SwapController δ)
    (policy : PolicyReading δ) (record : PreparedReplacement δ) (approval : Approval δ) : Prop where
  trusted : ∃ verifier, controller.approvalVerifier = some verifier ∧ verifier.Trusts approval
  inForce : approval.InForce policy.clock
  distinct : approval.issuer ≠ controller.scope.principal
  domain : approval.domain = .activation
  operation : approval.operationId = record.operationId
  subject : approval.subject = digest (record.activationPayload K)

/-- Where the digest of an approval is computed, the approval authorizes the record. -/
theorem approvalDigest_eq_ok {controller : SwapController δ} {policy : PolicyReading δ}
    {record : PreparedReplacement δ} {approval : Option (ApprovalObject δ)} {d : δ}
    (h : controller.approvalDigest K digest policy record approval = .ok d) :
    (record.needsApproval = false ∧ d = digest (.noApproval (K.preparedDigest record))) ∨
      ∃ checked, approval = some (.approval checked) ∧ d = digest (.approval checked) ∧
        Authorizes K digest controller policy record checked := by
  cases approval with
  | none =>
    simp only [SwapController.approvalDigest, Except.bind_eq_ok, raiseIf_eq_ok,
      Bool.not_eq_true, Except.pure_eq_ok] at h
    obtain ⟨_, hneeds, hd⟩ := h
    exact .inl ⟨hneeds, hd.symm⟩
  -- an object that is shown has to be an approval, by the verifier, for the subject of this record
  | some object =>
    simp only [SwapController.approvalDigest, Except.bind_eq_ok, orRaise_eq_ok] at h
    obtain ⟨verifier, hverifier, h⟩ := h
    cases object with
    | foreign => cases h
    | approval shown =>
      simp only [activationSubject, Except.bind_eq_ok, raiseIf_eq_ok, Except.pure_eq_ok] at h
      obtain ⟨_, hdistinct, subject, ⟨_, _, hsubject⟩, h⟩ := h
      cases hverify : verifier.verify (.approval shown) .activation record.operationId subject
        policy.clock with
      | error e => simp [hverify] at h
      | ok checked =>
        rw [hverify] at h
        have hd := (Except.pure_eq_ok ..).mp h
        obtain ⟨hobject, htrusts, hforce, hdomain, hoperation, hbound⟩ :=
          ApprovalVerifier.verify_eq_ok hverify
        obtain rfl := ApprovalObject.approval.inj hobject
        have hauthorizes : Authorizes K digest controller policy record shown :=
          ⟨⟨verifier, hverifier, htrusts⟩, hforce, hdistinct, hdomain, hoperation,
            hbound.trans hsubject.symm⟩
        exact .inr ⟨shown, rfl, hd.symm, hauthorizes⟩

/-- What the gate lets through was checked again, on the record that is about to be committed. -/
theorem transactionGate_eq_true {controller : SwapController δ} {policy : PolicyReading δ}
    {record current : PreparedReplacement δ} {approval : Option (ApprovalObject δ)} {d : δ}
    (h : controller.transactionGate K digest policy record approval d current (.digest d) = true) :
    K.preparedDigest current = K.preparedDigest record ∧
      controller.checkRecord K policy current = .ok () ∧
      controller.approvalDigest K digest policy current approval = .ok d := by
  unfold SwapController.transactionGate at h
  split at h
  · cases h
  · rename_i hsame
    cases hcheck : controller.checkRecord K policy current with
    | error e => simp [hcheck] at h
    | ok u =>
      cases hdigest : controller.approvalDigest K digest policy current approval with
      | error e => simp [hcheck, hdigest] at h
      | ok checked =>
        simp only [hcheck, hdigest, decide_eq_true_eq, DigestText.digest.injEq] at h
        subst h
        refine ⟨?_, rfl, rfl⟩
        by_contra hother
        exact hsame (.inl hother)

/-! ## Section 2: A fresh receipt -/

variable {env : Ambient δ} {db db' : Db δ}

/-- The receipt was made from the record that the database holds under its prepared id. -/
structure CommittedFrom (db : Db δ) (record : PreparedReplacement δ)
    (receipt : ActivationReceipt δ) : Prop where
  stored : ∃ p ∈ db.prepared, p.preparedId = receipt.preparedId ∧ p.payload = record
  scope : receipt.scopeDigest = record.scopeDigest
  operation : receipt.operationId = record.operationId
  request : receipt.requestDigest = record.requestDigest
  installed : receipt.newBinding = record.newBinding

omit [DecidableEq δ] in
/-- The fields that the body of a receipt takes from the record and from the caller. -/
theorem activationBody_record {receiptId : String} {scopeDigest : δ} {row : ScopeRow δ}
    {record : PreparedReplacement δ} {ticketId : String} {approvalDigest : δ}
    {body : ActivationBody δ}
    (h : activationBody receiptId scopeDigest row record ticketId (.digest approvalDigest) =
      .ok body) :
    body.newBinding = record.newBinding ∧ body.approvalDigest = approvalDigest := by
  simp only [activationBody, DigestText.validate, Except.ok_bind] at h
  split at h
  · obtain rfl := Except.ok.inj h
    exact ⟨rfl, rfl⟩
  · cases h

/-- Committing a receipt adds its one row to the receipts. -/
theorem receipts_of_advanced {ticket : BoundaryTicket δ} {receipt : ReceiptPayload δ}
    (h : Applies K env db (.advanced ticket receipt) db') :
    ∃ scopeDigest createdAt, db'.receipts =
      db.receipts ++ [receiptRowOf scopeDigest receipt createdAt] := by
  cases h
  exact ⟨_, _, rfl⟩

/-- A row of the receipts that `activate_prepared` added was let through by the gate, which saw the
record that the row was made from. -/
theorem activatePrepared_fresh {scope : RuntimeScope} {preparedId : String}
    {ticket : BoundaryTicket δ} {d : δ} {gate : PreparedReplacement δ → DigestText δ → Bool}
    {receipt : ActivationReceipt δ} {q : ReceiptRow δ}
    (h : Returns (activatePrepared K env scope preparedId ticket (.digest d) (some gate)) db receipt
      db') (hq : q ∈ db'.receipts) (hnew : q ∉ db.receipts) :
    ∃ record, q.payload = .activation receipt ∧ CommittedFrom db record receipt ∧
      gate record (.digest d) = true ∧ receipt.approvalDigest = d := by
  simp only [activatePrepared, returns_bind, returns_check, returns_query, loadPreparedDb_eq_ok,
    and_assoc, exists_and_left, exists_eq_left'] at h
  obtain ⟨_, _, row, hread, _, ⟨p, hsel, hauthentic, rfl⟩, replay, hreplay, hrest⟩ := h
  obtain ⟨hprepared, hpscope, hpid⟩ := selectPrepared_eq_some hsel
  cases replay with
  | some replay =>
    -- a replay writes nothing, so there is no new row
    obtain ⟨_, rfl⟩ := (returns_pure ..).mp hrest
    exact absurd hq hnew
  | none =>
    obtain ⟨hrow, hver⟩ := readRow_eq_ok hread
    obtain ⟨hid, hscope, happlies⟩ := activateFresh_applies hrow hver hprepared hpscope hauthentic
      (findActivationReplay_eq_none hreplay) hrest
    obtain ⟨scopeDigest, createdAt, hreceipts⟩ := receipts_of_advanced happlies
    rw [hreceipts] at hq
    have hrowq : q = receiptRowOf scopeDigest (.activation receipt) createdAt := by
      rcases List.mem_append.mp hq with hold | hadded
      · exact absurd hold hnew
      · exact List.mem_singleton.mp hadded
    simp only [activateFresh, commitActivation, authorizeActivation, orRaise, returns_bind,
      returns_check, returns_query, returns_pure, Except.ok_bind, raiseIf_eq_ok,
      Bool.not_eq_false, and_assoc, exists_and_left, exists_eq_left'] at hrest
    obtain ⟨_, _, _, _, _, _, _, hgate, _, _, body, hbody, _, _, _, _, _, rfl, _⟩ := hrest
    obtain ⟨hinstalled, hdigest⟩ := activationBody_record hbody
    obtain ⟨_, hop, _, _, hrequest, _⟩ := activationBody_eq_ok hbody
    refine ⟨p.payload, by rw [hrowq]; rfl, ⟨⟨p, hprepared, hid.symm, rfl⟩, ?_, hop, hrequest,
      hinstalled⟩, hgate, hdigest⟩
    exact hscope.trans (hpscope.symm.trans hauthentic.scopeDigest.symm)

/-! ## Section 3: Runs -/

/-- A commit of a controller is a call on the store like any other. -/
theorem transaction_activatePrepared (env : Ambient δ) (scope : RuntimeScope) (preparedId : String)
    (ticket : BoundaryTicket δ) (d : DigestText δ)
    (validator : Option (PreparedReplacement δ → DigestText δ → Bool)) (db : Db δ) :
    (transaction (activatePrepared K env scope preparedId ticket d validator) db).2 =
      (execute K db ⟨env, .activatePrepared scope preparedId ticket d validator⟩).2 := by
  cases hrun : activatePrepared K env scope preparedId ticket d validator db <;>
    simp [execute, program, transaction, Functor.map, EStateM.map, hrun]

/-- Only a commit writes the database. -/
theorem proceed_db (K : Keyring δ) (digest : Digested δ → δ) (observation : Observation δ)
    (db : Db δ) (phase : Phase δ) :
    (phase.proceed K digest observation db).2 = db ∨
      ∃ request record d, phase = .committing request record d ∧
        (phase.proceed K digest observation db).2 =
          (transaction (request.commit K digest observation record d) db).2 := by
  -- only a commit writes; the other phases read, or do nothing
  cases phase with
  | committing request record d =>
    refine .inr ⟨request, record, d, rfl, ?_⟩
    rw [Phase.proceed]
    rcases transaction (request.commit K digest observation record d) db with ⟨reply, db'⟩
    cases reply <;> rfl
  | finding request =>
    left
    rw [Phase.proceed]
    split <;> rfl
  | reading request =>
    left
    rw [Phase.proceed]
    split <;> rfl
  | checking request record =>
    left
    rw [Phase.proceed]
    split <;> rfl
  | idle => exact .inl rfl
  | returned receipt => exact .inl rfl
  | raised error => exact .inl rfl

/-- **Refinement**: what the clients do to the database, some run of the store does. -/
theorem runWorld_runStore (K : Keyring δ) (digest : Digested δ → δ) (moves : List (Move δ)) :
    ∃ events, (runWorld K digest moves).db = runStore K events := by
  refine invariant_final (fun world : World δ => ∃ events, world.db = runStore K events) ?_
    ⟨[], rfl⟩ moves
  intro world move hworld
  obtain ⟨events, hdb⟩ := hworld
  -- a call on the store extends the run of the store by one event
  have hcall : ∀ event : Event δ, ∃ events', (execute K world.db event).2 = runStore K events' := by
    intro event
    refine ⟨events ++ [event], ?_⟩
    rw [hdb, runStore, runStore, final_append]
    rfl
  have hsame : ∃ events', world.db = runStore K events' := ⟨events, hdb⟩
  cases move with
  | store event => exact hcall event
  | prepare controller observation record =>
    rw [stepWorld]
    split
    · exact hsame
    · exact hcall _
  | activate client request =>
    rw [stepWorld]
    split <;> exact hsame
  | proceed client observation =>
    show ∃ events', ((world.clients client).proceed K digest observation world.db).2 =
      runStore K events'
    -- a client that proceeds reads, or it commits, which is a call of `activate_prepared`
    rcases proceed_db K digest observation world.db (world.clients client) with
      hread | ⟨request, record, d, _, hcommit⟩
    · rw [hread]
      exact hsame
    · rw [hcommit, Activation.commit, transaction_activatePrepared]
      exact hcall _

/-- A prepared id names one record, whatever was saved before. -/
theorem prepared_nodup (K : Keyring δ) (events : List (Event δ)) :
    ((runStore K events).prepared.map (·.preparedId)).Nodup := by
  have hempty : ((Db.empty : Db δ).prepared.map (·.preparedId)).Nodup := List.nodup_nil
  refine invariant_final (fun db : Db δ => (db.prepared.map (·.preparedId)).Nodup) ?_ hempty events
  intro db event hdb
  obtain ⟨change, happlies⟩ := execute_applies K db event
  generalize (execute K db event).2 = db' at happlies
  -- only saving adds a record, and its id was not in the table
  cases happlies with
  | saved row p _ hfresh _ _ =>
    show ((db.prepared ++ [p]).map (·.preparedId)).Nodup
    rw [List.map_append, List.map_singleton, ← List.concat_eq_append]
    refine hdb.concat ?_
    intro hmem
    obtain ⟨q, hq, hid⟩ := List.mem_map.mp hmem
    exact hfresh q hq hid
  | nothing => exact hdb
  | initialized => exact hdb
  | begun => exact hdb
  | settled => exact hdb
  | reserved => exact hdb
  | consumed => exact hdb
  | advanced => exact hdb

/-- The record that a receipt was made from is the one record of its prepared id. -/
theorem CommittedFrom.unique {moves : List (Move δ)} {record : PreparedReplacement δ}
    {receipt : ActivationReceipt δ}
    (h : CommittedFrom (runWorld K digest moves).db record receipt) {p : PreparedRow δ}
    (hp : p ∈ (runWorld K digest moves).db.prepared) (hid : p.preparedId = receipt.preparedId) :
    p.payload = record := by
  obtain ⟨q, hq, hqid, hpayload⟩ := h.stored
  obtain ⟨events, hdb⟩ := runWorld_runStore K digest moves
  rw [hdb] at hp hq
  have hsame : p = q :=
    List.inj_on_of_nodup_map (prepared_nodup K events) hp hq (hid.trans hqid.symm)
  rw [hsame, hpayload]

/-! ## Section 4: Enforcement -/

/-- A move that adds a receipt on behalf of a client commits it. -/
theorem proceed_fresh {moves : List (Move δ)} {client : ℕ} {observation : Observation δ}
    {q : ReceiptRow δ}
    (hq : q ∈ (runWorld K digest (moves ++ [.proceed client observation])).db.receipts)
    (hnew : q ∉ (runWorld K digest moves).db.receipts) :
    ∃ request seen d receipt db',
      (runWorld K digest moves).clients client = .committing request seen d ∧
        Returns (request.commit K digest observation seen d) (runWorld K digest moves).db receipt
          db' ∧ q ∈ db'.receipts := by
  have hmove : (runWorld K digest (moves ++ [.proceed client observation])).db =
      (((runWorld K digest moves).clients client).proceed K digest observation
        (runWorld K digest moves).db).2 := by
    rw [runWorld, final_append]
    rfl
  rw [hmove] at hq
  rcases proceed_db K digest observation (runWorld K digest moves).db
    ((runWorld K digest moves).clients client) with hread | ⟨request, seen, d, hphase, hcommit⟩
  -- a phase that does not commit leaves the receipts, and so does a commit that raises
  · rw [hread] at hq
    exact absurd hq hnew
  · rw [hcommit] at hq
    cases hreply : (transaction (request.commit K digest observation seen d)
      (runWorld K digest moves).db).1 with
    | error e =>
      rw [transaction_error _ _ _ hreply] at hq
      exact absurd hq hnew
    | ok receipt =>
      exact ⟨request, seen, d, receipt, _, hphase, (transaction_eq_ok ..).mp (Prod.ext hreply rfl),
        hq⟩

/-- **Approval at commit**: in every run, a receipt that a client commits is made from a record that
the validator accepts inside the transaction; and if that record needs an approval, then the digest
on the receipt is that of the approval the client shows, which authorizes this record and no other
at the clock reading of the transaction. -/
theorem approval_enforced_at_commit (hdigest : Function.Injective digest)
    (hprepared : Function.Injective K.preparedDigest) (moves : List (Move δ)) (client : ℕ)
    (observation : Observation δ) {q : ReceiptRow δ}
    (hq : q ∈ (runWorld K digest (moves ++ [.proceed client observation])).db.receipts)
    (hnew : q ∉ (runWorld K digest moves).db.receipts) :
    ∃ request record d receipt,
      (runWorld K digest moves).clients client = .committing request record d ∧
      q.payload = .activation receipt ∧
      CommittedFrom (runWorld K digest moves).db record receipt ∧
      (∀ p ∈ (runWorld K digest moves).db.prepared, p.preparedId = receipt.preparedId →
        p.payload = record) ∧
      observation.policy.validator record = true ∧
      (record.needsApproval = true → ∃ approval,
        request.approval = some (.approval approval) ∧
        (∀ payload, digest payload = receipt.approvalDigest ↔ payload = .approval approval) ∧
        Authorizes K digest request.controller observation.policy record approval ∧
        ∀ other, approval.subject = digest (other.activationPayload K) ↔ other = record) := by
  obtain ⟨request, seen, d, receipt, db', hphase, hreturns, hstored⟩ := proceed_fresh hq hnew
  obtain ⟨record, hpayload, hfrom, hgate, hcarried⟩ :=
    activatePrepared_fresh hreturns hstored hnew
  obtain ⟨hseen, hcheck, happroval⟩ := transactionGate_eq_true hgate
  -- the gate compared digests, so the record is the one that was checked before
  obtain rfl := hprepared hseen
  refine ⟨request, record, d, receipt, hphase, hpayload, hfrom, fun p hp hid =>
    hfrom.unique hp hid, (checkRecord_eq_ok hcheck).2, ?_⟩
  intro hneeds
  rcases approvalDigest_eq_ok happroval with ⟨hfree, _⟩ | ⟨approval, hshown, hd, hauthorizes⟩
  · rw [hneeds] at hfree
    cases hfree
  · refine ⟨approval, hshown, ?_, hauthorizes, ?_⟩
    · intro payload
      rw [hcarried, hd]
      exact hdigest.eq_iff
    · intro other
      rw [hauthorizes.subject, hdigest.eq_iff]
      constructor
      · intro hsame
        simp only [PreparedReplacement.activationPayload, Digested.activationSubject.injEq] at hsame
        exact (hprepared hsame.2.1).symm
      · intro hother
        rw [hother]

section Sample

open Symbolic

def approvalBodyTerm (a : ApprovalBody Hash) : Hash :=
  tuple [.text a.issuer, .text (if a.domain = .execution then "execution" else "activation"),
    .text a.operationId, a.subject, timeTerm a.issuedAt, timeTerm a.expiresAt, flagTerm a.synthetic]

/-- Every digest of a payload is the term it stands for. -/
def digestTerm : Digested Hash → Hash
  | .activationSubject operationId preparedDigest scopeDigest requestDigest generation =>
    tuple [.text "ccs-m5-activation-approval/1.0.0", .text operationId, preparedDigest, scopeDigest,
      requestDigest, .nat generation]
  | .noApproval preparedDigest => tuple [.text "ccs-m5-no-approval/1", preparedDigest]
  | .approval a => .pair (approvalBodyTerm a.toApprovalBody) a.signature

theorem approvalBodyTerm_injective : Function.Injective approvalBodyTerm := by
  intro a a' h
  have hfields := tuple_injective h
  simp only [List.cons.injEq, and_true, Hash.text.injEq, timeTerm_injective.eq_iff,
    flagTerm_injective.eq_iff] at hfields
  obtain ⟨hissuer, hdomain, hoperation, hsubject, hissued, hexpires, hsynthetic⟩ := hfields
  rcases a with ⟨_, domain, _, _, _, _, _, _, _⟩
  rcases a' with ⟨_, domain', _, _, _, _, _, _, _⟩
  have hsame : domain = domain' := by
    cases domain <;> cases domain' <;> first | rfl | simp at hdomain
  simp only at hissuer hoperation hsubject hissued hexpires hsynthetic
  subst hissuer hsame hoperation hsubject hissued hexpires hsynthetic
  rfl

theorem digestTerm_injective : Function.Injective digestTerm := by
  intro p p' h
  cases p with
  | activationSubject =>
    cases p' with
    | activationSubject => simpa using tuple_injective h
    | noApproval => simpa using tuple_injective h
    | approval a => cases h
  | noApproval =>
    cases p' with
    | activationSubject => simpa using tuple_injective h
    | noApproval => simpa using tuple_injective h
    | approval a => cases h
  | approval a =>
    cases p' with
    | activationSubject => cases h
    | noApproval => cases h
    -- an approval is hashed with its signature, so both are the same
    | approval a' =>
      obtain ⟨hbody, hsignature⟩ := Hash.pair.inj h
      have hfields := approvalBodyTerm_injective hbody
      cases a
      cases a'
      subst hfields hsignature
      rfl

/-- A record of high risk. -/
def riskyRecord : PreparedReplacement Hash :=
  { preparedOf "A" "op1" "p1" "base" "next" 0 with effectiveRisk := .high }

/-- An approval of the record by a reviewer, for the first hundred seconds. -/
def riskyApproval : Approval Hash :=
  let body : ApprovalBody Hash :=
    { issuer := "reviewer"
      domain := .activation
      operationId := "op1"
      subject := digestTerm (riskyRecord.activationPayload keyring)
      issuedAt := ⟨0, []⟩
      expiresAt := ⟨100, []⟩
      synthetic := true
      issuerNonempty := by decide
      operationNonempty := by decide }
  { toApprovalBody := body, signature := approvalBodyTerm body }

def riskyRequest : Activation Hash where
  controller := ⟨scopeOf "A", some ⟨"reviewer", approvalBodyTerm⟩⟩
  preparedId := "p1"
  ticket := ticketOf "A" "op1" "t1" 0 1 34
  approval := some (.approval riskyApproval)

/-- Everything is accepted at second `n`. -/
def acceptingAt (n : ℕ) : Observation Hash :=
  ⟨ambient n "r1" "a5", ⟨fun _ => true, ⟨true, n * 1000000⟩⟩⟩

/-- The record is saved and a client is about to commit it. -/
def riskyMoves : List (Move Hash) :=
  [.store (initializeCall "A" 1 "a1"), .store (beginCall "A" "op1" 2 "a2"),
    .store (endCall "A" "op1" 1 3 false "a3"), .store (reserveCall "A" "op1" "t1" 0 4 "a4"),
    .prepare riskyRequest.controller (acceptingAt 5) riskyRecord, .activate 0 riskyRequest,
    .proceed 0 (acceptingAt 6), .proceed 0 (acceptingAt 7), .proceed 0 (acceptingAt 8)]

/-- The receipt of the risky record carries the digest of the reviewer's approval. -/
theorem approval_enforced_at_commit_riskyMoves :
    ∃ q ∈ (runWorld keyring digestTerm (riskyMoves ++ [.proceed 0 (acceptingAt 9)])).db.receipts,
      ∃ request record d receipt,
        (runWorld keyring digestTerm riskyMoves).clients 0 = .committing request record d ∧
        q.payload = .activation receipt ∧
        CommittedFrom (runWorld keyring digestTerm riskyMoves).db record receipt ∧
        (record.needsApproval = true → ∃ approval,
          request.approval = some (.approval approval) ∧
          Authorizes keyring digestTerm request.controller (acceptingAt 9).policy record
            approval) := by
  -- the last move writes the only receipt, and before it there is none
  have hcount : (runWorld keyring digestTerm
      (riskyMoves ++ [.proceed 0 (acceptingAt 9)])).db.receipts.length = 1 := by decide +kernel
  have hnone : (runWorld keyring digestTerm riskyMoves).db.receipts = [] := by decide +kernel
  obtain ⟨q, hq⟩ := List.length_eq_one_iff.mp hcount
  have hmem : q ∈ (runWorld keyring digestTerm
      (riskyMoves ++ [.proceed 0 (acceptingAt 9)])).db.receipts := by
    rw [hq]
    exact List.mem_singleton_self q
  obtain ⟨request, record, d, receipt, hphase, hpayload, hfrom, _, _, happroved⟩ :=
    approval_enforced_at_commit digestTerm_injective preparedTerm_injective riskyMoves 0
      (acceptingAt 9) hmem (by simp [hnone])
  refine ⟨q, hmem, request, record, d, receipt, hphase, hpayload, hfrom, ?_⟩
  intro hneeds
  obtain ⟨approval, hshown, _, hauthorizes, _⟩ := happroved hneeds
  exact ⟨approval, hshown, hauthorizes⟩

end Sample

end ContractCapsule.Store
