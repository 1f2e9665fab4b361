import ContractCapsule.Store.TicketSafety

/-!
# Reversibility of an Activation

`rollback_receipt` accepts a ticket only for the operation of the activation it
undoes, and `reserve_boundary` issues a ticket only for the latest action. An
activation that is still in force can therefore be rolled back exactly as long as
no action was begun after the one it belongs to.
-/

namespace ContractCapsule.Store

open Library

variable {δ : Type} [DecidableEq δ] {K : Keyring δ} {db : Db δ} {scope : RuntimeScope}
  {row : ScopeRow δ} {r : ActivationReceipt δ}

/-! ## Section 1: Activations in force -/

/-- The scope is idle, and its binding and generation are those the activation `r` established;
`r` was not rolled back. -/
structure InForce (K : Keyring δ) (db : Db δ) (scope : RuntimeScope) (row : ScopeRow δ)
    (r : ActivationReceipt δ) : Prop where
  present : selectScope db (K.scopeDigest scope) = some row
  idle : row.actionState = .idle
  stored : ∃ q ∈ db.receipts, q.scopeDigest = K.scopeDigest scope ∧ q.payload = .activation r
  generation : row.generation = r.generationAfter
  active : row.activeJcs = r.newBinding
  standing : ∀ q ∈ db.receipts, ∀ b, q.scopeDigest = K.scopeDigest scope →
    q.payload = .rollback b → b.sourceReceiptId ≠ r.receiptId

/-- Under some operation id a ticket is reserved, and under that ticket `r` is rolled back and
its old binding restored. -/
def Reversible (K : Keyring δ) (db : Db δ) (scope : RuntimeScope) (row : ScopeRow δ)
    (r : ActivationReceipt δ) (reserving : Ambient δ) (ttl : ℤ) (rollingBack : Ambient δ)
    (validator : ActivationReceipt δ → Bool) : Prop :=
  ∃ operationId expectedGeneration ticket receipt db₁ db₂,
    execute K db ⟨reserving, .reserveBoundary scope operationId expectedGeneration ttl⟩ =
      (.ok (.ticket ticket), db₁) ∧
    execute K db₁ ⟨rollingBack, .rollbackReceipt scope r.receiptId ticket (some validator)⟩ =
      (.ok (.receipt (.rollback receipt)), db₂) ∧
    pointer db₂ (K.scopeDigest scope) =
      some (r.oldBinding.atGeneration (row.generation + 1), row.generation + 1)

/-- The action of the operation `r` belongs to is still the latest one. -/
def LatestOperation (K : Keyring δ) (db : Db δ) (scope : RuntimeScope) (row : ScopeRow δ)
    (r : ActivationReceipt δ) : Prop :=
  ∃ a ∈ db.actions, a.scopeDigest = K.scopeDigest scope ∧ a.operationId = r.operationId ∧
    a.actionEpoch = row.actionEpoch

/-- The source of a rollback is determined by its operation id. -/
theorem InForce.no_rollback (hsound : Sound K db) (h : InForce K db scope row r) :
    selectReceiptOf db (K.scopeDigest scope) r.operationId .rollback = none := by
  obtain ⟨q, hq, hqscope, hpayload⟩ := h.stored
  obtain ⟨hqkind, hqop, _⟩ := (hsound.tables.receiptAuthentic q hq).activation hpayload
  refine List.find?_eq_none.mpr fun q' hq' hfound => ?_
  simp only [decide_eq_true_eq] at hfound
  obtain ⟨hsd, hop, hkind⟩ := hfound
  have hauthentic := hsound.tables.receiptAuthentic q' hq'
  cases hb : q'.payload with
  | activation a =>
    obtain ⟨hactivate, _⟩ := hauthentic.activation hb
    rw [hkind] at hactivate
    cases hactivate
  | rollback b =>
    obtain ⟨s, hs, hsscope, source, hspayload, hbop, hbid⟩ :=
      hsound.tables.rollbackSource q' hq' b hb
    obtain ⟨hskind, hsop, _⟩ := (hsound.tables.receiptAuthentic s hs).activation hspayload
    obtain ⟨_, hq'op, _⟩ := hauthentic.rollback hb
    -- the activation the rollback names has the key of `r`, hence is `r`
    have hkey : (s.scopeDigest, s.operationId, s.kind) =
        (q.scopeDigest, q.operationId, q.kind) := by
      rw [hsscope, hsd, hqscope, hskind, hqkind, ← hsop, ← hbop, hq'op, hop, hqop]
    have hsq : s = q := eq_of_key_eq hsound.tables.receiptOnce hs hq hkey
    rw [hsq, hpayload] at hspayload
    cases hspayload
    exact h.standing q' hq' b hsd hb hbid

/-! ## Section 2: What a rollback needs -/

/-- Whatever the surroundings, a rollback that succeeds under a freshly reserved ticket shows that
no action was begun since the one the activation belongs to. -/
theorem Reversible.latestOperation {reserving rollingBack : Ambient δ} {ttl : ℤ}
    {validator : ActivationReceipt δ → Bool} (hsound : Sound K db)
    (hforce : InForce K db scope row r)
    (h : Reversible K db scope row r reserving ttl rollingBack validator) :
    LatestOperation K db scope row r ∧ row.generation + 1 ≤ maxSafeInteger := by
  obtain ⟨operationId, expectedGeneration, ticket, receipt, db₁, db₂, hreserve, hrollback, _⟩ := h
  obtain ⟨t, hreserved, ht⟩ := (returns_map ..).mp ((transaction_eq_ok ..).mp hreserve)
  cases ht
  obtain ⟨hticket, happlies⟩ := reserveBoundary_applies hreserved
  obtain ⟨b, hrolled, hb⟩ := (returns_map ..).mp ((transaction_eq_ok ..).mp hrollback)
  cases hb
  obtain ⟨q, hq, hqscope, hpayload⟩ := hforce.stored
  -- the rollback found a receipt under the id of `r`, and then either a stored rollback or none
  obtain ⟨s, source, hsel, hsource, hcases⟩ := rollbackReceipt_applies hrolled
  have hnone := hforce.no_rollback hsound
  cases happlies with
  | reserved row₁ _ _ _ hrow₁ _ hscope₁ _ hepoch₁ =>
    -- receipt ids are a key, so the receipt found is the one `r` was stored in
    have hsource_eq : source = r := by
      have hfound := selectReceipt_of_mem hsound hq
      have hid := (hsound.tables.receiptAuthentic q hq).receiptId
      rw [hpayload] at hid
      have hid' : r.receiptId = q.receiptId := hid
      rw [hqscope, ← hid'] at hfound
      have hsel' : selectReceipt db (K.scopeDigest scope) r.receiptId = some s := hsel
      rw [hfound] at hsel'
      cases hsel'
      rw [hpayload] at hsource
      exact (ReceiptPayload.activation.inj hsource).symm
    subst hsource_eq
    -- the reservation was made for the row that `r` is in force in
    have hrow₁' : row₁ = row := by
      have hr := hforce.present
      rw [← hticket, hscope₁, hrow₁] at hr
      exact Option.some.inj hr
    subst hrow₁'
    rcases hcases with ⟨_, existing, hexisting, _⟩ | ⟨hop, _, happlies⟩
    -- `r` was not rolled back, so no stored rollback was found for its operation
    · have hexisting' : selectReceiptOf db (K.scopeDigest scope) source.operationId .rollback =
          some existing := hexisting
      rw [hnone] at hexisting'
      cases hexisting'
    · generalize hpay : ReceiptPayload.rollback receipt = payload at happlies
      cases happlies with
      -- the ticket was accepted for the operation of `r` at the row's epoch, where it was reserved
      | advanced row₂ _ _ _ _ _ _ _ _ hrow₂ _ haccepted _ _ hafter hrow' =>
        obtain ⟨a, ha, _, haepoch, _⟩ := haccepted.action
        obtain ⟨hmem, hasd, haop⟩ := selectAction_eq_some ha
        have hop' : ticket.operationId = source.operationId := by
          rw [← hop, haccepted.operation _ rfl, ← hpay]
          rfl
        refine ⟨⟨a, hmem, ?_, haop.trans hop', haepoch.trans hepoch₁⟩, ?_⟩
        · rw [hasd, ← haccepted.scope, hticket]
        -- what was signed for the new row is in range, and its generation is the next one
        · have hsigned := (stateSignature_eq_ok.mp hrow'.signed).1.1
          have hgen₂ : row₂ = row₁ := by
            have hr : selectScope db row₂.scopeDigest = some row₂ := hrow₂
            rw [← haccepted.scope, hticket, hforce.present] at hr
            exact (Option.some.inj hr).symm
          rw [← hgen₂, ← hafter, ← payload.installed_generation]
          exact hsigned

/-! ## Section 3: A rollback that has it succeeds -/

/-- The surroundings let a ticket of this lifetime be issued: the clock is a representable UTC
clock and the identifiers drawn are not in use. -/
structure FitsReservation (db : Db δ) (env : Ambient δ) (ttl : ℤ) : Prop where
  lifetime : 0 < ttl ∧ ttl ≤ maxTicketLifetime
  clock : (env.clock 0).utc = true ∧ (env.clock 1).utc = true
  representable : (env.clock 0).micros + ttl.toNat ≤ datetimeMax
  freshTicket : ∀ t ∈ db.tickets, t.ticketId ≠ env.uuid 0
  freshEvent : ∀ e ∈ db.audit, e.eventId ≠ env.uuid 1

/-- The surroundings let the rollback be recorded, before the ticket expires. -/
structure FitsRollback (db : Db δ) (reserving : Ambient δ) (ttl : ℤ) (env : Ambient δ) : Prop where
  clock : ∀ i, (env.clock i).utc = true
  early : (env.clock 0).micros < (reserving.clock 0).micros + ttl.toNat
  freshReceipt : ∀ q ∈ db.receipts, q.receiptId ≠ env.uuid 0
  freshEvent : ∀ e ∈ db.audit, e.eventId ≠ env.uuid 1
  distinct : env.uuid 1 ≠ reserving.uuid 1

omit [DecidableEq δ] in
theorem sign_of_exact {payload : Signed δ} (h : ∀ n ∈ payload.integers, n ≤ maxSafeInteger) :
    K.sign payload = .ok (K.hmac payload) :=
  Keyring.sign_eq_ok.mpr ⟨by simpa [exactIntegers] using h, rfl⟩

/-- The ticket a reservation issues for the row as it is. -/
def reservedTicket (K : Keyring δ) (env : Ambient δ) (scope : RuntimeScope) (row : ScopeRow δ)
    (operationId : String) (expires : Timestamp) : BoundaryTicket δ :=
  let body : BoundaryBody δ :=
    ⟨env.uuid 0, K.scopeDigest scope, row.generation, row.actionEpoch, operationId, expires⟩
  { toBoundaryBody := body, signature := K.hmac (.boundary body) }

/-- The database with the row of an issued ticket and the event that records it. -/
def Db.withTicket (K : Keyring δ) (db : Db δ) (ticket : BoundaryTicket δ) (event : AuditRow δ) :
    Db δ :=
  { db with
    tickets := db.tickets ++ [⟨ticket.toBoundaryBody, ticket.signature, false,
      K.hmac (.ticketRow ticket.toBoundaryBody false)⟩]
    audit := db.audit ++ [event] }

/-- Issuing a ticket leaves an activation in force. -/
theorem InForce.withTicket (h : InForce K db scope row r) (ticket : BoundaryTicket δ)
    (event : AuditRow δ) : InForce K (db.withTicket K ticket event) scope row r :=
  ⟨h.present, h.idle, h.stored, h.generation, h.active, h.standing⟩

/-- In surroundings that fit, a ticket is issued for the latest action of an idle scope. -/
theorem reserveBoundary_succeeds {env : Ambient δ} {ttl : ℤ} {a : ActionRow δ}
    (hsound : Sound K db) (hrow : selectScope db (K.scopeDigest scope) = some row)
    (hidle : row.actionState = .idle) (hfits : FitsReservation db env ttl)
    (ha : a ∈ db.actions) (hasd : a.scopeDigest = K.scopeDigest scope)
    (haepoch : a.actionEpoch = row.actionEpoch) :
    ∃ expires event, parseStamp expires = (env.clock 0).micros + ttl.toNat ∧
      event.eventId = env.uuid 1 ∧
      Returns (reserveBoundary K env scope a.operationId row.generation ttl) db
        (reservedTicket K env scope row a.operationId expires)
        (db.withTicket K (reservedTicket K env scope row a.operationId expires) event) := by
  have hv := hsound.consistent hrow
  -- the action is idle because the scope is, and it carries the row's epoch
  have hmem : a ∈ selectActions db (K.scopeDigest scope) := mem_selectActions.mpr ⟨ha, hasd⟩
  have hselect := selectAction_of_mem hsound hrow hmem
  have hastate : a.state = .idle := hv.idle_iff.mp hidle a hmem
  have hnamed := hsound.tables.actionNamed a ha
  obtain ⟨⟨hgenmax, hepochmax⟩, _⟩ := stateSignature_eq_ok.mp hv.verified.signed
  -- the deadline can be represented, so it has a stamp
  let deadline : Datetime := { env.clock 0 with micros := (env.clock 0).micros + ttl.toNat }
  have hdeadline : (env.clock 0).plus ttl.toNat = .ok deadline := by
    have hmax : ¬ datetimeMax < (env.clock 0).micros + ttl.toNat :=
      not_lt.mpr hfits.representable
    simp [Datetime.plus, raiseIf_of_not, hmax, deadline]
  have hutc : deadline.utc = true := hfits.clock.1
  obtain ⟨expires, hexpires⟩ := stamp_of_utc hutc
  obtain ⟨recordedAt, hrecordedAt⟩ := stamp_of_utc hfits.clock.2
  let body : BoundaryBody δ :=
    ⟨env.uuid 0, K.scopeDigest scope, row.generation, row.actionEpoch, a.operationId, expires⟩
  -- the counts that are signed are the row's, which were signed before
  have hsign : K.sign (.boundary body) = .ok (K.hmac (.boundary body)) :=
    sign_of_exact (by simpa [Signed.integers, body] using ⟨hgenmax, hepochmax⟩)
  have hrecord : K.sign (.ticketRow body false) = .ok (K.hmac (.ticketRow body false)) :=
    sign_of_exact (by simpa [Signed.integers, body] using ⟨hgenmax, hepochmax⟩)
  have haudit : K.sign (.audit (env.uuid 1) (K.scopeDigest scope) (.reserveBoundary (env.uuid 0))) =
      .ok (K.hmac (.audit (env.uuid 1) (K.scopeDigest scope) (.reserveBoundary (env.uuid 0)))) :=
    sign_of_exact (by simp [Signed.integers])
  let recorded : AuditRow δ := ⟨env.uuid 1, K.scopeDigest scope, .reserveBoundary (env.uuid 0),
    K.hmac (.audit (env.uuid 1) (K.scopeDigest scope) (.reserveBoundary (env.uuid 0))), recordedAt⟩
  refine ⟨expires, recorded, (stamp_eq_ok hexpires).2, rfl, ?_⟩
  simp only [reserveBoundary, returns_bind, returns_check, returns_query, returns_insertTicket,
    returns_audit, returns_pure, raiseIf_eq_ok, not_not, and_assoc, exists_and_left,
    exists_eq_left, exists_eq_left', exists_const, orRaise_eq_ok]
  have hlifetime : ¬ (ttl ≤ 0 ∨ maxTicketLifetime < ttl) := by
    obtain ⟨hpos, hmax⟩ := hfits.lifetime
    omega
  exact ⟨hnamed, hlifetime, row, readRow_passes hsound hrow, by simp [hidle], hidle, rfl, a,
    hselect, by simp [hastate, haepoch], deadline, hdeadline, expires, hexpires, _, hsign, _,
    hrecord, hfits.freshTicket, _, ⟨_, haudit, recordedAt, hrecordedAt, hfits.freshEvent, rfl⟩,
    rfl, rfl⟩

/-- The row of an accepted ticket is the one its consumption updates. -/
theorem TicketAccepted.consumable {ticket : BoundaryTicket δ} {now : Datetime} {sd : δ}
    {op : Option String} {req : Option δ} {before : δ} (hsound : Sound K db)
    (h : TicketAccepted K now sd ticket row op req db)
    (hbefore : K.sign (.ticketRow ticket.toBoundaryBody false) = .ok before) :
    db.tickets.countP (TicketRow.isConsumable ticket.ticketId before) = 1 := by
  obtain ⟨t, hsel, hunspent, _, _, hrecord⟩ := h.stored
  obtain ⟨hmem, hid⟩ := selectTicket_eq_some hsel
  -- the record that was checked is the one that the update looks for
  have hrecord' : t.recordSignature = before := Except.ok.inj (hrecord.symm.trans hbefore)
  refine countP_eq_one_of_nodup hsound.tables.ticketKeys hmem ?_ fun t' _ ht' => ?_
  · exact TicketRow.isConsumable_iff.mpr ⟨hid, hunspent, hrecord'⟩
  · exact (TicketRow.isConsumable_iff.mp ht').1.trans hid.symm

/-- A receipt is committed when its row of the scope and its ticket are each found once, and the
identifiers drawn for it are new. -/
theorem commitReceipt_succeeds {env : Ambient δ} {c : ℕ} {sd : δ} {ticket : BoundaryTicket δ}
    {receipt : ReceiptPayload δ} {swapFailed : StoreError} {event : String → AuditEvent δ}
    (hclock : ∀ i, (env.clock i).utc = true)
    (hinstalled : receipt.installed.generation ≤ maxSafeInteger)
    (hepoch : row.actionEpoch ≤ maxSafeInteger)
    (hcount : db.scopes.countP (ScopeRow.isAt sd row.generation) = 1)
    (hspend : ∀ consumed, K.sign (.ticketRow ticket.toBoundaryBody consumed) =
      .ok (K.hmac (.ticketRow ticket.toBoundaryBody consumed)))
    (hconsumable : db.tickets.countP (TicketRow.isConsumable ticket.ticketId
      (K.hmac (.ticketRow ticket.toBoundaryBody false))) = 1)
    (haudit : ∃ signature, K.sign (.audit (env.uuid 1) sd (event receipt.receiptId)) =
      .ok signature)
    (hreceipt : ∀ q ∈ db.receipts, q.receiptId ≠ receipt.receiptId)
    (hevent : ∀ e ∈ db.audit, e.eventId ≠ env.uuid 1) :
    ∃ db', Returns (commitReceipt K env c sd row ticket receipt swapFailed event) db () db' := by
  obtain ⟨updatedAt, hupdatedAt⟩ := stamp_of_utc (hclock c)
  obtain ⟨createdAt, hcreatedAt⟩ := stamp_of_utc (hclock (c + 1))
  obtain ⟨recordedAt, hrecordedAt⟩ := stamp_of_utc (hclock (c + 2))
  obtain ⟨auditSig, hauditSig⟩ := haudit
  -- the row the receipt installs can be signed: its generation and its epoch are in range
  have hstate : ∃ signature, stateSignature K sd row.scopeJcs receipt.installed
      receipt.installed.generation .idle row.actionEpoch none = .ok signature :=
    ⟨_, stateSignature_eq_ok.mpr ⟨⟨hinstalled, hepoch⟩, rfl⟩⟩
  obtain ⟨stateSig, hstateSig⟩ := hstate
  simp only [commitReceipt, spendTicket, ticketRecordSignature, returns_bind, returns_check,
    returns_updateScopeAt, returns_updateTicketConsumed, returns_insertReceipt, returns_audit,
    raiseIf_eq_ok, encodeBinding_eq_ok, not_not, and_assoc, exists_and_left, exists_eq_left,
    exists_eq_left', exists_const]
  exact ⟨hinstalled, _, stateSig, hstateSig, updatedAt, hupdatedAt, hcount, _,
    ⟨_, hspend true, _, hspend false, hconsumable, rfl⟩, createdAt, hcreatedAt, hreceipt, auditSig,
    hauditSig, recordedAt, hrecordedAt, hevent, rfl⟩

/-- In surroundings that fit, the rollback of an activation in force is committed. -/
theorem rollbackFresh_succeeds {env : Ambient δ} {ticket : BoundaryTicket δ}
    {validator : ActivationReceipt δ → Bool} (hsound : Sound K db)
    (hforce : InForce K db scope row r) (hmax : row.generation + 1 ≤ maxSafeInteger)
    (haccepted : TicketAccepted K (env.clock 0) (K.scopeDigest scope) ticket row
      (some r.operationId) (some r.requestDigest) db)
    (hvalid : validator r = true) (hclock : ∀ i, (env.clock i).utc = true)
    (hreceipt : ∀ q ∈ db.receipts, q.receiptId ≠ env.uuid 0)
    (hevent : ∀ e ∈ db.audit, e.eventId ≠ env.uuid 1) :
    ∃ b db', Returns (rollbackFresh K env scope row r ticket (some validator)) db b db' ∧
      b.restoredBinding = r.oldBinding.atGeneration (row.generation + 1) := by
  have hv := hsound.consistent hforce.present
  have hsd : row.scopeDigest = K.scopeDigest scope := hv.scope
  have hbounds := (stateSignature_eq_ok.mp hv.verified.signed).1
  have hgen : row.generation ≤ maxSafeInteger := hbounds.1
  have hepoch : row.actionEpoch ≤ maxSafeInteger := hbounds.2
  -- exactly one row has this digest and this generation
  have hcount : db.scopes.countP (ScopeRow.isAt (K.scopeDigest scope) row.generation) = 1 := by
    refine countP_eq_one_of_nodup hsound.tables.scopeKeys (selectScope_eq_some hforce.present).1
      (ScopeRow.isAt_iff.mpr ⟨hsd, rfl⟩) fun r' _ hr' => ?_
    exact (ScopeRow.isAt_iff.mp hr').1.trans hsd.symm
  have hcheck : checkTicketDb K (env.clock 0) scope ticket row (some r.operationId)
      (some r.requestDigest) db = .ok () := checkTicketDb_eq_ok.mpr haccepted
  -- the pointer still is where `r` moved it
  have hguard : ¬ (row.generation ≠ r.generationAfter ∨
      K.bindingDigest row.activeJcs ≠ K.bindingDigest r.newBinding) := by
    simp [hforce.generation, hforce.active]
  have hauthorized : authorizeRollback r (some validator) = .ok () := by
    simp [authorizeRollback, orRaise, raiseIf_of_not, hvalid]
  have hticket : ticket.expectedGeneration ≤ maxSafeInteger ∧ ticket.actionEpoch ≤ maxSafeInteger :=
    ⟨haccepted.generation ▸ hgen, haccepted.epoch ▸ hepoch⟩
  have hspend : ∀ consumed, K.sign (.ticketRow ticket.toBoundaryBody consumed) =
      .ok (K.hmac (.ticketRow ticket.toBoundaryBody consumed)) :=
    fun consumed => sign_of_exact (by simpa [Signed.integers] using hticket)
  let body := rollbackBody (env.uuid 0) (K.scopeDigest scope) row r ticket.ticketId
  have hsigned : K.sign (.rollbackReceipt body) = .ok (K.hmac (.rollbackReceipt body)) :=
    sign_of_exact (by
      simpa [Signed.integers, body, rollbackBody, ActiveBinding.atGeneration, hmax] using hgen)
  have hcommits : ∃ db', Returns (commitReceipt K env 1 (K.scopeDigest scope) row ticket
      (.rollback { toRollbackBody := body, signature := K.hmac (.rollbackReceipt body) })
      (.runtimeStoreError "rollback compare-and-swap failed") .rollback) db () db' :=
    -- every step of the commit finds what it needs, so the receipt is stored
    commitReceipt_succeeds hclock hmax hepoch hcount hspend
      (haccepted.consumable hsound (hspend false)) ⟨_, sign_of_exact (by simp [Signed.integers])⟩
      hreceipt hevent
  obtain ⟨db', hcommitted⟩ := hcommits
  simp only [rollbackFresh, returns_bind, returns_check, returns_query, returns_pure]
  exact ⟨_, db', ⟨(), db, ⟨raiseIf_of_not _ hguard, rfl⟩, (), db, ⟨hcheck, rfl⟩, (), db,
    ⟨hauthorized, rfl⟩, _, db, ⟨hsigned, rfl⟩, (), db', hcommitted, rfl, rfl⟩, rfl⟩

/-- The issued ticket is accepted for the rollback of the activation it was reserved for. -/
theorem reservedTicket_accepted {env : Ambient δ} {now : Datetime} {ttl : ℤ} {a : ActionRow δ}
    {expires : Timestamp} (hsound : Sound K db)
    (hforce : InForce K db scope row r) (hfresh : ∀ t ∈ db.tickets, t.ticketId ≠ env.uuid 0)
    (ha : a ∈ db.actions) (hasd : a.scopeDigest = K.scopeDigest scope)
    (haop : a.operationId = r.operationId) (haepoch : a.actionEpoch = row.actionEpoch)
    (hexpires : parseStamp expires = (env.clock 0).micros + ttl.toNat) (hutc : now.utc = true)
    (hearly : now.micros < (env.clock 0).micros + ttl.toNat) (event : AuditRow δ) :
    let ticket := reservedTicket K env scope row a.operationId expires
    TicketAccepted K now (K.scopeDigest scope) ticket row (some r.operationId)
      (some r.requestDigest) (db.withTicket K ticket event) := by
  -- `r` was stored for an action and its request; that action is the one the ticket was reserved
  -- for
  have hv := hsound.consistent hforce.present
  have hmem : a ∈ selectActions db (K.scopeDigest scope) := mem_selectActions.mpr ⟨ha, hasd⟩
  obtain ⟨⟨hgen, hepoch⟩, _⟩ := stateSignature_eq_ok.mp hv.verified.signed
  obtain ⟨q, hq, hqscope, hpayload⟩ := hforce.stored
  obtain ⟨_, hqop, hqreq, _⟩ := (hsound.tables.receiptAuthentic q hq).activation hpayload
  obtain ⟨a', ha', hasd', haop', hareq⟩ := hsound.tables.receiptAction q hq
  have hsame : a' = a := hv.eq_of_operationId_eq (mem_selectActions.mpr ⟨ha', hasd'.trans hqscope⟩)
    hmem (haop'.trans (hqop.symm.trans haop.symm))
  obtain ⟨stamped, hstamped⟩ := stamp_of_utc hutc
  have hselect := selectAction_of_mem hsound hforce.present hmem
  -- the ticket carries the row's own counts, so it can be signed as the row was
  intro ticket
  have hsigned : K.sign (.boundary ticket.toBoundaryBody) = .ok ticket.signature :=
    sign_of_exact (by simpa [Signed.integers, ticket, reservedTicket] using ⟨hgen, hepoch⟩)
  have hrecord : K.sign (.ticketRow ticket.toBoundaryBody false) =
      .ok (K.hmac (.ticketRow ticket.toBoundaryBody false)) :=
    sign_of_exact (by simpa [Signed.integers, ticket, reservedTicket] using ⟨hgen, hepoch⟩)
  -- its row is the last one of the table: no earlier row has its id
  have hstored : selectTicket (db.withTicket K ticket event) ticket.ticketId =
      some ⟨ticket.toBoundaryBody, ticket.signature, false,
        K.hmac (.ticketRow ticket.toBoundaryBody false)⟩ := by
    have hnone : db.tickets.find? (fun t => decide (t.ticketId = ticket.ticketId)) = none :=
      List.find?_eq_none.mpr fun t ht hid => hfresh t ht (of_decide_eq_true hid)
    simp [selectTicket, Db.withTicket, hnone]
  -- its deadline lies after the rollback's clock
  have hunexpired : expired now expires = .ok false := by
    have hbefore : ¬ parseStamp expires ≤ parseStamp stamped := by
      rw [hexpires, (stamp_eq_ok hstamped).2]
      exact not_le.mpr hearly
    simp [expired, hstamped, hbefore]
  refine ⟨rfl, ?_, hsigned, ⟨_, hstored, rfl, rfl, rfl, hrecord⟩, hunexpired, hforce.idle, rfl, rfl,
    a, hselect, hv.idle_iff.mp hforce.idle a hmem, haepoch, ?_⟩
  · rintro _ ⟨⟩
    exact haop
  · rintro _ ⟨⟩
    rw [← hsame, hareq, hqreq]

/-- A rollback that is committed restores the pointer its receipt names. -/
theorem rollbackFresh_pointer {env : Ambient δ} {ticket : BoundaryTicket δ}
    {validator : Option (ActivationReceipt δ → Bool)} {b : RollbackReceipt δ} {db' : Db δ}
    (hsound : Sound K db) (hforce : InForce K db scope row r)
    (hticket : ticket.scopeDigest = K.scopeDigest scope)
    (h : Returns (rollbackFresh K env scope row r ticket validator) db b db') :
    pointer db' (K.scopeDigest scope) = some (b.restoredBinding, row.generation + 1) := by
  have hv := hsound.consistent hforce.present
  -- the commit is one transition of the scope's view, and that is an advance
  obtain ⟨q, hq, hqscope, hpayload⟩ := hforce.stored
  obtain ⟨_, _, happlies⟩ := rollbackFresh_applies hforce.present hv.verified hq hqscope hpayload
    (hforce.no_rollback hsound) h
  have hview := viewOf_eq_some hforce.present
  have hstep := viewOf_applies hsound.tables happlies (K.scopeDigest scope)
  rw [hview] at hstep
  rw [pointer_eq_view]
  generalize viewOf db' (K.scopeDigest scope) = view' at hstep
  cases hstep with
  | stays _ _ hother => exact absurd (congrArg some hticket) hother
  | advanced _ _ _ _ _ _ _ _ _ _ _ hafter =>
    have hgeneration : b.restoredBinding.generation = row.generation + 1 :=
      b.restoredGeneration.trans hafter
    simp [ScopeView.pointer, ScopeRow.advance, ReceiptPayload.installed, hgeneration]

/-! ## Section 4: Reversibility -/

/-- **The activations that can be undone.** In surroundings that fit and under an accepting
validator, an activation in force is reversible exactly as long as its own action is the latest
one of the scope and the next generation can be represented. -/
theorem reversible_iff (events : List (Event δ)) (reserving rollingBack : Ambient δ) (ttl : ℤ)
    (validator : ActivationReceipt δ → Bool)
    (hforce : InForce K (runStore K events) scope row r)
    (hreserving : FitsReservation (runStore K events) reserving ttl)
    (hrolling : FitsRollback (runStore K events) reserving ttl rollingBack)
    (hvalid : validator r = true) :
    Reversible K (runStore K events) scope row r reserving ttl rollingBack validator ↔
      LatestOperation K (runStore K events) scope row r ∧
        row.generation + 1 ≤ maxSafeInteger := by
  have hsound : Sound K (runStore K events) := sound_runStore K events
  refine ⟨fun h => h.latestOperation hsound hforce, fun ⟨hlatest, hmax⟩ => ?_⟩
  generalize runStore K events = db at *
  obtain ⟨a, ha, hasd, haop, haepoch⟩ := hlatest
  -- first the reservation: it succeeds, and its ticket will be accepted
  obtain ⟨expires, event, hexpires, hevent, hreserved⟩ :=
    reserveBoundary_succeeds hsound hforce.present hforce.idle hreserving ha hasd haepoch
  let call : Event δ := ⟨reserving, .reserveBoundary scope a.operationId row.generation ttl⟩
  have hreserve := execute_of_returns call ((returns_map ..).mpr ⟨_, hreserved, rfl⟩)
  have hsound₁ := sound_execute hsound call
  rw [hreserve] at hsound₁
  have haccepted := reservedTicket_accepted hsound hforce hreserving.freshTicket ha hasd haop
    haepoch hexpires (hrolling.clock 0) hrolling.early event
  generalize reservedTicket K reserving scope row a.operationId expires = ticket at *
  -- a reservation does not touch what keeps `r` in force, so the rollback succeeds after it
  have hforce₁ := hforce.withTicket ticket event
  obtain ⟨b, db₂, hrolled, hrestored⟩ := rollbackFresh_succeeds hsound₁ hforce₁ hmax haccepted
    hvalid hrolling.clock hrolling.freshReceipt (fun e he => by
      rcases List.mem_append.mp he with he | he
      · exact hrolling.freshEvent e he
      · obtain rfl := List.mem_singleton.mp he
        rw [hevent]
        exact hrolling.distinct.symm)
  have hpointer := rollbackFresh_pointer hsound₁ hforce₁ haccepted.scope hrolled
  refine ⟨a.operationId, row.generation, ticket, b, _, db₂, hreserve,
    execute_of_returns _ ((returns_map ..).mpr ⟨b, ?_, rfl⟩), hrestored ▸ hpointer⟩
  -- the call reaches the commit: it loads the receipt of `r` and finds no stored rollback
  obtain ⟨q, hq, hqscope, hpayload⟩ := hforce₁.stored
  have hload := loadReceiptDb_of_mem hsound₁ hq hqscope
  have hid := (hsound₁.tables.receiptAuthentic q hq).receiptId
  rw [hpayload] at hid hload
  have hid' : r.receiptId = q.receiptId := hid
  simp only [rollbackReceipt, returns_bind, returns_query]
  refine ⟨row, _, ⟨readRow_passes hsound₁ hforce₁.present, rfl⟩, _, _, ⟨hid' ▸ hload, rfl⟩, ?_⟩
  simp only [returns_bind, returns_select]
  exact ⟨none, _, ⟨hforce₁.no_rollback hsound₁, rfl⟩, hrolled⟩

section Sample

open Symbolic

/-- The receipt of the activation of the sample swap. -/
def swapReceipt : ActivationReceipt Hash :=
  activationOf (preparedOf "A" "op1" "p1" "base" "next" 0) "r1" "t1"

/-- The sample swap up to its activation. -/
def activatedRun : List (Event Hash) := initializeCall "A" 1 "a1" :: swapRun.take 5

/-- One more action is begun and completed after the activation. -/
def supersededRun : List (Event Hash) :=
  activatedRun ++ [beginCall "A" "op2" 6 "a6", endCall "A" "op2" 2 7 false "a7"]

/-- The activation of the sample swap is in force when it is the only receipt. -/
theorem inForce_of_sole {events : List (Event Hash)}
    (hpresent : selectScope (runStore keyring events) (scopeTerm (scopeOf "A")) =
      some (sampleRow events))
    (hidle : (sampleRow events).actionState = .idle)
    (hpayloads : (runStore keyring events).receipts.map (fun q => (q.scopeDigest, q.payload)) =
      [(scopeTerm (scopeOf "A"), .activation swapReceipt)])
    (hgeneration : (sampleRow events).generation = swapReceipt.generationAfter)
    (hactive : (sampleRow events).activeJcs = swapReceipt.newBinding) :
    InForce keyring (runStore keyring events) (scopeOf "A") (sampleRow events) swapReceipt where
  present := hpresent
  idle := hidle
  stored := by
    have hmem : (scopeTerm (scopeOf "A"), ReceiptPayload.activation swapReceipt) ∈
        (runStore keyring events).receipts.map (fun q => (q.scopeDigest, q.payload)) := by
      rw [hpayloads]
      exact List.mem_singleton_self _
    obtain ⟨q, hq, heq⟩ := List.mem_map.mp hmem
    exact ⟨q, hq, congrArg Prod.fst heq, congrArg Prod.snd heq⟩
  generation := hgeneration
  active := hactive
  -- the only receipt is an activation, so no rollback of it stands
  standing := by
    intro q hq b _ hb
    have hmem := List.mem_map_of_mem (f := fun q => (q.scopeDigest, q.payload)) hq
    rw [hpayloads, List.mem_singleton, hb] at hmem
    cases congrArg Prod.snd hmem

/-- Right after its activation the sample swap can be undone. -/
theorem reversible_iff_activatedRun :
    Reversible keyring (runStore keyring activatedRun) (scopeOf "A") (sampleRow activatedRun)
      swapReceipt (ambient 6 "t2" "a6") 30000000 (ambient 7 "r2" "a7") fun _ => true := by
  have hforce : InForce keyring (runStore keyring activatedRun) (scopeOf "A")
      (sampleRow activatedRun) swapReceipt :=
    inForce_of_sole (by decide +kernel) (by decide +kernel) (by decide +kernel)
      (by decide +kernel) (by decide +kernel)
  have hlatest : LatestOperation keyring (runStore keyring activatedRun) (scopeOf "A")
      (sampleRow activatedRun) swapReceipt := by
    unfold LatestOperation
    decide +kernel
  refine (reversible_iff activatedRun (ambient 6 "t2" "a6") (ambient 7 "r2" "a7") 30000000
    (fun _ => true) hforce ?_ ?_ rfl).mpr ⟨hlatest, by decide +kernel⟩
  · exact ⟨by decide, by decide, by decide, by decide +kernel, by decide +kernel⟩
  · exact ⟨fun _ => rfl, by decide, by decide +kernel, by decide +kernel, by decide⟩

/-- Once another action was begun and completed, no reservation leads to a rollback of the
activation, although it is still in force. -/
theorem not_reversible_supersededRun :
    ∃ row, InForce keyring (runStore keyring supersededRun) (scopeOf "A") row swapReceipt ∧
      ∀ reserving ttl rollingBack validator,
        ¬ Reversible keyring (runStore keyring supersededRun) (scopeOf "A") row swapReceipt
          reserving ttl rollingBack validator := by
  have hforce : InForce keyring (runStore keyring supersededRun) (scopeOf "A")
      (sampleRow supersededRun) swapReceipt :=
    inForce_of_sole (by decide +kernel) (by decide +kernel) (by decide +kernel)
      (by decide +kernel) (by decide +kernel)
  refine ⟨_, hforce, fun reserving ttl rollingBack validator h => ?_⟩
  have hlatest := (h.latestOperation (sound_runStore keyring supersededRun) hforce).1
  have hnot : ¬ LatestOperation keyring (runStore keyring supersededRun) (scopeOf "A")
      (sampleRow supersededRun) swapReceipt := by
    unfold LatestOperation
    decide +kernel
  exact hnot hlatest

end Sample

end ContractCapsule.Store
