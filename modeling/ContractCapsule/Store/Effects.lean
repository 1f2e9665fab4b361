import ContractCapsule.Store.System

/-!
# What a Committed Call Did

`Applies K env db change db'` lists, once for all, what a call that returns can
have done to the tables and what it had checked before. `execute_applies` reads
it off the text of the operations; everything proved about runs goes through it.
-/

namespace ContractCapsule.Store

open Library

variable {δ : Type} [DecidableEq δ]

/-! ## Section 1: Changes -/

/-- The changes a call can commit. -/
inductive Change (δ : Type) where
  | nothing
  | initialized (scopeDigest : δ) (binding : ActiveBinding δ)
  | begun (scopeDigest : δ) (operationId : String) (requestDigest : DigestText δ)
  | settled (scopeDigest : δ) (operationId : String) (target : ActionState)
  | reserved (ticket : BoundaryTicket δ)
  | consumed (ticket : BoundaryTicket δ)
  | advanced (ticket : BoundaryTicket δ) (receipt : ReceiptPayload δ)
  | saved (record : PreparedReplacement δ)

/-- The receipt continues the scope row it was made from. -/
inductive Establishes (K : Keyring δ) (db : Db δ) (row : ScopeRow δ) : ReceiptPayload δ → Prop
  | activation (r : ActivationReceipt δ) (p : PreparedRow δ)
      (hprepared : p ∈ db.prepared) (hpscope : p.payload.scopeDigest = row.scopeDigest)
      (hop : r.operationId = p.payload.operationId)
      (hrequest : r.requestDigest = p.payload.requestDigest)
      (hid : r.preparedId = p.preparedId)
      (hfirst : selectReceiptOf db row.scopeDigest r.operationId .activate = none)
      (hbefore : r.generationBefore = row.generation)
      (hold : r.oldBinding = row.activeJcs) : Establishes K db row (.activation r)
  | rollback (r : RollbackReceipt δ) (s : ReceiptRow δ) (source : ActivationReceipt δ)
      (hsource : s ∈ db.receipts) (hsscope : s.scopeDigest = row.scopeDigest)
      (hpayload : s.payload = .activation source)
      (hcurrent : row.generation = source.generationAfter)
      (hop : r.operationId = source.operationId)
      (hid : r.sourceReceiptId = source.receiptId)
      (hfirst : selectReceiptOf db row.scopeDigest r.operationId .rollback = none)
      (hbefore : r.generationBefore = row.generation)
      (hrestored : r.restoredBinding = source.oldBinding.atGeneration (row.generation + 1)) :
      Establishes K db row (.rollback r)

/-- The position of the clock reading that the ticket of a receipt was checked against. -/
def ReceiptPayload.ticketReading : ReceiptPayload δ → ℕ
  | .activation _ => 1
  | .rollback _ => 0

/-- The row a receipt is stored in. -/
def receiptRowOf (scopeDigest : δ) (receipt : ReceiptPayload δ) (createdAt : Timestamp) :
    ReceiptRow δ :=
  ⟨receipt.receiptId, scopeDigest, receipt.operationId, receipt.kind, receipt.requestDigest,
    receipt, receipt.signature, createdAt⟩

/-- The rows of a ticket after it is spent. -/
def spend (ticket : BoundaryTicket δ) (before after : δ) (tickets : List (TicketRow δ)) :
    List (TicketRow δ) :=
  updateRows (TicketRow.isConsumable ticket.ticketId before) (TicketRow.consume after) tickets

/-- What a change did to the tables, and what had been checked. -/
inductive Applies (K : Keyring δ) (env : Ambient δ) (db : Db δ) : Change δ → Db δ → Prop
  | nothing : Applies K env db .nothing db
  | initialized (row : ScopeRow δ) (event : AuditRow δ)
      (hnew : ∀ r ∈ db.scopes, r.scopeDigest ≠ row.scopeDigest)
      (hverified : RowVerified K row) (hgeneration : row.generation = 0)
      (hidle : row.actionState = .idle) (hepoch : row.actionEpoch = 0)
      (hevent : event.scopeDigest = row.scopeDigest) :
      Applies K env db (.initialized row.scopeDigest row.activeJcs)
        { db with scopes := db.scopes ++ [row], audit := db.audit ++ [event] }
  | begun (row : ScopeRow δ) (operationId : String) (requestDigest : DigestText δ)
      (stateSig actionSig : δ) (updatedAt : Timestamp) (event : AuditRow δ)
      (hrow : selectScope db row.scopeDigest = some row) (hverified : RowVerified K row)
      (hidle : row.actionState = .idle)
      (hnew : selectAction db row.scopeDigest operationId = none)
      (hrow' : RowVerified K
        (row.begin (row.actionEpoch + 1) operationId stateSig updatedAt))
      (haction : ActionVerified K ⟨row.scopeDigest, operationId, requestDigest,
        row.actionEpoch + 1, .running, none, none, actionSig⟩)
      (hevent : event.scopeDigest = row.scopeDigest) :
      Applies K env db (.begun row.scopeDigest operationId requestDigest)
        { db with
          scopes := updateRows (ScopeRow.isOf row.scopeDigest)
            (ScopeRow.begin (row.actionEpoch + 1) operationId stateSig updatedAt) db.scopes
          actions := db.actions ++ [⟨row.scopeDigest, operationId, requestDigest,
            row.actionEpoch + 1, .running, none, none, actionSig⟩]
          audit := db.audit ++ [event] }
  | settled (row : ScopeRow δ) (action : ActionRow δ) (target : ActionState)
      (finish : ActionRow δ → ActionRow δ) (stateSig : δ) (updatedAt : Timestamp)
      (event : AuditRow δ)
      (hrow : selectScope db row.scopeDigest = some row) (hverified : RowVerified K row)
      (haction : selectAction db row.scopeDigest action.operationId = some action)
      (hstate : action.state = row.actionState) (hopen : row.actionState ≠ .idle)
      (htarget : target ≠ .running)
      (hrow' : RowVerified K (row.settle target stateSig updatedAt))
      (haction' : ActionVerified K (finish action))
      (hkeep : ∀ a : ActionRow δ, (finish a).scopeDigest = a.scopeDigest ∧
        (finish a).operationId = a.operationId ∧ (finish a).requestDigest = a.requestDigest ∧
        (finish a).actionEpoch = a.actionEpoch ∧ (finish a).state = target)
      (hevent : event.scopeDigest = row.scopeDigest) :
      Applies K env db (.settled row.scopeDigest action.operationId target)
        { db with
          scopes := updateRows (ScopeRow.isOf row.scopeDigest)
            (ScopeRow.settle target stateSig updatedAt) db.scopes
          actions := updateRows (ActionRow.isAt row.scopeDigest action.operationId) finish
            db.actions
          audit := db.audit ++ [event] }
  | reserved (row : ScopeRow δ) (ticket : BoundaryTicket δ) (recordSignature : δ)
      (event : AuditRow δ)
      (hrow : selectScope db row.scopeDigest = some row) (hidle : row.actionState = .idle)
      (hscope : ticket.scopeDigest = row.scopeDigest)
      (hgeneration : ticket.expectedGeneration = row.generation)
      (hepoch : ticket.actionEpoch = row.actionEpoch)
      (hfresh : ∀ t ∈ db.tickets, t.ticketId ≠ ticket.ticketId)
      (hevent : event.scopeDigest = row.scopeDigest) :
      Applies K env db (.reserved ticket)
        { db with
          tickets := db.tickets ++
            [⟨ticket.toBoundaryBody, ticket.signature, false, recordSignature⟩]
          audit := db.audit ++ [event] }
  | consumed (row : ScopeRow δ) (ticket : BoundaryTicket δ) (before after : δ)
      (event : AuditRow δ)
      (hrow : selectScope db row.scopeDigest = some row)
      (haccepted : TicketAccepted K (env.clock 0) row.scopeDigest ticket row none none db)
      (hspent : db.tickets.countP (TicketRow.isConsumable ticket.ticketId before) = 1)
      (hevent : event.scopeDigest = row.scopeDigest) :
      Applies K env db (.consumed ticket)
        { db with
          tickets := spend ticket before after db.tickets
          audit := db.audit ++ [event] }
  | advanced (row : ScopeRow δ) (ticket : BoundaryTicket δ) (receipt : ReceiptPayload δ)
      (stateSig before after : δ) (updatedAt createdAt : Timestamp) (event : AuditRow δ)
      (hrow : selectScope db row.scopeDigest = some row) (hverified : RowVerified K row)
      (haccepted : TicketAccepted K (env.clock receipt.ticketReading) row.scopeDigest ticket row
        (some receipt.operationId) (some receipt.requestDigest) db)
      (hestablishes : Establishes K db row receipt)
      (hticket : receipt.ticketId = ticket.ticketId)
      (hgeneration : receipt.generationAfter = row.generation + 1)
      (hrow' : RowVerified K (row.advance receipt.installed stateSig updatedAt))
      (hspent : db.tickets.countP (TicketRow.isConsumable ticket.ticketId before) = 1)
      (hfresh : ∀ r ∈ db.receipts, r.receiptId ≠ receipt.receiptId)
      (hauthentic : (receiptRowOf row.scopeDigest receipt createdAt).Authentic K)
      (hevent : event.scopeDigest = row.scopeDigest) :
      Applies K env db (.advanced ticket receipt)
        { db with
          scopes := updateRows (ScopeRow.isAt row.scopeDigest row.generation)
            (ScopeRow.advance receipt.installed stateSig updatedAt) db.scopes
          tickets := spend ticket before after db.tickets
          receipts := db.receipts ++ [receiptRowOf row.scopeDigest receipt createdAt]
          audit := db.audit ++ [event] }
  | saved (row : ScopeRow δ) (p : PreparedRow δ)
      (hrow : selectScope db p.scopeDigest = some row)
      (hfresh : ∀ q ∈ db.prepared, q.preparedId ≠ p.preparedId)
      (hauthentic : p.Authentic K) (hop : p.operationId = p.payload.operationId) :
      Applies K env db (.saved p.payload) { db with prepared := db.prepared ++ [p] }

/-! ## Section 2: Rows the statements write -/

variable {K : Keyring δ} {env : Ambient δ} {db db' : Db δ} {row : ScopeRow δ} {signature : δ}
  {updatedAt : Timestamp}

omit [DecidableEq δ] in
theorem RowVerified.begin {epoch : ℕ} {operationId : String} (h : RowVerified K row)
    (hop : operationId ≠ "")
    (hsig : stateSignature K row.scopeDigest row.scopeJcs row.activeJcs row.generation .running
      epoch (some operationId) = .ok signature) :
    RowVerified K (row.begin epoch operationId signature updatedAt) :=
  ⟨h.scope, h.generation, fun _ => ⟨operationId, rfl, hop⟩, fun hr => absurd rfl hr, hsig⟩

omit [DecidableEq δ] in
theorem RowVerified.settle {target : ActionState} (h : RowVerified K row)
    (htarget : target ≠ .running)
    (hsig : stateSignature K row.scopeDigest row.scopeJcs row.activeJcs row.generation target
      row.actionEpoch none = .ok signature) :
    RowVerified K (row.settle target signature updatedAt) :=
  ⟨h.scope, h.generation, fun hr => absurd hr htarget, fun _ => rfl, hsig⟩

omit [DecidableEq δ] in
/-- The pointer moves without the action columns, which the new signature names as idle. -/
theorem RowVerified.advance {binding : ActiveBinding δ} (h : RowVerified K row)
    (hidle : row.actionState = .idle)
    (hsig : stateSignature K row.scopeDigest row.scopeJcs binding binding.generation .idle
      row.actionEpoch none = .ok signature) :
    RowVerified K (row.advance binding signature updatedAt) := by
  have hnone : row.currentOperationId = none := h.settled (by simp [hidle])
  refine ⟨h.scope, rfl, fun hr => ?_, fun _ => hnone, ?_⟩
  · have hrun : row.actionState = .running := hr
    rw [hidle] at hrun
    cases hrun
  · rw [ScopeRow.advance, hidle, hnone]
    exact hsig

/-! ## Section 3: Actions -/

theorem initializeScope_applies {scope : RuntimeScope} {binding b : ActiveBinding δ}
    {proof : BootstrapProof δ}
    (h : Returns (initializeScope K env scope binding proof) db b db') :
    b = binding ∧ Applies K env db (.initialized (K.scopeDigest scope) binding) db' := by
  simp only [initializeScope, returns_bind, returns_check, returns_select, returns_insertScope,
    returns_audit, returns_pure, raiseIf_eq_ok, encodeBinding_eq_ok, not_not, and_assoc,
    exists_and_left, exists_eq_left, exists_eq_left', exists_const] at h
  obtain ⟨_, _, _, _, hgen, _, _, _, _, sig, hsig, updatedAt, _, hnew, _, ⟨_, _, _, _, _, rfl⟩, rfl,
    rfl⟩ := h
  have hver : RowVerified K ⟨K.scopeDigest scope, scope, binding, binding.generation, .idle, 0, none,
      sig, updatedAt⟩ := by
    refine ⟨rfl, rfl, fun hrunning => ?_, fun _ => rfl, hsig⟩
    cases hrunning
  exact ⟨rfl, Applies.initialized _ _ hnew hver hgen rfl rfl rfl⟩

theorem startAction_applies {scopeDigest : δ} {operationId : String}
    {requestDigest : DigestText δ} {lease : ActionLease δ} (hop : operationId ≠ "")
    (hrow : selectScope db scopeDigest = some row) (hver : RowVerified K row)
    (hnew : selectAction db scopeDigest operationId = none)
    (h : Returns (startAction K env scopeDigest row operationId requestDigest) db lease db') :
    lease.replayed = false ∧ Applies K env db (.begun scopeDigest operationId requestDigest) db' := by
  obtain rfl := (selectScope_eq_some hrow).2
  simp only [startAction, returns_bind, returns_check, returns_updateScope,
    returns_insertAction, returns_audit, returns_pure, raiseIf_eq_ok, and_assoc, exists_and_left,
    exists_eq_left, exists_eq_left', exists_const] at h
  obtain ⟨hrun, hunc, stateSig, hsig, updatedAt, _, actionSig, hasig, _, _, ⟨_, _, _, _, _, rfl⟩,
    _, _, rfl, rfl⟩ := h
  have hidle : row.actionState = .idle := by
    cases hs : row.actionState with
    | idle => rfl
    | running => exact absurd hs hrun
    | uncertain => exact absurd hs hunc
  exact ⟨rfl, Applies.begun row operationId requestDigest stateSig actionSig updatedAt _ hrow hver
    hidle hnew (hver.begin hop hsig) hasig rfl⟩

omit [DecidableEq δ] in
theorem replayAction_eq_ok [DecidableEq δ] {scopeDigest : δ} {existing : ActionRow δ}
    {operationId : String} {requestDigest : DigestText δ} {lease : ActionLease δ}
    (h : replayAction K scopeDigest row existing operationId requestDigest = .ok lease) :
    lease.replayed = true := by
  simp only [replayAction, Except.bind_eq_ok, Except.pure_eq_ok] at h
  obtain ⟨_, _, _, _, _, _, _, _, _, _, rfl⟩ := h
  rfl

theorem beginAction_applies {scope : RuntimeScope} {operationId : String}
    {requestDigest : DigestText δ} {lease : ActionLease δ}
    (h : Returns (beginAction K env scope operationId requestDigest) db lease db') :
    (lease.replayed = true ∧ db' = db) ∨
      (lease.replayed = false ∧
        Applies K env db (.begun (K.scopeDigest scope) operationId requestDigest) db') := by
  simp only [beginAction, returns_bind, returns_check, returns_query, returns_select,
    raiseIf_eq_ok, and_assoc, exists_and_left, exists_eq_left', exists_const] at h
  obtain ⟨hop, row, hread, hrest⟩ := h
  obtain ⟨hrow, hver⟩ := readRow_eq_ok hread
  cases hexisting : selectAction db (K.scopeDigest scope) operationId with
  | some existing =>
    simp only [hexisting, returns_check] at hrest
    exact .inl ⟨replayAction_eq_ok hrest.1, hrest.2.symm⟩
  | none =>
    simp only [hexisting] at hrest
    exact .inr (startAction_applies hop hrow hver hexisting hrest)

/-- The common part of an end and a reconciliation. -/
theorem Applies.settle {scopeDigest : δ} {operationId : String} {action : ActionRow δ}
    {target : ActionState} {finish : ActionRow δ → ActionRow δ} {stateSig : δ}
    {event : AuditRow δ}
    (hrow : selectScope db scopeDigest = some row) (hver : RowVerified K row)
    (haction : selectAction db scopeDigest operationId = some action)
    (hstate : action.state = row.actionState) (hopen : row.actionState ≠ .idle)
    (htarget : target ≠ .running)
    (hsig : stateSignature K scopeDigest row.scopeJcs row.activeJcs row.generation target
      row.actionEpoch none = .ok stateSig)
    (hverified : ActionVerified K (finish action))
    (hkeep : ∀ a : ActionRow δ, (finish a).scopeDigest = a.scopeDigest ∧
      (finish a).operationId = a.operationId ∧ (finish a).requestDigest = a.requestDigest ∧
      (finish a).actionEpoch = a.actionEpoch ∧ (finish a).state = target)
    (hevent : event.scopeDigest = scopeDigest) :
    Applies K env db (.settled scopeDigest operationId target)
      { db with
        scopes := updateRows (ScopeRow.isOf scopeDigest)
          (ScopeRow.settle target stateSig updatedAt) db.scopes
        actions := updateRows (ActionRow.isAt scopeDigest operationId) finish db.actions
        audit := db.audit ++ [event] } := by
  obtain rfl := (selectScope_eq_some hrow).2
  obtain rfl := (selectAction_eq_some haction).2.2
  exact Applies.settled row action target finish stateSig updatedAt event hrow hver haction hstate
    hopen htarget (hver.settle htarget hsig) hverified hkeep hevent

theorem endAction_applies {scope : RuntimeScope} {lease : ActionLease δ} {uncertain : Bool}
    {outcome : Bytes} {u : Unit}
    (h : Returns (endAction K env scope lease uncertain outcome) db u db') :
    Applies K env db (.settled (K.scopeDigest scope) lease.operationId
      (if uncertain then .uncertain else .idle)) db' := by
  simp only [endAction, returns_bind, returns_check, returns_query, returns_updateScope,
    returns_updateAction, returns_audit, raiseIf_eq_ok, orRaise_eq_ok, not_or, not_not, and_assoc,
    exists_and_left, exists_eq_left, exists_eq_left', exists_const] at h
  obtain ⟨hscope, _, _, row, hread, hrun, _, _, action, haction, harun, hepoch, hrequest, stateSig,
    hsig, updatedAt, _, actionSig, hasig, _, _, _, _, _, rfl⟩ := h
  obtain ⟨hrow, hver⟩ := readRow_eq_ok hread
  rw [← hscope] at hrow ⊢
  obtain ⟨_, hasd, hop⟩ := selectAction_eq_some haction
  have htarget : (if uncertain then ActionState.uncertain else .idle) ≠ .running := by
    cases uncertain <;> decide
  have hverified : ActionVerified K (action.finish (if uncertain then .uncertain else .idle)
      (K.digestBytes outcome) outcome actionSig) := by
    rw [ActionVerified, ActionRow.finish, hasd, hop, hrequest, hepoch]
    exact hasig
  exact Applies.settle hrow hver haction (harun.trans hrun.symm) (by simp [hrun]) htarget hsig
    hverified (fun _ => ⟨rfl, rfl, rfl, rfl, rfl⟩) rfl

theorem selectUncertain_eq_ok {scopeDigest : δ} {operationId : String} {action : ActionRow δ}
    (h : selectUncertain db row scopeDigest operationId = .ok action) :
    row.actionState = .uncertain ∧ selectAction db scopeDigest operationId = some action ∧
      action.state = .uncertain := by
  simp only [selectUncertain, Except.bind_eq_ok, raiseIf_eq_ok, orRaise_eq_ok, not_not,
    Except.pure_eq_ok] at h
  obtain ⟨_, hunc, _, hsel, _, haunc, rfl⟩ := h
  exact ⟨hunc, hsel, haunc⟩

theorem reconcile_applies {scope : RuntimeScope} {proof : ReconciliationProof δ} {u : Unit}
    (h : Returns (reconcile K env scope proof) db u db') :
    Applies K env db (.settled (K.scopeDigest scope) proof.operationId .idle) db' := by
  simp only [reconcile, returns_bind, returns_check, returns_query, returns_updateScope,
    returns_updateAction, returns_audit, raiseIf_eq_ok, and_assoc, exists_and_left,
    exists_eq_left, exists_eq_left', exists_const] at h
  obtain ⟨_, _, _, _, row, hread, action, huncertain, _, stateSig, hsig, updatedAt, _, actionSig,
    hasig, _, _, _, _, _, rfl⟩ := h
  obtain ⟨hrow, hver⟩ := readRow_eq_ok hread
  obtain ⟨hunc, haction, haunc⟩ := selectUncertain_eq_ok huncertain
  obtain ⟨_, hasd, hop⟩ := selectAction_eq_some haction
  have hverified : ActionVerified K (action.clear actionSig) := by
    rw [ActionVerified, ActionRow.clear, hasd, hop]
    exact hasig
  exact Applies.settle hrow hver haction (haunc.trans hunc.symm) (by simp [hunc]) (by decide) hsig
    hverified (fun _ => ⟨rfl, rfl, rfl, rfl, rfl⟩) rfl

/-! ## Section 4: Boundaries -/

theorem reserveBoundary_applies {scope : RuntimeScope} {operationId : String}
    {expectedGeneration ttl : ℤ} {ticket : BoundaryTicket δ}
    (h : Returns (reserveBoundary K env scope operationId expectedGeneration ttl) db ticket db') :
    ticket.scopeDigest = K.scopeDigest scope ∧ Applies K env db (.reserved ticket) db' := by
  simp only [reserveBoundary, returns_bind, returns_check, returns_query, returns_insertTicket,
    returns_audit, returns_pure, raiseIf_eq_ok, not_not, and_assoc, exists_and_left,
    exists_eq_left, exists_eq_left', exists_const] at h
  obtain ⟨_, _, row, hread, _, hidle, _, action, _, _, deadline, _, expires, _, signature, _,
    recordSignature, _, hfresh, _, ⟨_, _, _, _, _, rfl⟩, rfl, rfl⟩ := h
  obtain ⟨hrow, _⟩ := readRow_eq_ok hread
  have hsd := (selectScope_eq_some hrow).2
  exact ⟨rfl, Applies.reserved row _ recordSignature _ (hsd ▸ hrow) hidle hsd.symm rfl rfl hfresh
    hsd.symm⟩

/-- Spending a ticket rewrites the ticket table and nothing else. -/
theorem spendTicket_returns {ticket : BoundaryTicket δ} {u : Unit}
    (h : Returns (spendTicket K ticket) db u db') :
    ∃ before after, db.tickets.countP (TicketRow.isConsumable ticket.ticketId before) = 1 ∧
      db' = { db with tickets := spend ticket before after db.tickets } := by
  simp only [spendTicket, returns_bind, returns_check, returns_updateTicketConsumed,
    raiseIf_eq_ok, not_not, and_assoc, exists_and_left, exists_eq_left', exists_eq_left] at h
  obtain ⟨after, _, before, _, hcount, rfl⟩ := h
  exact ⟨before, after, hcount, rfl⟩

theorem consumeBoundary_applies {scope : RuntimeScope} {ticket t : BoundaryTicket δ}
    (h : Returns (consumeBoundary K env scope ticket) db t db') :
    t = ticket ∧ ticket.scopeDigest = K.scopeDigest scope ∧
      Applies K env db (.consumed ticket) db' := by
  simp only [consumeBoundary, returns_bind, returns_check, returns_query, returns_audit,
    returns_pure, raiseIf_eq_ok, and_assoc, exists_and_left, exists_eq_left',
    exists_const] at h
  obtain ⟨_, _, _, _, row, hread, _, haccepted, _, _, hspend, _, ⟨_, _, _, _, _, rfl⟩, rfl, rfl⟩ :=
    h
  obtain ⟨hrow, _⟩ := readRow_eq_ok hread
  obtain ⟨before, after, hspent, rfl⟩ := spendTicket_returns hspend
  have hsd := (selectScope_eq_some hrow).2
  have haccepted' := checkTicketDb_eq_ok.mp haccepted
  rw [← hsd] at hrow haccepted'
  exact ⟨rfl, haccepted'.scope.trans hsd,
    Applies.consumed row ticket before after _ hrow haccepted' hspent hsd.symm⟩

/-! ## Section 5: Receipts -/

theorem commitReceipt_applies {scopeDigest : δ} {ticket : BoundaryTicket δ} {c : ℕ}
    {receipt : ReceiptPayload δ} {swapFailed : StoreError} {event : String → AuditEvent δ}
    {u : Unit} (hrow : selectScope db scopeDigest = some row) (hver : RowVerified K row)
    (haccepted : TicketAccepted K (env.clock receipt.ticketReading) scopeDigest ticket row
      (some receipt.operationId) (some receipt.requestDigest) db)
    (hestablishes : Establishes K db row receipt) (hscope : receipt.scopeDigest = scopeDigest)
    (hticket : receipt.ticketId = ticket.ticketId)
    (hgeneration : receipt.generationAfter = row.generation + 1)
    (hsigned : K.sign receipt.signed = .ok receipt.signature)
    (h : Returns (commitReceipt K env c scopeDigest row ticket receipt swapFailed event) db u
      db') :
    Applies K env db (.advanced ticket receipt) db' := by
  obtain rfl := (selectScope_eq_some hrow).2
  simp only [commitReceipt, returns_bind, returns_check, returns_updateScopeAt,
    returns_insertReceipt, returns_audit, encodeBinding_eq_ok, raiseIf_eq_ok, and_assoc,
    exists_and_left, exists_eq_left, exists_eq_left', exists_const] at h
  -- the ticket is spent after the row is updated, and before the receipt is written
  obtain ⟨_, stateSig, hsig, updatedAt, _, _, _, _, hspend, createdAt, _, hfresh, _, _, _, _, _,
    rfl⟩ := h
  obtain ⟨before, after, hspent, rfl⟩ := spendTicket_returns hspend
  have hauthentic : (receiptRowOf row.scopeDigest receipt createdAt).Authentic K :=
    ⟨rfl, hsigned, rfl, hscope, rfl, rfl, rfl⟩
  exact Applies.advanced row ticket receipt stateSig before after updatedAt createdAt _ hrow hver
    haccepted hestablishes hticket hgeneration (hver.advance haccepted.idle hsig) hspent hfresh
    hauthentic rfl

omit [DecidableEq δ] in
theorem activationBody_eq_ok {receiptId : String} {scopeDigest : δ}
    {record : PreparedReplacement δ} {ticketId : String} {approvalDigest : DigestText δ}
    {body : ActivationBody δ}
    (h : activationBody receiptId scopeDigest row record ticketId approvalDigest = .ok body) :
    body.scopeDigest = scopeDigest ∧ body.operationId = record.operationId ∧
      body.preparedId = record.preparedId ∧ body.ticketId = ticketId ∧
      body.requestDigest = record.requestDigest ∧ body.oldBinding = row.activeJcs ∧
      body.generationBefore = row.generation ∧ body.generationAfter = row.generation + 1 := by
  simp only [activationBody, Except.bind_eq_ok] at h
  obtain ⟨_, _, h⟩ := h
  split at h
  · rename_i hgen
    obtain rfl := Except.ok.inj h
    exact ⟨rfl, rfl, rfl, rfl, rfl, rfl, rfl, hgen.1⟩
  · cases h

theorem activateFresh_applies {scope : RuntimeScope} {ticket : BoundaryTicket δ}
    {approvalDigest : DigestText δ} {p : PreparedRow δ}
    {validator : Option (PreparedReplacement δ → DigestText δ → Bool)}
    {receipt : ActivationReceipt δ}
    (hrow : selectScope db (K.scopeDigest scope) = some row) (hver : RowVerified K row)
    (hprepared : p ∈ db.prepared) (hpscope : p.scopeDigest = K.scopeDigest scope)
    (hauthentic : p.Authentic K)
    (hfirst : selectReceiptOf db (K.scopeDigest scope) p.payload.operationId .activate = none)
    (h : Returns (activateFresh K env scope row p.payload ticket approvalDigest validator) db
      receipt db') :
    receipt.preparedId = p.preparedId ∧ receipt.scopeDigest = K.scopeDigest scope ∧
      Applies K env db (.advanced ticket (.activation receipt)) db' := by
  simp only [activateFresh, commitActivation, returns_bind, returns_check, returns_query,
    returns_pure, and_assoc, exists_and_left, exists_eq_left'] at h
  obtain ⟨_, _, _, _, _, haccepted, _, _, _, _, body, hbody, signature, hsign, _, _, hcommit, rfl,
    rfl⟩ := h
  obtain ⟨hscope, hop, hid, hticket, hrequest, hold, hbefore, hafter⟩ := activationBody_eq_ok hbody
  have hsd := (selectScope_eq_some hrow).2
  refine ⟨hid.trans hauthentic.preparedId, hscope, ?_⟩
  -- what is left is that the body establishes the scope that the prepared row describes
  refine commitReceipt_applies hrow hver ?_ ?_ hscope hticket hafter hsign hcommit
  · show TicketAccepted K _ _ ticket row (some body.operationId) (some body.requestDigest) db
    rw [hop, hrequest]
    exact checkTicketDb_eq_ok.mp haccepted
  · refine Establishes.activation _ p hprepared ?_ hop hrequest ?_ ?_ hbefore hold
    · rw [hauthentic.scopeDigest, hpscope, hsd]
    · exact hid.trans hauthentic.preparedId
    · rw [hsd]
      exact hop ▸ hfirst

theorem findActivationReplay_eq_none {scope : RuntimeScope} {record : PreparedReplacement δ}
    (h : findActivationReplay K scope record db = .ok none) :
    selectReceiptOf db (K.scopeDigest scope) record.operationId .activate = none := by
  unfold findActivationReplay at h
  cases hsel : selectReceiptOf db (K.scopeDigest scope) record.operationId .activate with
  | none => rfl
  | some existing =>
    simp only [hsel, Except.bind_eq_ok] at h
    obtain ⟨model, _, h⟩ := h
    cases model with
    | rollback r => cases h
    | activation r =>
      simp only [Except.bind_eq_ok, Except.pure_eq_ok] at h
      obtain ⟨_, _, _, _, h⟩ := h
      cases h

/-- A replayed activation is a stored one, made from the record at hand. -/
theorem findActivationReplay_eq_some {scope : RuntimeScope} {record : PreparedReplacement δ}
    {receipt : ActivationReceipt δ}
    (h : findActivationReplay K scope record db = .ok (some receipt)) :
    receipt.preparedId = record.preparedId ∧ ∃ q ∈ db.receipts, q.Authentic K ∧
      q.scopeDigest = K.scopeDigest scope ∧ q.payload = .activation receipt := by
  unfold findActivationReplay at h
  cases hsel : selectReceiptOf db (K.scopeDigest scope) record.operationId .activate with
  | none => simp [hsel] at h
  | some existing =>
    simp only [hsel, Except.bind_eq_ok, loadReceiptDb_eq_ok] at h
    obtain ⟨_, ⟨q, hq, hauthentic, rfl⟩, h⟩ := h
    obtain ⟨hmem, hqscope, _⟩ := selectReceipt_eq_some hq
    cases hpayload : q.payload with
    | rollback r => simp [hpayload] at h
    | activation r =>
      simp only [hpayload, Except.bind_eq_ok, Except.pure_eq_ok, raiseIf_eq_ok, not_not,
        exists_const, Option.some.injEq] at h
      obtain ⟨_, hid, rfl⟩ := h
      exact ⟨hid, q, hmem, hauthentic, hqscope, hpayload⟩

theorem activatePrepared_applies {scope : RuntimeScope} {preparedId : String}
    {ticket : BoundaryTicket δ} {approvalDigest : DigestText δ}
    {validator : Option (PreparedReplacement δ → DigestText δ → Bool)}
    {receipt : ActivationReceipt δ}
    (h : Returns (activatePrepared K env scope preparedId ticket approvalDigest validator) db
      receipt db') :
    receipt.preparedId = preparedId ∧ receipt.scopeDigest = K.scopeDigest scope ∧
      ((db' = db ∧ ∃ q ∈ db.receipts, q.payload = .activation receipt) ∨
        Applies K env db (.advanced ticket (.activation receipt)) db') := by
  simp only [activatePrepared, returns_bind, returns_check, returns_query, loadPreparedDb_eq_ok,
    and_assoc, exists_and_left, exists_eq_left'] at h
  obtain ⟨_, _, row, hread, _, ⟨p, hsel, hauthentic, rfl⟩, replay, hreplay, hrest⟩ := h
  obtain ⟨hprepared, hpscope, hpid⟩ := selectPrepared_eq_some hsel
  -- an operation that is repeated gives its first receipt, and changes nothing
  cases replay with
  | some replay =>
    obtain ⟨rfl, rfl⟩ := (returns_pure ..).mp hrest
    obtain ⟨hid, q, hq, hqauthentic, hqscope, hqpayload⟩ := findActivationReplay_eq_some hreplay
    have hscope : replay.scopeDigest = q.scopeDigest := by
      have h := hqauthentic.scopeDigest
      rwa [hqpayload] at h
    exact ⟨hid.trans (hauthentic.preparedId.trans hpid), hscope.trans hqscope,
      .inl ⟨rfl, q, hq, hqpayload⟩⟩
  -- otherwise it is activated for the first time
  | none =>
    obtain ⟨hrow, hver⟩ := readRow_eq_ok hread
    obtain ⟨hid, hscope, happlies⟩ :=
      activateFresh_applies hrow hver hprepared hpscope hauthentic
        (findActivationReplay_eq_none hreplay) hrest
    exact ⟨hid.trans hpid, hscope, .inr happlies⟩

theorem rollbackFresh_applies {scope : RuntimeScope} {ticket : BoundaryTicket δ}
    {validator : Option (ActivationReceipt δ → Bool)} {s : ReceiptRow δ}
    {source : ActivationReceipt δ} {receipt : RollbackReceipt δ}
    (hrow : selectScope db (K.scopeDigest scope) = some row) (hver : RowVerified K row)
    (hsource : s ∈ db.receipts) (hsscope : s.scopeDigest = K.scopeDigest scope)
    (hpayload : s.payload = .activation source)
    (hfirst : selectReceiptOf db (K.scopeDigest scope) source.operationId .rollback = none)
    (h : Returns (rollbackFresh K env scope row source ticket validator) db receipt db') :
    receipt.operationId = source.operationId ∧ receipt.scopeDigest = K.scopeDigest scope ∧
      Applies K env db (.advanced ticket (.rollback receipt)) db' := by
  simp only [rollbackFresh, returns_bind, returns_check, returns_query, returns_pure,
    raiseIf_eq_ok, not_or, not_not, and_assoc, exists_and_left, exists_eq_left',
    exists_const] at h
  obtain ⟨hcurrent, _, _, haccepted, _, _, signature, hsign, _, _, hcommit, rfl, rfl⟩ := h
  have hsd := (selectScope_eq_some hrow).2
  refine ⟨rfl, rfl, commitReceipt_applies hrow hver (checkTicketDb_eq_ok.mp haccepted) ?_
    rfl rfl rfl hsign hcommit⟩
  refine Establishes.rollback _ s source hsource (hsscope.trans hsd.symm) hpayload hcurrent rfl rfl
    ?_ rfl rfl
  rw [hsd]
  exact hfirst

theorem replayRollback_eq_ok {scope : RuntimeScope} {existing : ReceiptRow δ}
    {receipt : RollbackReceipt δ} (h : replayRollback K scope existing db = .ok receipt) :
    loadReceiptDb K scope existing.receiptId db = .ok (.rollback receipt) := by
  simp only [replayRollback, Except.bind_eq_ok] at h
  obtain ⟨model, hload, h⟩ := h
  cases model with
  | activation r => cases h
  | rollback r => rw [hload, (Except.pure_eq_ok ..).mp h]

theorem rollbackReceipt_applies {scope : RuntimeScope} {receiptId : String}
    {ticket : BoundaryTicket δ} {validator : Option (ActivationReceipt δ → Bool)}
    {receipt : RollbackReceipt δ}
    (h : Returns (rollbackReceipt K env scope receiptId ticket validator) db receipt db') :
    ∃ s source, selectReceipt db (K.scopeDigest scope) receiptId = some s ∧
      s.payload = .activation source ∧
      ((db' = db ∧ ∃ existing,
          selectReceiptOf db (K.scopeDigest scope) source.operationId .rollback = some existing ∧
          loadReceiptDb K scope existing.receiptId db = .ok (.rollback receipt)) ∨
        (receipt.operationId = source.operationId ∧ receipt.scopeDigest = K.scopeDigest scope ∧
          Applies K env db (.advanced ticket (.rollback receipt)) db')) := by
  simp only [rollbackReceipt, returns_bind, returns_query, loadReceiptDb_eq_ok, and_assoc,
    exists_and_left, exists_eq_left'] at h
  obtain ⟨row, hread, _, ⟨s, hsel, _, rfl⟩, hrest⟩ := h
  obtain ⟨hrow, hver⟩ := readRow_eq_ok hread
  obtain ⟨hsource, hsscope, _⟩ := selectReceipt_eq_some hsel
  cases hpayload : s.payload with
  | rollback r => simp [hpayload] at hrest
  | activation source =>
    refine ⟨s, source, hsel, hpayload, ?_⟩
    simp only [hpayload, returns_bind, returns_select, and_assoc, exists_and_left,
      exists_eq_left'] at hrest
    -- an activation that was rolled back before is not rolled back again
    cases hexisting : selectReceiptOf db (K.scopeDigest scope) source.operationId .rollback with
    | some existing =>
      simp only [hexisting, returns_query] at hrest
      obtain ⟨hreplay, rfl⟩ := hrest
      exact .inl ⟨rfl, existing, rfl, replayRollback_eq_ok hreplay⟩
    | none =>
      simp only [hexisting] at hrest
      exact .inr (rollbackFresh_applies hrow hver hsource hsscope hpayload hexisting hrest)

theorem savePrepared_applies {record : PreparedReplacement δ} {u : Unit}
    (h : Returns (savePrepared K record) db u db') : Applies K env db (.saved record) db' := by
  simp only [savePrepared, returns_bind, returns_check, returns_query, returns_insertPrepared,
    encodePrepared_eq_ok, Keyring.sign_eq_ok, orRaise_eq_ok, and_assoc, exists_and_left,
    exists_eq_left'] at h
  obtain ⟨hold, hnew, _, stored, hstored, _, _, hfresh, rfl⟩ := h
  exact Applies.saved stored ⟨record.preparedId, record.scopeDigest, record.operationId, record,
    K.preparedDigest record, _, record.expiresAt⟩ hstored hfresh
    ⟨rfl, rfl, rfl, ⟨hold, hnew⟩, rfl⟩ rfl

/-! ## Section 6: Calls and their changes -/

/-- A call that returned without changing a row. -/
def Quiet : Call δ → Answer δ → Prop
  | .beginAction .., .lease lease => lease.replayed = true
  | .beginAction .., _ | .initializeScope .., _ | .endAction .., _ | .reconcile .., _
  | .reserveBoundary .., _ | .consumeBoundary .., _ | .savePrepared .., _ => False
  | _, _ => True

/-- The change a call commits when it returns an answer. -/
inductive Commits (K : Keyring δ) : Call δ → Answer δ → Change δ → Prop
  | quiet (call : Call δ) (answer : Answer δ) (h : Quiet call answer) :
      Commits K call answer .nothing
  | initialized (scope : RuntimeScope) (binding : ActiveBinding δ) (proof : BootstrapProof δ) :
      Commits K (.initializeScope scope binding proof) (.binding binding)
        (.initialized (K.scopeDigest scope) binding)
  | begun (scope : RuntimeScope) (operationId : String) (requestDigest : DigestText δ)
      (lease : ActionLease δ) (h : lease.replayed = false) :
      Commits K (.beginAction scope operationId requestDigest) (.lease lease)
        (.begun (K.scopeDigest scope) operationId requestDigest)
  | ended (scope : RuntimeScope) (lease : ActionLease δ) (uncertain : Bool) (outcome : Bytes) :
      Commits K (.endAction scope lease uncertain outcome) .done
        (.settled (K.scopeDigest scope) lease.operationId
          (if uncertain then .uncertain else .idle))
  | reconciled (scope : RuntimeScope) (proof : ReconciliationProof δ) :
      Commits K (.reconcile scope proof) .done
        (.settled (K.scopeDigest scope) proof.operationId .idle)
  | reserved (scope : RuntimeScope) (operationId : String) (expectedGeneration ttl : ℤ)
      (ticket : BoundaryTicket δ) (h : ticket.scopeDigest = K.scopeDigest scope) :
      Commits K (.reserveBoundary scope operationId expectedGeneration ttl) (.ticket ticket)
        (.reserved ticket)
  | consumed (scope : RuntimeScope) (ticket : BoundaryTicket δ)
      (h : ticket.scopeDigest = K.scopeDigest scope) :
      Commits K (.consumeBoundary scope ticket) (.ticket ticket) (.consumed ticket)
  | saved (record : PreparedReplacement δ) : Commits K (.savePrepared record) .done (.saved record)
  | activated (scope : RuntimeScope) (preparedId : String) (ticket : BoundaryTicket δ)
      (approvalDigest : DigestText δ)
      (validator : Option (PreparedReplacement δ → DigestText δ → Bool))
      (receipt : ActivationReceipt δ) (h : receipt.scopeDigest = K.scopeDigest scope) :
      Commits K (.activatePrepared scope preparedId ticket approvalDigest validator)
        (.receipt (.activation receipt)) (.advanced ticket (.activation receipt))
  | rolledBack (scope : RuntimeScope) (receiptId : String) (ticket : BoundaryTicket δ)
      (validator : Option (ActivationReceipt δ → Bool)) (receipt : RollbackReceipt δ)
      (h : receipt.scopeDigest = K.scopeDigest scope) :
      Commits K (.rollbackReceipt scope receiptId ticket validator)
        (.receipt (.rollback receipt)) (.advanced ticket (.rollback receipt))

/-- **Inversion**: a call that returns has committed one of the changes, after its checks. -/
theorem execute_commits {event : Event δ} {answer : Answer δ}
    (h : execute K db event = (.ok answer, db')) :
    ∃ change, Commits K event.call answer change ∧ Applies K event.ambient db change db' := by
  obtain ⟨env, call⟩ := event
  replace h : Returns (program K env call) db answer db' := (transaction_eq_ok ..).mp h
  cases call with
  | initializeScope scope binding proof =>
    obtain ⟨b, hb, rfl⟩ := (returns_map ..).mp h
    obtain ⟨rfl, happlies⟩ := initializeScope_applies hb
    exact ⟨_, .initialized .., happlies⟩
  | beginAction scope operationId requestDigest =>
    obtain ⟨lease, hlease, rfl⟩ := (returns_map ..).mp h
    -- a replayed lease is answered without a write
    rcases beginAction_applies hlease with ⟨hreplayed, rfl⟩ | ⟨hfresh, happlies⟩
    · exact ⟨_, .quiet _ _ hreplayed, .nothing⟩
    · exact ⟨_, .begun _ _ _ _ hfresh, happlies⟩
  | endAction scope lease uncertain outcome =>
    obtain ⟨_, hend, rfl⟩ := (returns_map ..).mp h
    exact ⟨_, .ended .., endAction_applies hend⟩
  | reconcile scope proof =>
    obtain ⟨_, hreconcile, rfl⟩ := (returns_map ..).mp h
    exact ⟨_, .reconciled .., reconcile_applies hreconcile⟩
  | reserveBoundary scope operationId expectedGeneration ttl =>
    obtain ⟨ticket, hreserve, rfl⟩ := (returns_map ..).mp h
    obtain ⟨hscope, happlies⟩ := reserveBoundary_applies hreserve
    exact ⟨_, .reserved _ _ _ _ _ hscope, happlies⟩
  | consumeBoundary scope ticket =>
    obtain ⟨t, hconsume, rfl⟩ := (returns_map ..).mp h
    obtain ⟨rfl, hscope, happlies⟩ := consumeBoundary_applies hconsume
    exact ⟨_, .consumed _ _ hscope, happlies⟩
  | savePrepared record =>
    obtain ⟨_, hsave, rfl⟩ := (returns_map ..).mp h
    exact ⟨_, .saved .., savePrepared_applies hsave⟩
  | activatePrepared scope preparedId ticket approvalDigest validator =>
    obtain ⟨receipt, hactivate, rfl⟩ := (returns_map ..).mp h
    -- a receipt that is already stored is answered again; otherwise the swap is committed now
    obtain ⟨_, hscope, ⟨rfl, _⟩ | happlies⟩ := activatePrepared_applies hactivate
    · exact ⟨_, .quiet _ _ trivial, .nothing⟩
    · exact ⟨_, .activated _ _ _ _ _ _ hscope, happlies⟩
  | rollbackReceipt scope receiptId ticket validator =>
    obtain ⟨receipt, hrollback, rfl⟩ := (returns_map ..).mp h
    obtain ⟨_, _, _, _, ⟨rfl, _⟩ | ⟨_, hscope, happlies⟩⟩ := rollbackReceipt_applies hrollback
    · exact ⟨_, .quiet _ _ trivial, .nothing⟩
    · exact ⟨_, .rolledBack _ _ _ _ _ hscope, happlies⟩
  -- the remaining calls sign or read, and write nothing
  | issueReconciliation scope operationId terminationEvidence =>
    obtain ⟨proof, hissue, rfl⟩ := (returns_map ..).mp h
    simp only [issueReconciliation, returns_bind, returns_check, returns_query, returns_pure,
      and_assoc, exists_and_left, exists_eq_left'] at hissue
    obtain ⟨_, _, _, _, _, _, _, _, _, _, _, _, _, _, _, rfl⟩ := hissue
    exact ⟨_, .quiet _ _ trivial, .nothing⟩
  | issueBootstrap scope binding =>
    obtain ⟨_, hread, rfl⟩ := (returns_map ..).mp h
    obtain ⟨_, rfl⟩ := (returns_check ..).mp hread
    exact ⟨_, .quiet _ _ trivial, .nothing⟩
  | get scope | getPrepared scope _ _ | getReceipt scope _ | findActivation scope _
  | findRollback scope _ =>
    obtain ⟨_, hread, rfl⟩ := (returns_map ..).mp h
    obtain ⟨_, rfl⟩ := (returns_query ..).mp hread
    exact ⟨_, .quiet _ _ trivial, .nothing⟩

/-- A step of the store, whether the call returned or raised, makes one change. -/
theorem execute_applies (K : Keyring δ) (db : Db δ) (event : Event δ) :
    ∃ change, Applies K event.ambient db change (execute K db event).2 := by
  cases hreply : (execute K db event).1 with
  | error e =>
    rw [execute_error hreply]
    exact ⟨_, .nothing⟩
  | ok answer =>
    have h : execute K db event = (.ok answer, (execute K db event).2) := Prod.ext hreply rfl
    obtain ⟨change, _, happlies⟩ := execute_commits h
    exact ⟨change, happlies⟩

end ContractCapsule.Store
