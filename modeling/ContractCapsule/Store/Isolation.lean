import ContractCapsule.Store.Lifecycle

/-!
# Isolation of Scopes

Every row names the scope it belongs to, so a database splits into the rows of a
scope and the rows of all others. Calls on other scopes leave the rows of a scope
alone, and a call on the scope reads and writes only them, except where a table is
keyed by an identifier alone: `prepared_id` and `ticket_id` are keys across all
scopes. As long as the identifiers a call brings are not the keys of foreign rows,
the scope sees of a run exactly its own calls.
-/

namespace ContractCapsule.Store

open Library

variable {δ : Type} [DecidableEq δ] {K : Keyring δ} {db db' : Db δ} {sd : δ}

/-! ## Section 1: The rows of a scope -/

/-- The rows of every table that belong to a scope. -/
def Db.scopeRows (scopeDigest : δ) (db : Db δ) : Db δ where
  scopes := db.scopes.filter (fun r => r.scopeDigest = scopeDigest)
  actions := db.actions.filter (fun a => a.scopeDigest = scopeDigest)
  tickets := db.tickets.filter (fun t => t.scopeDigest = scopeDigest)
  prepared := db.prepared.filter (fun p => p.scopeDigest = scopeDigest)
  receipts := db.receipts.filter (fun q => q.scopeDigest = scopeDigest)
  audit := db.audit.filter (fun e => e.scopeDigest = scopeDigest)

@[simp] theorem selectScope_scopeRows : selectScope (db.scopeRows sd) sd = selectScope db sd :=
  find?_filter_of_imp fun r _ h => by simpa using h

@[simp] theorem selectActions_scopeRows :
    selectActions (db.scopeRows sd) sd = selectActions db sd :=
  filter_filter_of_imp fun a _ h => by simpa using h

@[simp] theorem selectAction_scopeRows {operationId : String} :
    selectAction (db.scopeRows sd) sd operationId = selectAction db sd operationId :=
  find?_filter_of_imp fun a _ h => by simpa using (ActionRow.isAt_iff.mp h).1

@[simp] theorem selectPrepared_scopeRows {preparedId : String} :
    selectPrepared (db.scopeRows sd) sd preparedId = selectPrepared db sd preparedId :=
  find?_filter_of_imp fun p _ h => by simpa using (of_decide_eq_true h).1

@[simp] theorem selectReceipt_scopeRows {receiptId : String} :
    selectReceipt (db.scopeRows sd) sd receiptId = selectReceipt db sd receiptId :=
  find?_filter_of_imp fun q _ h => by simpa using (of_decide_eq_true h).1

@[simp] theorem selectReceiptOf_scopeRows {operationId : String} {kind : ReceiptKind} :
    selectReceiptOf (db.scopeRows sd) sd operationId kind =
      selectReceiptOf db sd operationId kind :=
  find?_filter_of_imp fun q _ h => by simpa using (of_decide_eq_true h).1

@[simp] theorem selectReceiptsByKind_scopeRows {kind : ReceiptKind} :
    selectReceiptsByKind (db.scopeRows sd) sd kind = selectReceiptsByKind db sd kind := by
  unfold selectReceiptsByKind
  congr 1
  exact filter_filter_of_imp fun q _ h => by simpa using (of_decide_eq_true h).1

/-! ## Section 2: Calls on other scopes -/

/-- The scope a change is about. -/
def Change.scopeDigest : Change δ → Option δ
  | .nothing => none
  | .initialized scopeDigest _ | .begun scopeDigest _ _ | .settled scopeDigest _ _ =>
    some scopeDigest
  | .reserved ticket | .consumed ticket => some ticket.scopeDigest
  | .advanced _ receipt => some receipt.scopeDigest
  | .saved record => some record.scopeDigest

omit [DecidableEq δ] in
/-- A call changes rows of its own scope only. -/
theorem Commits.scopeDigest {call : Call δ} {answer : Answer δ} {change : Change δ}
    (h : Commits K call answer change) :
    ∀ d ∈ change.scopeDigest, d = call.scopeDigest K := by
  cases h with
  | quiet => simp [Change.scopeDigest]
  | initialized | begun | ended | reconciled | saved =>
    simp [Change.scopeDigest, Call.scopeDigest]
  | reserved _ _ _ _ _ h | consumed _ _ h => simpa [Change.scopeDigest, Call.scopeDigest] using h
  | activated _ _ _ _ _ _ h | rolledBack _ _ _ _ _ h =>
    simpa [Change.scopeDigest, Call.scopeDigest, ReceiptPayload.scopeDigest] using h

/-- A row of another scope does not show. -/
theorem filter_append_foreign {ρ : Type} (owner : ρ → δ) (rows : List ρ) {row : ρ}
    (h : owner row ≠ sd) :
    (rows ++ [row]).filter (fun r => owner r = sd) = rows.filter (fun r => owner r = sd) := by
  simp [List.filter_append, h]

/-- An update of rows of other scopes does not show. -/
theorem filter_update_foreign {ρ : Type} (owner : ρ → δ) (f : ρ → ρ) {rows : List ρ}
    {p : ρ → Bool} (hp : ∀ r ∈ rows, p r = true → owner r ≠ sd) (hf : ∀ r, owner (f r) = owner r) :
    (updateRows p f rows).filter (fun r => owner r = sd) =
      rows.filter (fun r => owner r = sd) := by
  refine filter_updateRows_of_disjoint (fun r hr hpr => ?_) fun r hr hpr => ?_
  · simpa using hp r hr hpr
  · simpa [hf r] using hp r hr hpr

/-- Spending a ticket rewrites a row of the ticket's scope. -/
theorem spend_foreign {now : Datetime} {ticket : BoundaryTicket δ} {row : ScopeRow δ}
    {scopeDigest before after : δ} {op : Option String} {req : Option δ} (hwf : WellFormed K db)
    (haccepted : TicketAccepted K now scopeDigest ticket row op req db) (hsd : scopeDigest ≠ sd) :
    (spend ticket before after db.tickets).filter (fun t => t.scopeDigest = sd) =
      db.tickets.filter (fun t => t.scopeDigest = sd) := by
  obtain ⟨t, hsel, _, hbody, _⟩ := haccepted.stored
  obtain ⟨hmem, hid⟩ := selectTicket_eq_some hsel
  refine filter_update_foreign (fun t : TicketRow δ => t.scopeDigest) _
    (fun t' ht' hconsumable => ?_) fun _ => rfl
  -- the ticket id is the key of the table, so the row spent is the row checked
  have hsame : t' = t := eq_of_key_eq hwf.ticketKeys ht' hmem
    ((TicketRow.isConsumable_iff.mp hconsumable).1.trans hid.symm)
  rw [hsame, hbody, haccepted.scope]
  exact hsd

/-- A change of another scope leaves the rows of a scope alone. -/
theorem Applies.scopeRows {env : Ambient δ} {change : Change δ} (hwf : WellFormed K db)
    (h : Applies K env db change db') (hother : change.scopeDigest ≠ some sd) :
    db'.scopeRows sd = db.scopeRows sd := by
  cases h with
  | nothing => rfl
  -- every change writes to one scope, and the audit row it appends is of the same scope
  | initialized row event _ _ _ _ _ hevent =>
    have hsd : row.scopeDigest ≠ sd := fun h => hother (congrArg some h)
    simp only [Db.scopeRows, filter_append_foreign ScopeRow.scopeDigest _ hsd,
      filter_append_foreign AuditRow.scopeDigest _ (hevent ▸ hsd)]
  | begun row _ _ _ _ _ event _ _ _ _ _ _ hevent =>
    have hsd : row.scopeDigest ≠ sd := fun h => hother (congrArg some h)
    have hscope : ∀ r ∈ db.scopes, r.isOf row.scopeDigest = true → r.scopeDigest ≠ sd :=
      fun r _ hr => (ScopeRow.isOf_iff.mp hr).trans_ne hsd
    simp [Db.scopeRows,
      filter_update_foreign ScopeRow.scopeDigest (ScopeRow.begin _ _ _ _) hscope fun _ => rfl,
      filter_append_foreign ActionRow.scopeDigest, filter_append_foreign AuditRow.scopeDigest,
      hevent, hsd]
  | settled row action _ finish _ _ event _ _ _ _ _ _ _ _ hkeep hevent =>
    have hsd : row.scopeDigest ≠ sd := fun h => hother (congrArg some h)
    have hscope : ∀ r ∈ db.scopes, r.isOf row.scopeDigest = true → r.scopeDigest ≠ sd :=
      fun r _ hr => (ScopeRow.isOf_iff.mp hr).trans_ne hsd
    have haction : ∀ a ∈ db.actions, a.isAt row.scopeDigest action.operationId = true →
        a.scopeDigest ≠ sd := fun a _ ha => (ActionRow.isAt_iff.mp ha).1.trans_ne hsd
    simp [Db.scopeRows,
      filter_update_foreign ScopeRow.scopeDigest (ScopeRow.settle _ _ _) hscope fun _ => rfl,
      filter_update_foreign ActionRow.scopeDigest finish haction fun a => (hkeep a).1,
      filter_append_foreign AuditRow.scopeDigest, hevent, hsd]
  | reserved row ticket _ event _ _ hscope _ _ _ hevent =>
    have hsd : ticket.scopeDigest ≠ sd := fun h => hother (congrArg some h)
    simp [Db.scopeRows, filter_append_foreign (fun t : TicketRow δ => t.scopeDigest),
      filter_append_foreign AuditRow.scopeDigest, hevent, ← hscope, hsd]
  -- a ticket was accepted for the scope of its row, so the row it spends is not of `sd`
  | consumed row ticket before after event _ haccepted _ hevent =>
    have hsd : row.scopeDigest ≠ sd := fun h => hother (congrArg some (haccepted.scope.trans h))
    simp [Db.scopeRows, spend_foreign hwf haccepted hsd,
      filter_append_foreign AuditRow.scopeDigest, hevent, hsd]
  | advanced row ticket receipt _ _ _ _ createdAt event _ _ haccepted _ _ _ _ _ _ hauthentic
      hevent =>
    -- a receipt is owned by the scope whose pointer it moves
    have howner : receipt.scopeDigest = row.scopeDigest := hauthentic.scopeDigest
    have hsd : row.scopeDigest ≠ sd := fun h => hother (congrArg some (howner.trans h))
    have hscope : ∀ r ∈ db.scopes, r.isAt row.scopeDigest row.generation = true →
        r.scopeDigest ≠ sd := fun r _ hr => (ScopeRow.isAt_iff.mp hr).1.trans_ne hsd
    simp [Db.scopeRows,
      filter_update_foreign ScopeRow.scopeDigest (ScopeRow.advance _ _ _) hscope fun _ => rfl,
      spend_foreign hwf haccepted hsd, filter_append_foreign ReceiptRow.scopeDigest, receiptRowOf,
      filter_append_foreign AuditRow.scopeDigest, hevent, hsd]
  -- a record is saved under the digest it was sealed with
  | saved row p _ _ hauthentic _ =>
    have hsd : p.scopeDigest ≠ sd :=
      fun h => hother (congrArg some (hauthentic.scopeDigest.trans h))
    simp only [Db.scopeRows, filter_append_foreign PreparedRow.scopeDigest _ hsd]

/-- A call on another scope leaves the rows of a scope alone. -/
theorem execute_foreign {event : Event δ} (hwf : WellFormed K db)
    (hother : event.call.scopeDigest K ≠ sd) :
    (execute K db event).2.scopeRows sd = db.scopeRows sd := by
  cases hreply : (execute K db event).1 with
  | error e => rw [execute_error hreply]
  | ok answer =>
    obtain ⟨change, hcommits, happlies⟩ := execute_commits (Prod.ext hreply rfl)
    refine happlies.scopeRows hwf fun hscope => hother ?_
    exact (hcommits.scopeDigest sd hscope).symm

/-! ## Section 3: Statements on the rows of a scope -/

/-- The identifiers a call brings that are keys across all scopes. -/
structure Identifiers where
  ticket : Set String
  prepared : Set String
  drawn : Set String

/-- No row of another scope is stored under one of the identifiers. -/
structure Separated (sd : δ) (ids : Identifiers) (db : Db δ) : Prop where
  tickets : ∀ t ∈ db.tickets, t.scopeDigest ≠ sd → t.ticketId ∉ ids.ticket ∧ t.ticketId ∉ ids.drawn
  prepared : ∀ p ∈ db.prepared, p.scopeDigest ≠ sd → p.preparedId ∉ ids.prepared
  receipts : ∀ q ∈ db.receipts, q.scopeDigest ≠ sd → q.receiptId ∉ ids.drawn
  audit : ∀ e ∈ db.audit, e.scopeDigest ≠ sd → e.eventId ∉ ids.drawn

/-- The program acts on the rows of the scope exactly as on the whole database. -/
abbrev Local (sd : δ) (ids : Identifiers) {α : Type} (p : Sql δ α) : Prop :=
  Localizes (Separated sd ids) (Db.scopeRows sd) p

variable {ids : Identifiers}

omit [DecidableEq δ] in
theorem forall_append_own {ρ : Type} {owner : ρ → δ} {rows : List ρ} {row : ρ} {P : ρ → Prop}
    (hrow : owner row = sd) (h : ∀ r ∈ rows, owner r ≠ sd → P r) :
    ∀ r ∈ rows ++ [row], owner r ≠ sd → P r := by
  intro r hr hne
  rcases List.mem_append.mp hr with hr | hr
  · exact h r hr hne
  · obtain rfl := List.mem_singleton.mp hr
    exact absurd hrow hne

omit [DecidableEq δ] in
theorem insertInto_apply {ρ κ : Type} [DecidableEq κ] {table : Db δ → List ρ}
    {put : List ρ → Db δ → Db δ} {key : ρ → κ} {conflict : StoreError} {row : ρ} (db : Db δ) :
    insertInto table put key conflict row db =
      match insertRow key row (table db) with
      | some rows => .ok () (put rows db)
      | none => .error conflict db := by
  show EStateM.bind _ _ db = _
  unfold EStateM.bind query
  beta_reduce
  cases insertRow key row (table db) <;> rfl

/-- An insert of an own row under a key no foreign row has. -/
theorem local_insertInto {ρ κ : Type} [DecidableEq κ] {table : Db δ → List ρ}
    {put : List ρ → Db δ → Db δ} {key : ρ → κ} {conflict : StoreError} {row : ρ} (owner : ρ → δ)
    (hrow : owner row = sd)
    (htable : ∀ db : Db δ, table (db.scopeRows sd) = (table db).filter fun r => owner r = sd)
    (hput : ∀ rows db, (put rows db).scopeRows sd =
      put (rows.filter fun r => owner r = sd) (db.scopeRows sd))
    (hforeign : ∀ db, Separated sd ids db → ∀ r ∈ table db, owner r ≠ sd → key r ≠ key row)
    (hkeep : ∀ db, Separated sd ids db → Separated sd ids (put (table db ++ [row]) db)) :
    Local sd ids (insertInto table put key conflict row) := by
  refine ⟨fun db hdb => ?_, fun db hdb => ?_⟩
  · rw [insertInto_apply, insertInto_apply, htable, insertRow_filter (by simpa using hrow)
      fun r hr hq => hforeign db hdb r hr (by simpa using hq)]
    cases insertRow key row (table db) with
    | none => rfl
    | some rows => simp [projectResult, hput]
  · rw [leftBehind, insertInto_apply]
    cases hins : insertRow key row (table db) with
    | none => exact hdb
    | some rows =>
      obtain ⟨_, rfl⟩ := insertRow_eq_some.mp hins
      exact hkeep db hdb

theorem local_insertScope {row : ScopeRow δ} (hrow : row.scopeDigest = sd) :
    Local sd ids (insertScope row) :=
  local_insertInto ScopeRow.scopeDigest hrow (fun _ => rfl) (fun _ _ => rfl)
    (fun _ _ _ _ hne => hrow ▸ hne) fun _ h => ⟨h.tickets, h.prepared, h.receipts, h.audit⟩

theorem local_insertAction {row : ActionRow δ} (hrow : row.scopeDigest = sd) :
    Local sd ids (insertAction row) :=
  local_insertInto ActionRow.scopeDigest hrow (fun _ => rfl) (fun _ _ => rfl)
    (fun _ _ _ _ hne hkey => hne ((congrArg Prod.fst hkey).trans hrow))
    fun _ h => ⟨h.tickets, h.prepared, h.receipts, h.audit⟩

theorem local_insertTicket {row : TicketRow δ} (hrow : row.scopeDigest = sd)
    (hid : row.ticketId ∈ ids.drawn) : Local sd ids (insertTicket row) :=
  local_insertInto (fun t : TicketRow δ => t.scopeDigest) hrow (fun _ => rfl) (fun _ _ => rfl)
    (fun _ h t ht hne hkey => (h.tickets t ht hne).2 (hkey ▸ hid))
    fun _ h => ⟨forall_append_own hrow h.tickets, h.prepared, h.receipts, h.audit⟩

theorem local_insertPrepared {row : PreparedRow δ} (hrow : row.scopeDigest = sd)
    (hid : row.preparedId ∈ ids.prepared) : Local sd ids (insertPrepared row) :=
  local_insertInto PreparedRow.scopeDigest hrow (fun _ => rfl) (fun _ _ => rfl)
    (fun _ h p hp hne hkey => h.prepared p hp hne (hkey ▸ hid))
    fun _ h => ⟨h.tickets, forall_append_own hrow h.prepared, h.receipts, h.audit⟩

theorem local_insertReceipt {row : ReceiptRow δ} (hrow : row.scopeDigest = sd)
    (hid : row.receiptId ∈ ids.drawn) : Local sd ids (insertReceipt row) :=
  local_insertInto ReceiptRow.scopeDigest hrow (fun _ => rfl) (fun _ _ => rfl)
    (fun _ h q hq hne hkey => h.receipts q hq hne (hkey ▸ hid))
    fun _ h => ⟨h.tickets, h.prepared, forall_append_own hrow h.receipts, h.audit⟩

theorem local_audit {env : Ambient δ} {u c : ℕ} {event : AuditEvent δ}
    (hid : env.uuid u ∈ ids.drawn) : Local sd ids (audit K env u c sd event) := by
  refine localizes_check_bind fun signature _ => localizes_check_bind fun createdAt _ => ?_
  exact local_insertInto AuditRow.scopeDigest rfl (fun _ => rfl) (fun _ _ => rfl)
    (fun _ h e he hne hkey => h.audit e he hne (hkey ▸ hid))
    fun _ h => ⟨h.tickets, h.prepared, h.receipts, forall_append_own rfl h.audit⟩

theorem local_updateScope {f : ScopeRow δ → ScopeRow δ}
    (hf : ∀ r, (f r).scopeDigest = r.scopeDigest) : Local sd ids (updateScope sd f) := by
  refine localizes_write (fun db _ => ?_) fun db h => ⟨h.tickets, h.prepared, h.receipts, h.audit⟩
  simp [Db.scopeRows, filter_updateRows, hf]

theorem local_updateAction {operationId : String} {f : ActionRow δ → ActionRow δ}
    (hf : ∀ a, (f a).scopeDigest = a.scopeDigest) :
    Local sd ids (updateAction sd operationId f) := by
  refine localizes_write (fun db _ => ?_) fun db h => ⟨h.tickets, h.prepared, h.receipts, h.audit⟩
  simp [Db.scopeRows, filter_updateRows, hf]

theorem local_updateScopeAt {generation : ℕ} {f : ScopeRow δ → ScopeRow δ}
    (hf : ∀ r, (f r).scopeDigest = r.scopeDigest) :
    Local sd ids (updateScopeAt sd generation f) := by
  refine localizes_select_bind (fun db _ => ?_) fun _ => localizes_bind
    (localizes_write (fun db _ => ?_) fun db h => ⟨h.tickets, h.prepared, h.receipts, h.audit⟩)
    fun _ _ => localizes_pure _
  · exact countP_filter_of_imp fun r _ h => by simpa using (ScopeRow.isAt_iff.mp h).1
  · simp [Db.scopeRows, filter_updateRows, hf]

theorem local_updateTicketConsumed {ticketId : String} {before after : δ}
    (hid : ticketId ∈ ids.ticket) : Local sd ids (updateTicketConsumed ticketId before after) := by
  refine localizes_select_bind (fun db hdb => ?_) fun _ => localizes_bind
    (localizes_write (fun db _ => ?_) fun db h => ?_) fun _ _ => localizes_pure _
  · refine countP_filter_of_imp fun t ht h => ?_
    by_contra hne
    exact (hdb.tickets t ht (by simpa using hne)).1 ((TicketRow.isConsumable_iff.mp h).1 ▸ hid)
  · have hconsume : ∀ t : TicketRow δ, (t.consume after).scopeDigest = t.scopeDigest := fun _ => rfl
    simp [Db.scopeRows, filter_updateRows, hconsume]
  · refine ⟨fun t ht hne => ?_, h.prepared, h.receipts, h.audit⟩
    obtain ⟨t₀, ht₀, rfl⟩ := mem_updateRows.mp ht
    by_cases hp : t₀.isConsumable ticketId before = true
    · simp only [hp, if_true] at hne ⊢
      exact h.tickets t₀ ht₀ hne
    · simp only [hp] at hne ⊢
      exact h.tickets t₀ ht₀ hne

/-! ## Section 4: Operations on the rows of a scope -/

section Operations

variable {env : Ambient δ} {scope : RuntimeScope}

theorem readRow_scopeRows : readRow K scope (db.scopeRows (K.scopeDigest scope)) =
    readRow K scope db := by
  unfold readRow rowAcross
  rw [selectScope_scopeRows]
  cases hrow : selectScope db (K.scopeDigest scope) with
  | none => rfl
  | some row =>
    have hsd := (selectScope_eq_some hrow).2
    have hselect : selectAction (db.scopeRows (K.scopeDigest scope)) row.scopeDigest =
        selectAction db row.scopeDigest := by
      rw [hsd]
      exact funext fun _ => selectAction_scopeRows
    simp only [orRaise, Except.ok_bind, selectRunning, selectLatest, hselect]
    rw [hsd, selectActions_scopeRows]

theorem loadPreparedDb_scopeRows {now : Datetime} {preparedId : String} {allowExpired : Bool} :
    loadPreparedDb K now scope preparedId allowExpired (db.scopeRows (K.scopeDigest scope)) =
      loadPreparedDb K now scope preparedId allowExpired db := by
  simp only [loadPreparedDb, selectPrepared_scopeRows]

theorem loadReceiptDb_scopeRows {receiptId : String} :
    loadReceiptDb K scope receiptId (db.scopeRows (K.scopeDigest scope)) =
      loadReceiptDb K scope receiptId db := by
  simp only [loadReceiptDb, selectReceipt_scopeRows]

theorem findActivationReplay_scopeRows {record : PreparedReplacement δ} :
    findActivationReplay K scope record (db.scopeRows (K.scopeDigest scope)) =
      findActivationReplay K scope record db := by
  simp only [findActivationReplay, selectReceiptOf_scopeRows, loadReceiptDb_scopeRows]

theorem findReceipt_scopeRows {ρ : Type} {wanted : ReceiptPayload δ → Option ρ}
    (rows : List (ReceiptRow δ)) :
    findReceipt K scope (db.scopeRows (K.scopeDigest scope)) wanted rows =
      findReceipt K scope db wanted rows := by
  induction rows with
  | nil => rfl
  | cons row rows ih => simp only [findReceipt, loadReceiptDb_scopeRows, ih]

theorem findActivation_scopeRows {preparedId : String} :
    findActivation K scope preparedId (db.scopeRows (K.scopeDigest scope)) =
      findActivation K scope preparedId db := by
  simp only [findActivation, selectReceiptsByKind_scopeRows, findReceipt_scopeRows]

theorem findRollback_scopeRows {sourceReceiptId : String} :
    findRollback K scope sourceReceiptId (db.scopeRows (K.scopeDigest scope)) =
      findRollback K scope sourceReceiptId db := by
  simp only [findRollback, selectReceiptsByKind_scopeRows, findReceipt_scopeRows]

theorem local_issueReconciliation {operationId : String} {terminationEvidence : Bytes} :
    Local (K.scopeDigest scope) ids
      (issueReconciliation K env scope operationId terminationEvidence) := by
  unfold issueReconciliation
  refine localizes_check_bind fun _ _ => localizes_check_bind fun _ _ =>
    localizes_check_bind fun _ _ =>
    localizes_query_bind (fun _ _ => readRow_scopeRows) fun row _ _ _ =>
    localizes_query_bind (fun _ _ => by simp only [selectUncertain, selectAction_scopeRows])
    fun action _ _ _ =>
    localizes_check_bind fun _ _ => localizes_check_bind fun _ _ => localizes_pure _

/-- A ticket for the scope with the signature of its body. -/
def BoundaryTicket.Genuine (K : Keyring δ) (scopeDigest : δ) (ticket : BoundaryTicket δ) : Prop :=
  ticket.scopeDigest = scopeDigest ∧ K.sign (.boundary ticket.toBoundaryBody) = .ok ticket.signature

/-- The ticket table is read for a genuine ticket only. -/
theorem checkTicketDb_scopeRows {now : Datetime} {ticket : BoundaryTicket δ} {row : ScopeRow δ}
    {op : Option String} {req : Option δ}
    (hgenuine : ticket.Genuine K (K.scopeDigest scope) → ticket.ticketId ∈ ids.ticket)
    (hsep : Separated (K.scopeDigest scope) ids db) :
    checkTicketDb K now scope ticket row op req (db.scopeRows (K.scopeDigest scope)) =
      checkTicketDb K now scope ticket row op req db := by
  unfold checkTicketDb
  by_cases hg : ticket.Genuine K (K.scopeDigest scope)
  · have hselect : selectTicket (db.scopeRows (K.scopeDigest scope)) ticket.ticketId =
        selectTicket db ticket.ticketId := by
      refine find?_filter_of_imp fun t ht h => ?_
      by_contra hne
      exact (hsep.tickets t ht (by simpa using hne)).1 (of_decide_eq_true h ▸ hgenuine hg)
    simp only [checkStoredTicket, hselect, selectAction_scopeRows]
  · -- both checks before the lookup raise alike
    by_cases hguard : ticket.scopeDigest ≠ K.scopeDigest scope ∨
        op.any (fun operationId => ticket.operationId ≠ operationId) = true
    · simp only [raiseIf_of _ hguard, Except.error_bind]
    · have hscope : ticket.scopeDigest = K.scopeDigest scope := not_not.mp (not_or.mp hguard).1
      simp only [raiseIf_of_not _ hguard, Except.ok_bind]
      cases hsign : ticketSignature K ticket.toBoundaryBody with
      | error e => rfl
      | ok signature =>
        have hne : ticket.signature ≠ signature :=
          fun heq => hg ⟨hscope, hsign.trans (congrArg _ heq.symm)⟩
        simp only [Except.ok_bind, raiseIf_of _ hne, Except.error_bind]

omit [DecidableEq δ] in
theorem activationBody_receiptId {receiptId : String} {row : ScopeRow δ}
    {record : PreparedReplacement δ} {ticketId : String} {approvalDigest : DigestText δ}
    {body : ActivationBody δ}
    (h : activationBody receiptId sd row record ticketId approvalDigest = .ok body) :
    body.receiptId = receiptId := by
  simp only [activationBody, Except.bind_eq_ok] at h
  obtain ⟨_, _, h⟩ := h
  split at h
  · obtain rfl := Except.ok.inj h
    rfl
  · cases h

variable (hdrawn : ∀ i, env.uuid i ∈ ids.drawn)

include hdrawn

theorem local_initializeScope {binding : ActiveBinding δ} {proof : BootstrapProof δ} :
    Local (K.scopeDigest scope) ids (initializeScope K env scope binding proof) := by
  unfold initializeScope
  refine localizes_check_bind fun _ _ => localizes_check_bind fun _ _ =>
    localizes_check_bind fun _ _ => localizes_check_bind fun _ _ =>
    localizes_select_bind (fun db _ => by rw [selectScope_scopeRows]) fun present =>
    localizes_check_bind fun _ _ => localizes_check_bind fun _ _ => localizes_check_bind fun _ _ =>
    localizes_check_bind fun _ _ => localizes_bind (local_insertScope rfl) fun _ _ =>
    localizes_bind (local_audit (hdrawn 0)) fun _ _ => localizes_pure _

theorem local_beginAction {operationId : String} {requestDigest : DigestText δ} :
    Local (K.scopeDigest scope) ids (beginAction K env scope operationId requestDigest) := by
  unfold beginAction
  refine localizes_check_bind fun _ _ =>
    localizes_query_bind (fun _ _ => readRow_scopeRows) fun row _ _ _ =>
    localizes_select_bind (fun _ _ => selectAction_scopeRows) fun existing => ?_
  cases existing with
  | some existing => exact localizes_check _
  | none =>
    refine localizes_check_bind fun _ _ => localizes_check_bind fun _ _ =>
      localizes_check_bind fun _ _ => localizes_check_bind fun _ _ =>
      localizes_bind (local_updateScope fun _ => rfl) fun _ _ => localizes_check_bind fun _ _ =>
      localizes_bind (local_insertAction rfl) fun _ _ =>
      localizes_bind (local_audit (hdrawn 0)) fun _ _ => localizes_check_bind fun _ _ =>
      localizes_pure _

theorem local_endAction {lease : ActionLease δ} {uncertain : Bool} {outcome : Bytes} :
    Local (K.scopeDigest scope) ids (endAction K env scope lease uncertain outcome) := by
  unfold endAction
  refine localizes_check_bind fun _ hlease => ?_
  have hscope : lease.scopeDigest = K.scopeDigest scope :=
    not_not.mp (not_or.mp ((raiseIf_eq_ok ..).mp hlease)).1
  rw [hscope]
  refine localizes_query_bind (fun _ _ => readRow_scopeRows) fun row _ _ _ =>
    localizes_check_bind fun _ _ =>
    localizes_query_bind (fun _ _ => by rw [selectAction_scopeRows]) fun action _ _ _ =>
    localizes_check_bind fun _ _ => localizes_check_bind fun _ _ => localizes_check_bind fun _ _ =>
    localizes_bind (local_updateScope fun _ => rfl) fun _ _ => localizes_check_bind fun _ _ =>
    localizes_bind (local_updateAction fun _ => rfl) fun _ _ => local_audit (hdrawn 0)

theorem local_reconcile {proof : ReconciliationProof δ} :
    Local (K.scopeDigest scope) ids (reconcile K env scope proof) := by
  unfold reconcile
  refine localizes_check_bind fun _ _ => localizes_check_bind fun _ _ =>
    localizes_check_bind fun _ _ =>
    localizes_query_bind (fun _ _ => readRow_scopeRows) fun row _ _ _ =>
    localizes_query_bind (fun _ _ => by simp only [selectUncertain, selectAction_scopeRows])
    fun action _ _ _ =>
    localizes_check_bind fun _ _ => localizes_check_bind fun _ _ => localizes_check_bind fun _ _ =>
    localizes_bind (local_updateScope fun _ => rfl) fun _ _ => localizes_check_bind fun _ _ =>
    localizes_bind (local_updateAction fun _ => rfl) fun _ _ => local_audit (hdrawn 0)

theorem local_reserveBoundary {operationId : String} {expectedGeneration ttl : ℤ} :
    Local (K.scopeDigest scope) ids
      (reserveBoundary K env scope operationId expectedGeneration ttl) := by
  unfold reserveBoundary
  refine localizes_check_bind fun _ _ => localizes_check_bind fun _ _ =>
    localizes_query_bind (fun _ _ => readRow_scopeRows) fun row _ _ _ =>
    localizes_check_bind fun _ _ => localizes_check_bind fun _ _ => localizes_check_bind fun _ _ =>
    localizes_query_bind (fun _ _ => by rw [selectAction_scopeRows]) fun action _ _ _ =>
    localizes_check_bind fun _ _ => localizes_check_bind fun _ _ => localizes_check_bind fun _ _ =>
    localizes_check_bind fun _ _ => localizes_check_bind fun _ _ =>
    localizes_bind (local_insertTicket rfl (hdrawn 0)) fun _ _ =>
    localizes_bind (local_audit (hdrawn 1)) fun _ _ => localizes_pure _

omit hdrawn in
theorem local_spendTicket {ticket : BoundaryTicket δ} (hid : ticket.ticketId ∈ ids.ticket) :
    Local sd ids (spendTicket K ticket) :=
  localizes_check_bind fun _ _ => localizes_check_bind fun _ _ =>
    localizes_bind (local_updateTicketConsumed hid) fun _ _ => localizes_check _

omit hdrawn in
/-- A ticket that passes the check of a call is genuine. -/
theorem genuine_of_check {now : Datetime} {ticket : BoundaryTicket δ} {row : ScopeRow δ}
    {op : Option String} {req : Option δ}
    (h : checkTicketDb K now scope ticket row op req db = .ok ()) :
    ticket.Genuine K (K.scopeDigest scope) :=
  have haccepted := checkTicketDb_eq_ok.mp h
  ⟨haccepted.scope, haccepted.signed⟩

variable {ticket : BoundaryTicket δ}
  (hgenuine : ticket.Genuine K (K.scopeDigest scope) → ticket.ticketId ∈ ids.ticket)

include hgenuine

theorem local_consumeBoundary :
    Local (K.scopeDigest scope) ids (consumeBoundary K env scope ticket) := by
  unfold consumeBoundary
  refine localizes_check_bind fun _ _ => localizes_check_bind fun _ _ =>
    localizes_check_bind fun _ _ =>
    localizes_query_bind (fun _ _ => readRow_scopeRows) fun row _ _ _ =>
    localizes_query_bind (fun _ hsep => checkTicketDb_scopeRows hgenuine hsep)
    fun _ _ _ hcheck =>
    localizes_bind (local_spendTicket (hgenuine (genuine_of_check hcheck))) fun _ _ =>
    localizes_bind (local_audit (hdrawn 0)) fun _ _ => localizes_pure _

omit hgenuine in
theorem local_commitReceipt {c : ℕ} {row : ScopeRow δ} {receipt : ReceiptPayload δ}
    {swapFailed : StoreError} {event : String → AuditEvent δ}
    (hid : ticket.ticketId ∈ ids.ticket) (hreceipt : receipt.receiptId ∈ ids.drawn) :
    Local sd ids (commitReceipt K env c sd row ticket receipt swapFailed event) := by
  unfold commitReceipt
  refine localizes_check_bind fun _ _ => localizes_check_bind fun _ _ =>
    localizes_check_bind fun _ _ =>
    localizes_bind (local_updateScopeAt fun _ => rfl) fun _ _ => localizes_check_bind fun _ _ =>
    localizes_bind (local_spendTicket hid) fun _ _ => localizes_check_bind fun _ _ =>
    localizes_bind (local_insertReceipt rfl hreceipt) fun _ _ => local_audit (hdrawn 1)

theorem local_activatePrepared {preparedId : String} {approvalDigest : DigestText δ}
    {validator : Option (PreparedReplacement δ → DigestText δ → Bool)} :
    Local (K.scopeDigest scope) ids
      (activatePrepared K env scope preparedId ticket approvalDigest validator) := by
  unfold activatePrepared
  refine localizes_check_bind fun _ _ =>
    localizes_query_bind (fun _ _ => readRow_scopeRows) fun row _ _ _ =>
    localizes_query_bind (fun _ _ => loadPreparedDb_scopeRows) fun record _ _ _ =>
    localizes_query_bind (fun _ _ => findActivationReplay_scopeRows) fun replay _ _ _ => ?_
  cases replay with
  | some replay => exact localizes_pure _
  | none =>
    refine localizes_check_bind fun _ _ => localizes_check_bind fun _ _ =>
      localizes_query_bind (fun _ hsep => checkTicketDb_scopeRows hgenuine hsep)
      fun _ _ _ hcheck => localizes_check_bind fun _ _ => localizes_check_bind fun _ _ =>
      localizes_check_bind fun body hbody => localizes_check_bind fun _ _ => ?_
    have hreceipt : body.receiptId ∈ ids.drawn := activationBody_receiptId hbody ▸ hdrawn 0
    exact localizes_bind (local_commitReceipt hdrawn (hgenuine (genuine_of_check hcheck)) hreceipt)
      fun _ _ => localizes_pure _

theorem local_rollbackReceipt {receiptId : String}
    {validator : Option (ActivationReceipt δ → Bool)} :
    Local (K.scopeDigest scope) ids
      (rollbackReceipt K env scope receiptId ticket validator) := by
  unfold rollbackReceipt
  refine localizes_query_bind (fun _ _ => readRow_scopeRows) fun row _ _ _ =>
    localizes_query_bind (fun _ _ => loadReceiptDb_scopeRows) fun source _ _ _ => ?_
  cases source with
  | rollback r => exact localizes_check _
  | activation source =>
    refine localizes_select_bind (fun _ _ => selectReceiptOf_scopeRows) fun existing => ?_
    cases existing with
    | some existing =>
      exact localizes_query fun _ _ => by simp only [replayRollback, loadReceiptDb_scopeRows]
    | none =>
      refine localizes_check_bind fun _ _ =>
        localizes_query_bind (fun _ hsep => checkTicketDb_scopeRows hgenuine hsep)
        fun _ _ _ hcheck => localizes_check_bind fun _ _ => localizes_check_bind fun _ _ => ?_
      exact localizes_bind (local_commitReceipt hdrawn (hgenuine (genuine_of_check hcheck))
        (hdrawn 0)) fun _ _ => localizes_pure _

end Operations

omit [DecidableEq δ] in
theorem insertPrepared_scopes (row : PreparedRow δ) (db : Db δ) :
    (leftBehind (insertPrepared row) db).scopes = db.scopes := by
  rw [leftBehind, insertPrepared, insertInto_apply]
  cases insertRow PreparedRow.preparedId row db.prepared <;> rfl

/-- `save_prepared` reads the row of the scope the stored row names. -/
theorem local_savePrepared {record : PreparedReplacement δ}
    (hid : record.preparedId ∈ ids.prepared) :
    Localizes
      (fun db => Separated record.scopeDigest ids db ∧
        ∀ row, selectScope db record.scopeDigest = some row →
          K.scopeDigest row.scopeJcs = record.scopeDigest)
      (Db.scopeRows record.scopeDigest) (savePrepared K record) := by
  unfold savePrepared
  refine localizes_check_bind fun _ _ => localizes_check_bind fun signature _ =>
    localizes_query_bind (fun _ _ => by rw [selectScope_scopeRows])
    fun stored db hdb hstored => ?_
  have hscope : K.scopeDigest stored.scopeJcs = record.scopeDigest :=
    hdb.2 stored ((orRaise_eq_ok ..).mp hstored)
  refine localizes_query_bind (fun db _ => hscope ▸ readRow_scopeRows) fun _ _ _ _ => ?_
  refine Localizes.and (local_insertPrepared rfl hid) fun db hdb => ?_
  simpa only [selectScope, insertPrepared_scopes] using hdb

/-! ## Section 5: Two runs -/

/-- The ticket a call presents. -/
def Call.ticket : Call δ → Option (BoundaryTicket δ)
  | .consumeBoundary _ ticket | .activatePrepared _ _ ticket _ _ | .rollbackReceipt _ _ ticket _ =>
    some ticket
  | _ => none

/-- The record a call saves. -/
def Call.record : Call δ → Option (PreparedReplacement δ)
  | .savePrepared record => some record
  | _ => none

/-- What a call on a scope brings: the id of a genuine ticket, the id of a record to save, and the
identifiers it draws. -/
def Event.identifiers (K : Keyring δ) (scopeDigest : δ) (event : Event δ) : Identifiers where
  ticket := {id | ∃ ticket ∈ event.call.ticket, ticket.Genuine K scopeDigest ∧ ticket.ticketId = id}
  prepared := {id | ∃ record ∈ event.call.record, record.preparedId = id}
  drawn := Set.range event.ambient.uuid

/-- A call on a scope answers from the rows of the scope and changes only them. -/
theorem execute_own {event : Event δ} (hsound : Sound K db)
    (hsep : Separated (event.call.scopeDigest K)
      (event.identifiers K (event.call.scopeDigest K)) db) :
    execute K (db.scopeRows (event.call.scopeDigest K)) event =
      ((execute K db event).1, (execute K db event).2.scopeRows (event.call.scopeDigest K)) := by
  obtain ⟨env, call⟩ := event
  -- an identifier that a call draws is one of those it brings
  have hdrawn : ∀ sd i, env.uuid i ∈ (Event.identifiers K sd ⟨env, call⟩).drawn :=
    fun _ i => Set.mem_range_self i
  -- each program is local to its scope; what it looks up elsewhere is among its identifiers
  cases call with
  | issueBootstrap scope binding =>
    exact (localizes_map _ (localizes_check _)).transaction db hsep
  | initializeScope scope binding proof =>
    exact (localizes_map _ (local_initializeScope (hdrawn _))).transaction db hsep
  | get scope =>
    refine (localizes_map _ (localizes_query fun db _ => ?_)).transaction db hsep
    exact congrArg (· >>= state K) readRow_scopeRows
  | beginAction scope operationId requestDigest =>
    exact (localizes_map _ (local_beginAction (hdrawn _))).transaction db hsep
  | endAction scope lease uncertain outcome =>
    exact (localizes_map _ (local_endAction (hdrawn _))).transaction db hsep
  | issueReconciliation scope operationId evidence =>
    exact (localizes_map _ local_issueReconciliation).transaction db hsep
  | reconcile scope proof =>
    exact (localizes_map _ (local_reconcile (hdrawn _))).transaction db hsep
  | reserveBoundary scope operationId expectedGeneration ttl =>
    exact (localizes_map _ (local_reserveBoundary (hdrawn _))).transaction db hsep
  | consumeBoundary scope ticket =>
    exact (localizes_map _ (local_consumeBoundary (hdrawn _)
      fun hg => ⟨ticket, rfl, hg, rfl⟩)).transaction db hsep
  | savePrepared record =>
    -- the id of a record is a key across all scopes, so it is one of the identifiers brought
    have hid : record.preparedId ∈
        (Event.identifiers K record.scopeDigest ⟨env, .savePrepared record⟩).prepared :=
      ⟨record, rfl, rfl⟩
    refine (localizes_map _ (local_savePrepared hid)).transaction db ⟨hsep, fun row hrow => ?_⟩
    have hv := hsound.consistent hrow
    exact hv.verified.scope.trans hv.scope
  | activatePrepared scope preparedId ticket approvalDigest validator =>
    exact (localizes_map _ (local_activatePrepared (hdrawn _)
      fun hg => ⟨ticket, rfl, hg, rfl⟩)).transaction db hsep
  | rollbackReceipt scope receiptId ticket validator =>
    exact (localizes_map _ (local_rollbackReceipt (hdrawn _)
      fun hg => ⟨ticket, rfl, hg, rfl⟩)).transaction db hsep
  | getPrepared scope preparedId allowExpired =>
    exact (localizes_map _ (localizes_query fun _ _ => loadPreparedDb_scopeRows)).transaction db
      hsep
  | getReceipt scope receiptId =>
    exact (localizes_map _ (localizes_query fun _ _ => loadReceiptDb_scopeRows)).transaction db hsep
  | findActivation scope preparedId =>
    exact (localizes_map _ (localizes_query fun _ _ => findActivation_scopeRows)).transaction db
      hsep
  | findRollback scope sourceReceiptId =>
    exact (localizes_map _ (localizes_query fun _ _ => findRollback_scopeRows)).transaction db hsep

/-- The events of a run that are calls on a scope. -/
def eventsOn (K : Keyring δ) (scopeDigest : δ) (events : List (Event δ)) : List (Event δ) :=
  events.filter fun event => event.call.scopeDigest K = scopeDigest

/-- The replies to the calls on a scope during a run. -/
def repliesOn (K : Keyring δ) (scopeDigest : δ) (events : List (Event δ)) : List (Reply δ) :=
  ((history K events).filter fun t => t.input.call.scopeDigest K = scopeDigest).map (·.output)

/-- Whenever a call on the scope arrives, the identifiers it brings are not the keys of rows of
other scopes. -/
def SeparatedRun (K : Keyring δ) (scopeDigest : δ) (events : List (Event δ)) : Prop :=
  ∀ t ∈ history K events, t.input.call.scopeDigest K = scopeDigest →
    Separated scopeDigest (t.input.identifiers K scopeDigest) t.before

/-- A scope sees of a separated run its own calls, run alone. -/
theorem separatedRun_alone {events : List (Event δ)} (hsep : SeparatedRun K sd events) :
    (runStore K events).scopeRows sd = runStore K (eventsOn K sd events) ∧
      repliesOn K sd events = (history K (eventsOn K sd events)).map (·.output) := by
  have hown : ∀ (db : Db δ) (event : Event δ), Sound K db → event.call.scopeDigest K = sd →
      Separated sd (event.identifiers K sd) db →
      execute K (db.scopeRows sd) event =
        ((execute K db event).1, (execute K db event).2.scopeRows sd) := by
    rintro db event hsound rfl hsep
    exact execute_own hsound hsep
  have hother : ∀ (db : Db δ) (event : Event δ), Sound K db → ¬ event.call.scopeDigest K = sd →
      (execute K db event).2.scopeRows sd = db.scopeRows sd :=
    fun db event hsound hne => execute_foreign hsound.tables hne
  let sep (db : Db δ) (event : Event δ) := Separated sd (event.identifiers K sd) db
  exact ⟨localized_final (Sound K) sep (fun _ event hsound => sound_execute hsound event) hown
      hother sound_empty events hsep,
    localized_outputs (Sound K) sep (fun _ event hsound => sound_execute hsound event) hown
      hother sound_empty events hsep⟩

/-- **Isolation.** Two separated runs with the same calls on a scope answer them alike and leave
the scope the same rows, whatever happens on other scopes. -/
theorem scope_isolation (K : Keyring δ) (scope : RuntimeScope) (events events' : List (Event δ))
    (hsame : eventsOn K (K.scopeDigest scope) events = eventsOn K (K.scopeDigest scope) events')
    (hsep : SeparatedRun K (K.scopeDigest scope) events)
    (hsep' : SeparatedRun K (K.scopeDigest scope) events') :
    repliesOn K (K.scopeDigest scope) events = repliesOn K (K.scopeDigest scope) events' ∧
      (runStore K events).scopeRows (K.scopeDigest scope) =
        (runStore K events').scopeRows (K.scopeDigest scope) := by
  obtain ⟨hrows, hreplies⟩ := separatedRun_alone hsep
  obtain ⟨hrows', hreplies'⟩ := separatedRun_alone hsep'
  rw [hreplies, hreplies', hrows, hrows', hsame]
  exact ⟨rfl, rfl⟩

section Sample

open Symbolic

/-- Tenant `B` saves a record after tenant `A` saved one. -/
def sharedRun (preparedId : String) : List (Event Hash) :=
  [initializeCall "A" 1 "a1", initializeCall "B" 1 "b1",
    saveCall (preparedOf "A" "op1" preparedId "base" "next" 0),
    saveCall (preparedOf "B" "op1" "p1" "base" "next" 0)]

/-- The same calls of tenant `B`, alone. -/
def soleRun : List (Event Hash) :=
  [initializeCall "B" 1 "b1", saveCall (preparedOf "B" "op1" "p1" "base" "next" 0)]

theorem separated_sample {sd : Hash} {n : ℕ} {first second : String} {call : Call Hash}
    {db : Db Hash} (htickets : db.tickets = []) (hreceipts : db.receipts = [])
    (hprepared : ∀ p ∈ db.prepared, p.scopeDigest ≠ sd →
      ∀ record ∈ call.record, record.preparedId ≠ p.preparedId)
    (haudit : ∀ e ∈ db.audit, e.scopeDigest ≠ sd → first ≠ e.eventId ∧ second ≠ e.eventId) :
    Separated sd (Event.identifiers keyring sd ⟨ambient n first second, call⟩) db where
  tickets := by simp [htickets]
  prepared := fun p hp hne ⟨record, hrecord, hid⟩ => hprepared p hp hne record hrecord hid
  receipts := by simp [hreceipts]
  audit := by
    rintro e he hne ⟨i, hi⟩
    obtain ⟨hfirst, hsecond⟩ := haudit e he hne
    by_cases hzero : i = 0
    · exact hfirst (by simpa [ambient, hzero] using hi)
    · exact hsecond (by simpa [ambient, hzero] using hi)

theorem scope_isolation_sharedRun :
    repliesOn keyring (scopeTerm (scopeOf "B")) (sharedRun "p9") =
        repliesOn keyring (scopeTerm (scopeOf "B")) soleRun ∧
      (runStore keyring (sharedRun "p9")).scopeRows (scopeTerm (scopeOf "B")) =
        (runStore keyring soleRun).scopeRows (scopeTerm (scopeOf "B")) := by
  refine scope_isolation keyring (scopeOf "B") (sharedRun "p9") soleRun rfl ?_ ?_
  · simp only [SeparatedRun, history, sharedRun, trace, List.forall_mem_cons]
    refine ⟨fun h => absurd h (by decide +kernel), fun _ => separated_sample (by decide +kernel)
      (by decide +kernel) (by decide +kernel) (by decide +kernel),
      fun h => absurd h (by decide +kernel), fun _ => separated_sample (by decide +kernel)
      (by decide +kernel) (by decide +kernel) (by decide +kernel), by simp⟩
  · simp only [SeparatedRun, history, soleRun, trace, List.forall_mem_cons]
    refine ⟨fun _ => separated_sample (by decide +kernel) (by decide +kernel) (by decide +kernel)
      (by decide +kernel), fun _ => separated_sample (by decide +kernel) (by decide +kernel)
      (by decide +kernel) (by decide +kernel), by simp⟩

/-- A record id that another tenant has used already cannot be saved. -/
theorem not_isolated_sharedRun :
    eventsOn keyring (scopeTerm (scopeOf "B")) (sharedRun "p1") =
        eventsOn keyring (scopeTerm (scopeOf "B")) soleRun ∧
      repliesOn keyring (scopeTerm (scopeOf "B")) (sharedRun "p1") ≠
        repliesOn keyring (scopeTerm (scopeOf "B")) soleRun := by
  exact ⟨rfl, by decide +kernel⟩

end Sample

end ContractCapsule.Store
