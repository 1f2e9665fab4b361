import ContractCapsule.Store.Effects

/-!
# The View of One Scope

A scope is seen through its row, its actions and its receipts. `ViewStep` is the
life of that view, an abstract machine of five transitions; `viewOf_applies` says
that every change of the database is one transition of the view of every scope.
`WellFormed` is what the tables as a whole keep: distinct keys, foreign keys, and
authentic prepared records and receipts.
-/

namespace ContractCapsule.Store

open Library

variable {δ : Type} [DecidableEq δ]

variable {K : Keyring δ} {env : Ambient δ} {db db' : Db δ} {change : Change δ}

/-! ## Section 1: What no change erases -/

theorem Applies.keeps_receipt (h : Applies K env db change db') {q : ReceiptRow δ}
    (hq : q ∈ db.receipts) : q ∈ db'.receipts := by
  cases h with
  | advanced => exact List.mem_append_left _ hq
  | _ => exact hq

/-- An action keeps its scope, its operation id, its request and its epoch. -/
theorem Applies.keeps_action (h : Applies K env db change db') {a : ActionRow δ}
    (ha : a ∈ db.actions) :
    ∃ a' ∈ db'.actions, a'.scopeDigest = a.scopeDigest ∧ a'.operationId = a.operationId ∧
      a'.requestDigest = a.requestDigest ∧ a'.actionEpoch = a.actionEpoch := by
  cases h with
  | begun => exact ⟨a, List.mem_append_left _ ha, rfl, rfl, rfl, rfl⟩
  | settled row action target finish _ _ _ _ _ _ _ _ _ _ _ hkeep =>
    refine ⟨_, mem_updateRows.mpr ⟨a, ha, rfl⟩, ?_⟩
    split
    · exact ⟨(hkeep a).1, (hkeep a).2.1, (hkeep a).2.2.1, (hkeep a).2.2.2.1⟩
    · exact ⟨rfl, rfl, rfl, rfl⟩
  | _ => exact ⟨a, ha, rfl, rfl, rfl, rfl⟩

/-- A ticket keeps its body and its signature, and stays spent once it is. -/
theorem Applies.keeps_ticket (h : Applies K env db change db') {t : TicketRow δ}
    (ht : t ∈ db.tickets) :
    ∃ t' ∈ db'.tickets, t'.toBoundaryBody = t.toBoundaryBody ∧ t'.signature = t.signature ∧
      (t.consumed = true → t'.consumed = true) := by
  have hspend : ∀ (ticket : BoundaryTicket δ) (before after : δ),
      ∃ t' ∈ spend ticket before after db.tickets, t'.toBoundaryBody = t.toBoundaryBody ∧
        t'.signature = t.signature ∧ (t.consumed = true → t'.consumed = true) := by
    intro ticket before after
    refine ⟨_, mem_updateRows.mpr ⟨t, ht, rfl⟩, ?_⟩
    split
    · exact ⟨rfl, rfl, fun _ => rfl⟩
    · exact ⟨rfl, rfl, id⟩
  cases h with
  | reserved => exact ⟨t, List.mem_append_left _ ht, rfl, rfl, id⟩
  | consumed _ ticket before after => exact hspend ticket before after
  | advanced _ ticket _ _ before after => exact hspend ticket before after
  | _ => exact ⟨t, ht, rfl, rfl, id⟩

/-! ## Section 2: Well-formed tables -/

/-- What every committed database satisfies, whatever the scopes are doing. -/
structure WellFormed (K : Keyring δ) (db : Db δ) : Prop where
  scopeKeys : (db.scopes.map (·.scopeDigest)).Nodup
  ticketKeys : (db.tickets.map (·.ticketId)).Nodup
  preparedKeys : (db.prepared.map (·.preparedId)).Nodup
  receiptKeys : (db.receipts.map (·.receiptId)).Nodup
  /-- A scope has at most one receipt of each kind for an operation id. -/
  receiptOnce : (db.receipts.map fun q => (q.scopeDigest, q.operationId, q.kind)).Nodup
  actionOwner : ∀ a ∈ db.actions, ∃ r ∈ db.scopes, r.scopeDigest = a.scopeDigest
  receiptOwner : ∀ q ∈ db.receipts, ∃ r ∈ db.scopes, r.scopeDigest = q.scopeDigest
  preparedAuthentic : ∀ p ∈ db.prepared, p.Authentic K
  receiptAuthentic : ∀ q ∈ db.receipts, q.Authentic K
  /-- Every activation was made from a stored record, which the receipt names. -/
  activationPrepared : ∀ q ∈ db.receipts, ∀ r, q.payload = .activation r →
    ∃ p ∈ db.prepared, p.scopeDigest = q.scopeDigest ∧ p.preparedId = r.preparedId ∧
      p.payload.operationId = r.operationId ∧ p.payload.requestDigest = r.requestDigest
  /-- Every rollback names a stored activation with its operation id. -/
  rollbackSource : ∀ q ∈ db.receipts, ∀ b, q.payload = .rollback b →
    ∃ s ∈ db.receipts, s.scopeDigest = q.scopeDigest ∧ ∃ source, s.payload = .activation source ∧
      b.operationId = source.operationId ∧ b.sourceReceiptId = source.receiptId
  /-- Every receipt is about a begun action and its request. -/
  receiptAction : ∀ q ∈ db.receipts, ∃ a ∈ db.actions, a.scopeDigest = q.scopeDigest ∧
    a.operationId = q.operationId ∧ a.requestDigest = .digest q.requestDigest
  actionNamed : ∀ a ∈ db.actions, a.operationId ≠ ""

theorem Establishes.first {row : ScopeRow δ} {receipt : ReceiptPayload δ} {createdAt : Timestamp}
    (h : Establishes K db row receipt) :
    ∀ q ∈ db.receipts, (q.scopeDigest, q.operationId, q.kind) ≠
      ((receiptRowOf row.scopeDigest receipt createdAt).scopeDigest,
        (receiptRowOf row.scopeDigest receipt createdAt).operationId,
        (receiptRowOf row.scopeDigest receipt createdAt).kind) := by
  have hfirst : selectReceiptOf db row.scopeDigest receipt.operationId receipt.kind = none := by
    cases h with
    | activation r p _ _ _ _ _ hnone => exact hnone
    | rollback r s source _ _ _ _ _ _ hnone => exact hnone
  intro q hq heq
  have hnot := List.find?_eq_none.mp hfirst q hq
  simp only [Prod.mk.injEq] at heq
  simp only [heq.1, heq.2.1, heq.2.2, receiptRowOf, and_self, decide_true, not_true_eq_false] at hnot

omit [DecidableEq δ] in
theorem wellFormed_empty : WellFormed K (Db.empty : Db δ) := by
  constructor <;> simp [Db.empty]

omit [DecidableEq δ] in
/-- Rows keep their owner when the scope table keeps its keys. -/
theorem owner_of_scopeKeys {rows rows' : List (ScopeRow δ)} {d : δ}
    (hkeys : rows'.map (·.scopeDigest) = rows.map (·.scopeDigest))
    (h : ∃ r ∈ rows, r.scopeDigest = d) : ∃ r ∈ rows', r.scopeDigest = d := by
  obtain ⟨r, hr, rfl⟩ := h
  have hmem : r.scopeDigest ∈ rows'.map (·.scopeDigest) := hkeys ▸ List.mem_map_of_mem hr
  exact List.mem_map.mp hmem

omit [DecidableEq δ] in
theorem owner_append {rows : List (ScopeRow δ)} {row : ScopeRow δ} {d : δ}
    (h : ∃ r ∈ rows, r.scopeDigest = d) : ∃ r ∈ rows ++ [row], r.scopeDigest = d := by
  obtain ⟨r, hr, hd⟩ := h
  exact ⟨r, List.mem_append_left _ hr, hd⟩

theorem nodup_spend {ticket : BoundaryTicket δ} {before after : δ} {tickets : List (TicketRow δ)}
    (h : (tickets.map (·.ticketId)).Nodup) :
    ((spend ticket before after tickets).map (·.ticketId)).Nodup := by
  have hkeys : (spend ticket before after tickets).map (·.ticketId) =
      tickets.map (·.ticketId) :=
    map_updateRows fun _ _ _ => rfl
  rwa [hkeys]

/-- A receipt keeps its action. -/
theorem WellFormed.receiptAction_keeps (hwf : WellFormed K db) (h : Applies K env db change db')
    {q : ReceiptRow δ} (hq : q ∈ db.receipts) :
    ∃ a ∈ db'.actions, a.scopeDigest = q.scopeDigest ∧ a.operationId = q.operationId ∧
      a.requestDigest = .digest q.requestDigest := by
  obtain ⟨a, ha, hsd, hop, hrequest⟩ := hwf.receiptAction q hq
  obtain ⟨a', ha', hsd', hop', hrequest', _⟩ := h.keeps_action ha
  exact ⟨a', ha', hsd'.trans hsd, hop'.trans hop, hrequest'.trans hrequest⟩

theorem WellFormed.applies (hwf : WellFormed K db) (h : Applies K env db change db') :
    WellFormed K db' := by
  -- the one clause about all receipts: it moves with the actions, whatever the change
  have hreceiptAction := fun q hq => hwf.receiptAction_keeps h (q := q) hq
  cases h with
  | nothing => exact hwf
  -- the digest of a new scope is not in the table yet
  | initialized row event hnew =>
    exact { hwf with
      scopeKeys := nodup_append_row hwf.scopeKeys hnew
      actionOwner := fun a ha => owner_append (hwf.actionOwner a ha)
      receiptOwner := fun q hq => owner_append (hwf.receiptOwner q hq) }
  | begun row operationId requestDigest stateSig actionSig updatedAt event hrow _ _ _ hrow' =>
    -- rewriting the row of a scope keeps its key, so every owner is still there
    have hkeys : (updateRows (ScopeRow.isOf row.scopeDigest)
        (ScopeRow.begin (row.actionEpoch + 1) operationId stateSig updatedAt) db.scopes).map
          (·.scopeDigest) = db.scopes.map (·.scopeDigest) :=
      map_updateRows fun _ _ _ => rfl
    refine { hwf with
      scopeKeys := hkeys ▸ hwf.scopeKeys
      receiptOwner := fun q hq => owner_of_scopeKeys hkeys (hwf.receiptOwner q hq)
      receiptAction := hreceiptAction
      actionOwner := ?_, actionNamed := ?_ }
    -- the new action belongs to the scope that began it, and a running row names its operation
    · intro a ha
      refine owner_of_scopeKeys hkeys ?_
      rcases List.mem_append.mp ha with ha | ha
      · exact hwf.actionOwner a ha
      · obtain rfl := List.mem_singleton.mp ha
        exact ⟨row, (selectScope_eq_some hrow).1, rfl⟩
    · intro a ha
      rcases List.mem_append.mp ha with ha | ha
      · exact hwf.actionNamed a ha
      · obtain rfl := List.mem_singleton.mp ha
        obtain ⟨op, hop, hne⟩ := hrow'.running rfl
        exact Option.some.inj hop ▸ hne
  | settled row action target finish stateSig updatedAt event hrow _ _ _ _ _ _ _ hkeep =>
    have hkeys : (updateRows (ScopeRow.isOf row.scopeDigest)
        (ScopeRow.settle target stateSig updatedAt) db.scopes).map (·.scopeDigest) =
          db.scopes.map (·.scopeDigest) :=
      map_updateRows fun _ _ _ => rfl
    refine { hwf with
      scopeKeys := hkeys ▸ hwf.scopeKeys
      receiptOwner := fun q hq => owner_of_scopeKeys hkeys (hwf.receiptOwner q hq)
      receiptAction := hreceiptAction
      actionOwner := ?_, actionNamed := ?_ }
    -- settling rewrites an action in place and keeps its scope and its operation id
    · intro a ha
      obtain ⟨a₀, ha₀, rfl⟩ := mem_updateRows.mp ha
      refine owner_of_scopeKeys hkeys ?_
      split
      · rw [(hkeep a₀).1]
        exact hwf.actionOwner a₀ ha₀
      · exact hwf.actionOwner a₀ ha₀
    · intro a ha
      obtain ⟨a₀, ha₀, rfl⟩ := mem_updateRows.mp ha
      split
      · rw [(hkeep a₀).2.1]
        exact hwf.actionNamed a₀ ha₀
      · exact hwf.actionNamed a₀ ha₀
  | reserved row ticket recordSignature event _ _ _ _ _ hfresh =>
    -- the id of the new ticket was not in use
    exact { hwf with ticketKeys := nodup_append_row hwf.ticketKeys hfresh }
  | consumed row ticket before after event =>
    -- spending rewrites a ticket in place and keeps its id
    exact { hwf with ticketKeys := nodup_spend hwf.ticketKeys }
  | advanced row ticket receipt stateSig before after updatedAt createdAt event hrow _ haccepted
      hestablishes _ _ _ _ hfresh hauthentic =>
    have hkeys : (updateRows (ScopeRow.isAt row.scopeDigest row.generation)
        (ScopeRow.advance receipt.installed stateSig updatedAt) db.scopes).map (·.scopeDigest) =
          db.scopes.map (·.scopeDigest) :=
      map_updateRows fun _ _ _ => rfl
    -- only here a receipt is added: in each clause it is an old one, or the new one, of which the
    -- change says what it was made from
    refine { hwf with
      scopeKeys := hkeys ▸ hwf.scopeKeys
      receiptKeys := nodup_append_row hwf.receiptKeys hfresh
      receiptOnce := nodup_append_row hwf.receiptOnce hestablishes.first
      ticketKeys := nodup_spend hwf.ticketKeys
      actionOwner := fun a ha => owner_of_scopeKeys hkeys (hwf.actionOwner a ha)
      receiptOwner := ?_, receiptAuthentic := ?_, activationPrepared := ?_
      rollbackSource := ?_, receiptAction := ?_ }
    -- the new receipt is stored for the scope that moved
    · intro q hq
      refine owner_of_scopeKeys hkeys ?_
      rcases List.mem_append.mp hq with hq | hq
      · exact hwf.receiptOwner q hq
      · obtain rfl := List.mem_singleton.mp hq
        exact ⟨row, (selectScope_eq_some hrow).1, rfl⟩
    · intro q hq
      rcases List.mem_append.mp hq with hq | hq
      · exact hwf.receiptAuthentic q hq
      · obtain rfl := List.mem_singleton.mp hq
        exact hauthentic
    -- an activation names the record it was made from; a rollback claims none
    · intro q hq r hr
      rcases List.mem_append.mp hq with hq | hq
      · exact hwf.activationPrepared q hq r hr
      · obtain rfl := List.mem_singleton.mp hq
        cases hestablishes with
        | activation r' p hp hps hop hreq hid =>
          obtain rfl := ReceiptPayload.activation.inj hr
          exact ⟨p, hp, ((hwf.preparedAuthentic p hp).scopeDigest.symm.trans hps), hid.symm,
            hop.symm, hreq.symm⟩
        | rollback => cases hr
    -- a rollback names the activation it reverts; an activation claims none
    · intro q hq b hb
      rcases List.mem_append.mp hq with hq | hq
      · obtain ⟨s, hs, hrest⟩ := hwf.rollbackSource q hq b hb
        exact ⟨s, List.mem_append_left _ hs, hrest⟩
      · obtain rfl := List.mem_singleton.mp hq
        cases hestablishes with
        | activation => cases hb
        | rollback r s source hs hsscope hpayload _ hop hid =>
          obtain rfl := ReceiptPayload.rollback.inj hb
          exact ⟨s, List.mem_append_left _ hs, hsscope, source, hpayload, hop, hid⟩
    -- the ticket was accepted for a begun action, and the receipt carries its operation and its
    -- request
    · intro q hq
      rcases List.mem_append.mp hq with hq | hq
      · exact hreceiptAction q hq
      · obtain rfl := List.mem_singleton.mp hq
        obtain ⟨a, ha, _, _, hrequest⟩ := haccepted.action
        obtain ⟨hmem, hsd, hop⟩ := selectAction_eq_some ha
        exact ⟨a, hmem, hsd, hop.trans (haccepted.operation _ rfl), hrequest _ rfl⟩
  | saved row p hrow hfresh hauthentic hop =>
    refine { hwf with
      preparedKeys := nodup_append_row hwf.preparedKeys hfresh
      preparedAuthentic := ?_, activationPrepared := ?_ }
    -- the new record was sealed by the store; the records that receipts name are still there
    · intro q hq
      rcases List.mem_append.mp hq with hq | hq
      · exact hwf.preparedAuthentic q hq
      · obtain rfl := List.mem_singleton.mp hq
        exact hauthentic
    · intro q hq r hr
      obtain ⟨p', hp', hrest⟩ := hwf.activationPrepared q hq r hr
      exact ⟨p', List.mem_append_left _ hp', hrest⟩

/-! ## Section 3: Views -/

/-- The receipts of a scope, in the order they were stored. -/
def receiptsOf (db : Db δ) (scopeDigest : δ) : List (ReceiptRow δ) :=
  db.receipts.filter (fun r => r.scopeDigest = scopeDigest)

/-- One scope: its row, its actions and its receipts. -/
structure ScopeView (δ : Type) where
  row : ScopeRow δ
  actions : List (ActionRow δ)
  receipts : List (ReceiptRow δ)

def viewOf (db : Db δ) (scopeDigest : δ) : Option (ScopeView δ) :=
  (selectScope db scopeDigest).map fun row =>
    ⟨row, selectActions db scopeDigest, receiptsOf db scopeDigest⟩

/-- The scope whose view a change moves. -/
def Change.touches : Change δ → Option δ
  | .initialized scopeDigest _ | .begun scopeDigest _ _ | .settled scopeDigest _ _ =>
    some scopeDigest
  | .advanced ticket _ => some ticket.scopeDigest
  | .nothing | .reserved _ | .consumed _ | .saved _ => none

/-- The receipt continues the view it was made from. -/
inductive Continues (v : ScopeView δ) : ReceiptPayload δ → Prop
  | activation (r : ActivationReceipt δ) (hold : r.oldBinding = v.row.activeJcs)
      (hfirst : ∀ q ∈ v.receipts, q.operationId = r.operationId → q.kind ≠ .activate) :
      Continues v (.activation r)
  | rollback (r : RollbackReceipt δ) (s : ReceiptRow δ) (source : ActivationReceipt δ)
      (hsource : s ∈ v.receipts) (hpayload : s.payload = .activation source)
      (hcurrent : v.row.generation = source.generationAfter)
      (hop : r.operationId = source.operationId) (hid : r.sourceReceiptId = source.receiptId)
      (hfirst : ∀ q ∈ v.receipts, q.operationId = r.operationId → q.kind ≠ .rollback)
      (hrestored : r.restoredBinding = source.oldBinding.atGeneration (v.row.generation + 1)) :
      Continues v (.rollback r)

/-- The transitions of a view. -/
inductive ViewStep (K : Keyring δ) (scopeDigest : δ) :
    Change δ → Option (ScopeView δ) → Option (ScopeView δ) → Prop
  | stays (change : Change δ) (view : Option (ScopeView δ))
      (h : change.touches ≠ some scopeDigest) : ViewStep K scopeDigest change view view
  | created (row : ScopeRow δ) (hscope : row.scopeDigest = scopeDigest)
      (hverified : RowVerified K row) (hgeneration : row.generation = 0)
      (hidle : row.actionState = .idle) (hepoch : row.actionEpoch = 0) :
      ViewStep K scopeDigest (.initialized scopeDigest row.activeJcs) none (some ⟨row, [], []⟩)
  | begun (v : ScopeView δ) (action : ActionRow δ) (stateSig : δ) (updatedAt : Timestamp)
      (hscope : action.scopeDigest = scopeDigest) (hidle : v.row.actionState = .idle)
      (hnew : ∀ a ∈ v.actions, a.operationId ≠ action.operationId)
      (hepoch : action.actionEpoch = v.row.actionEpoch + 1) (hrunning : action.state = .running)
      (haction : ActionVerified K action)
      (hrow : RowVerified K
        (v.row.begin (v.row.actionEpoch + 1) action.operationId stateSig updatedAt)) :
      ViewStep K scopeDigest (.begun scopeDigest action.operationId action.requestDigest) (some v)
        (some ⟨v.row.begin (v.row.actionEpoch + 1) action.operationId stateSig updatedAt,
          v.actions ++ [action], v.receipts⟩)
  | settled (v : ScopeView δ) (action : ActionRow δ) (target : ActionState)
      (finish : ActionRow δ → ActionRow δ) (stateSig : δ) (updatedAt : Timestamp)
      (haction : action ∈ v.actions) (hstate : action.state = v.row.actionState)
      (hopen : v.row.actionState ≠ .idle) (htarget : target ≠ .running)
      (haction' : ActionVerified K (finish action))
      (hkeep : ∀ a : ActionRow δ, (finish a).scopeDigest = a.scopeDigest ∧
        (finish a).operationId = a.operationId ∧ (finish a).requestDigest = a.requestDigest ∧
        (finish a).actionEpoch = a.actionEpoch ∧ (finish a).state = target)
      (hrow : RowVerified K (v.row.settle target stateSig updatedAt)) :
      ViewStep K scopeDigest (.settled scopeDigest action.operationId target) (some v)
        (some ⟨v.row.settle target stateSig updatedAt,
          updateRows (ActionRow.isAt scopeDigest action.operationId) finish v.actions, v.receipts⟩)
  | advanced (v : ScopeView δ) (ticket : BoundaryTicket δ) (receipt : ReceiptPayload δ)
      (stateSig : δ) (updatedAt createdAt : Timestamp) (hscope : ticket.scopeDigest = scopeDigest)
      (hidle : v.row.actionState = .idle)
      (hgeneration : v.row.generation = ticket.expectedGeneration)
      (hepoch : v.row.actionEpoch = ticket.actionEpoch)
      (hcontinues : Continues v receipt)
      (hafter : receipt.generationAfter = v.row.generation + 1)
      (hrow : RowVerified K (v.row.advance receipt.installed stateSig updatedAt)) :
      ViewStep K scopeDigest (.advanced ticket receipt) (some v)
        (some ⟨v.row.advance receipt.installed stateSig updatedAt, v.actions,
          v.receipts ++ [receiptRowOf scopeDigest receipt createdAt]⟩)

/-! ## Section 4: Every change is a transition of every view -/

variable {scopeDigest : δ} {row : ScopeRow δ}

theorem viewOf_eq_some (h : selectScope db scopeDigest = some row) :
    viewOf db scopeDigest =
      some ⟨row, selectActions db scopeDigest, receiptsOf db scopeDigest⟩ := by
  rw [viewOf, h]
  rfl

theorem selectScope_eq_none (h : ∀ r ∈ db.scopes, r.scopeDigest ≠ scopeDigest) :
    selectScope db scopeDigest = none :=
  List.find?_eq_none.mpr fun r hr => by simpa using h r hr

/-- An update of the scope table, seen from one scope. -/
theorem selectScope_update {p : ScopeRow δ → Bool} {f : ScopeRow δ → ScopeRow δ}
    (hkeep : ∀ r, (f r).scopeDigest = r.scopeDigest) :
    (updateRows p f db.scopes).find? (ScopeRow.isOf scopeDigest) =
      (selectScope db scopeDigest).map (fun r => if p r then f r else r) :=
  find?_updateRows fun r _ _ => by simp only [ScopeRow.isOf, hkeep]

theorem mem_selectActions {a : ActionRow δ} :
    a ∈ selectActions db scopeDigest ↔ a ∈ db.actions ∧ a.scopeDigest = scopeDigest := by
  simp [selectActions]

theorem mem_receiptsOf {q : ReceiptRow δ} :
    q ∈ receiptsOf db scopeDigest ↔ q ∈ db.receipts ∧ q.scopeDigest = scopeDigest := by
  simp [receiptsOf]

/-- Rewriting its own row is a transition of the view of a scope. -/
theorem viewStep_own {p : ScopeRow δ → Bool} {f : ScopeRow δ → ScopeRow δ}
    (hrow : selectScope db scopeDigest = some row)
    (hscopes : db'.scopes = updateRows p f db.scopes) (hp : p row = true)
    (hkeep : ∀ r, (f r).scopeDigest = r.scopeDigest)
    (hstep : ViewStep K scopeDigest change
      (some ⟨row, selectActions db scopeDigest, receiptsOf db scopeDigest⟩)
      (some ⟨f row, selectActions db' scopeDigest, receiptsOf db' scopeDigest⟩)) :
    ViewStep K scopeDigest change (viewOf db scopeDigest) (viewOf db' scopeDigest) := by
  have hrow' : selectScope db' scopeDigest = some (f row) := by
    rw [selectScope, hscopes, selectScope_update hkeep, hrow]
    simp [hp]
  rwa [viewOf_eq_some hrow, viewOf_eq_some hrow']

/-- Rewriting the row of another scope leaves the view as it is. -/
theorem viewStep_other {p : ScopeRow δ → Bool} {f : ScopeRow δ → ScopeRow δ} {other : δ}
    (hsd : other ≠ scopeDigest) (htouches : change.touches = some other)
    (hscopes : db'.scopes = updateRows p f db.scopes)
    (hp : ∀ r, p r = true → r.scopeDigest = other)
    (hkeep : ∀ r, (f r).scopeDigest = r.scopeDigest)
    (hactions : selectActions db' scopeDigest = selectActions db scopeDigest)
    (hreceipts : receiptsOf db' scopeDigest = receiptsOf db scopeDigest) :
    ViewStep K scopeDigest change (viewOf db scopeDigest) (viewOf db' scopeDigest) := by
  have hsame : selectScope db' scopeDigest = selectScope db scopeDigest := by
    rw [selectScope, hscopes, selectScope_update hkeep]
    cases hrow : selectScope db scopeDigest with
    | none => rfl
    | some row =>
      have hpr : ¬ p row = true := fun hpr =>
        hsd ((hp row hpr).symm.trans (selectScope_eq_some hrow).2)
      simp [hpr]
  have hview : viewOf db' scopeDigest = viewOf db scopeDigest := by
    rw [viewOf, viewOf, hsame, hactions, hreceipts]
  rw [hview]
  exact .stays _ _ (by simpa [htouches] using hsd)

theorem selectActions_append {action : ActionRow δ} :
    (db.actions ++ [action]).filter (ActionRow.isOf scopeDigest) =
      selectActions db scopeDigest ++ if action.scopeDigest = scopeDigest then [action] else [] := by
  rw [List.filter_append, selectActions]
  congr 1
  by_cases h : action.scopeDigest = scopeDigest <;> simp [h]

omit [DecidableEq δ] in
@[simp] theorem receiptRowOf_scopeDigest {receipt : ReceiptPayload δ} {createdAt : Timestamp} :
    (receiptRowOf scopeDigest receipt createdAt).scopeDigest = scopeDigest := rfl

theorem receiptsOf_append {q : ReceiptRow δ} :
    (db.receipts ++ [q]).filter (fun r => r.scopeDigest = scopeDigest) =
      receiptsOf db scopeDigest ++ if q.scopeDigest = scopeDigest then [q] else [] := by
  rw [List.filter_append, receiptsOf]
  congr 1
  by_cases h : q.scopeDigest = scopeDigest <;> simp [h]

/-- A change that leaves the three tables alone keeps every view. -/
theorem viewOf_congr (db : Db δ) (hscopes : db'.scopes = db.scopes) (hactions : db'.actions = db.actions)
    (hreceipts : db'.receipts = db.receipts) : viewOf db' scopeDigest = viewOf db scopeDigest := by
  simp only [viewOf, selectScope, selectActions, receiptsOf, hscopes, hactions, hreceipts]

theorem Establishes.continues {receipt : ReceiptPayload δ} (h : Establishes K db row receipt) :
    Continues ⟨row, selectActions db row.scopeDigest, receiptsOf db row.scopeDigest⟩ receipt := by
  -- the lookup found no receipt of the kind, so none of the scope's receipts is one
  have hfirst : ∀ {operationId kind},
      selectReceiptOf db row.scopeDigest operationId kind = none →
      ∀ q ∈ receiptsOf db row.scopeDigest, q.operationId = operationId → q.kind ≠ kind := by
    intro operationId kind hnone q hq hop hkind
    obtain ⟨hmem, hsd⟩ := mem_receiptsOf.mp hq
    have hq' := List.find?_eq_none.mp hnone q hmem
    simp [hsd, hop, hkind] at hq'
  cases h with
  | activation r p _ _ _ _ _ hnone _ hold => exact .activation r hold (hfirst hnone)
  | rollback r s source hs hss hpayload hcurrent hop hid hnone _ hrestored =>
    exact .rollback r s source (mem_receiptsOf.mpr ⟨hs, hss⟩) hpayload hcurrent hop hid
      (hfirst hnone) hrestored

/-- **Simulation**: what a call did to the database is, for every scope, one transition of the
view of that scope. -/
theorem viewOf_applies (hwf : WellFormed K db) (h : Applies K env db change db')
    (scopeDigest : δ) :
    ViewStep K scopeDigest change (viewOf db scopeDigest) (viewOf db' scopeDigest) := by
  cases h with
  | nothing => exact .stays _ _ (by simp [Change.touches])
  | initialized row event hnew hverified hgeneration hidle hepoch =>
    -- the scope that is created had no view; every other scope keeps its own
    by_cases hsd : row.scopeDigest = scopeDigest
    · subst hsd
      have hnone : selectScope db row.scopeDigest = none := selectScope_eq_none hnew
      have hsome : selectScope { db with scopes := db.scopes ++ [row] } row.scopeDigest =
          some row := by
        simp only [selectScope] at hnone ⊢
        simp [hnone]
      -- an action of this digest would have an owner in the scope table, which has no such row
      have hactions : selectActions db row.scopeDigest = [] := by
        refine List.filter_eq_nil_iff.mpr fun a ha => ?_
        obtain ⟨r, hr, hra⟩ := hwf.actionOwner a ha
        simpa [hra] using hnew r hr
      have hreceipts : receiptsOf db row.scopeDigest = [] := by
        refine List.filter_eq_nil_iff.mpr fun q hq => ?_
        obtain ⟨r, hr, hrq⟩ := hwf.receiptOwner q hq
        simpa [hrq] using hnew r hr
      have hview : viewOf { db with scopes := db.scopes ++ [row], audit := db.audit ++ [event] }
          row.scopeDigest = some ⟨row, [], []⟩ :=
        (viewOf_eq_some hsome).trans (by rw [← hactions, ← hreceipts]; rfl)
      rw [hview, viewOf, hnone]
      exact .created row rfl hverified hgeneration hidle hepoch
    -- the row at the end of the table is not the one that is found here
    · have hsame : selectScope { db with scopes := db.scopes ++ [row] } scopeDigest =
          selectScope db scopeDigest := by
        simp [selectScope, List.find?_append, hsd]
      have hview : viewOf { db with scopes := db.scopes ++ [row], audit := db.audit ++ [event] }
          scopeDigest = viewOf db scopeDigest := by
        show (selectScope { db with scopes := db.scopes ++ [row] } scopeDigest).map _ = _
        rw [hsame]
        rfl
      rw [hview]
      exact .stays _ _ (by simpa [Change.touches] using hsd)
  | begun row operationId requestDigest stateSig actionSig updatedAt event hrow hverified hidle
      hnew hrow' haction =>
    by_cases hsd : row.scopeDigest = scopeDigest
    · subst hsd
      refine viewStep_own hrow rfl (by simp) (fun _ => rfl) ?_
      rw [selectActions, selectActions, selectActions_append, if_pos rfl]
      refine .begun ⟨row, _, _⟩ _ stateSig updatedAt rfl hidle ?_ rfl rfl haction hrow'
      -- the lookup for this operation id found no action
      intro a ha hop
      obtain ⟨hmem, hasd⟩ := mem_selectActions.mp ha
      have hfound := List.find?_eq_none.mp hnew a hmem
      simp [hasd, hop] at hfound
    · refine viewStep_other hsd rfl rfl (by simp) (fun _ => rfl) ?_ rfl
      rw [selectActions, selectActions_append, if_neg hsd, List.append_nil]
  | settled row action target finish stateSig updatedAt event hrow hverified haction hstate hopen
      htarget hrow' haction' hkeep =>
    obtain ⟨hmem, hasd, _⟩ := selectAction_eq_some haction
    by_cases hsd : row.scopeDigest = scopeDigest
    · subst hsd
      have hactions : (updateRows (ActionRow.isAt row.scopeDigest action.operationId) finish
          db.actions).filter (ActionRow.isOf row.scopeDigest) =
            updateRows (ActionRow.isAt row.scopeDigest action.operationId) finish
              (db.actions.filter (ActionRow.isOf row.scopeDigest)) :=
        filter_updateRows fun a _ _ => by simp only [ActionRow.isOf, (hkeep a).1]
      refine viewStep_own hrow rfl (by simp) (fun _ => rfl) ?_
      rw [selectActions, selectActions, hactions]
      exact .settled ⟨row, _, _⟩ action target finish stateSig updatedAt
        (mem_selectActions.mpr ⟨hmem, hasd⟩) hstate hopen htarget haction' hkeep hrow'
    · refine viewStep_other hsd rfl rfl (by simp) (fun _ => rfl) ?_ rfl
      -- neither the row that is settled nor what it becomes belongs to this scope
      refine filter_updateRows_of_disjoint (fun a _ ha => ?_) fun a _ ha => ?_
      · simpa [ActionRow.isOf, (ActionRow.isAt_iff.mp ha).1] using hsd
      · simpa [ActionRow.isOf, (hkeep a).1, (ActionRow.isAt_iff.mp ha).1] using hsd
  | reserved row ticket recordSignature event =>
    -- tickets and audit rows are no part of a view
    rw [viewOf_congr db rfl rfl rfl]
    exact .stays _ _ (by simp [Change.touches])
  | consumed row ticket before after event =>
    rw [viewOf_congr db rfl rfl rfl]
    exact .stays _ _ (by simp [Change.touches])
  | advanced row ticket receipt stateSig before after updatedAt createdAt event hrow hverified
      haccepted hestablishes hticket hafter hrow' hspent hfresh hauthentic =>
    -- the row is found by its digest and its generation; the ticket was accepted for both
    by_cases hsd : row.scopeDigest = scopeDigest
    · subst hsd
      refine viewStep_own hrow rfl (by simp) (fun _ => rfl) ?_
      rw [receiptsOf, receiptsOf, receiptsOf_append, receiptRowOf_scopeDigest, if_pos rfl]
      exact .advanced ⟨row, _, _⟩ ticket receipt stateSig updatedAt createdAt haccepted.scope
        haccepted.idle haccepted.generation haccepted.epoch hestablishes.continues hafter hrow'
    · refine viewStep_other hsd ?_ rfl (fun r hr => (ScopeRow.isAt_iff.mp hr).1) (fun _ => rfl)
        rfl ?_
      · rw [Change.touches, haccepted.scope]
      · rw [receiptsOf, receiptsOf_append, receiptRowOf_scopeDigest, if_neg hsd, List.append_nil]
  | saved row p =>
    -- prepared records are no part of a view either
    rw [viewOf_congr db rfl rfl rfl]
    exact .stays _ _ (by simp [Change.touches])

/-- Receipts are never erased. -/
theorem mem_receipts_final {q : ReceiptRow δ} (hq : q ∈ db.receipts) (events : List (Event δ)) :
    q ∈ (final (execute K) db events).receipts := by
  refine invariant_final (fun db : Db δ => q ∈ db.receipts) (fun db event h => ?_) hq events
  obtain ⟨change, happlies⟩ := execute_applies K db event
  exact happlies.keeps_receipt h

end ContractCapsule.Store
