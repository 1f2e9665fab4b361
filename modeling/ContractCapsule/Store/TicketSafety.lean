import ContractCapsule.Store.AtMostOnce

/-!
# Boundary-Ticket Safety

A ticket is spent once. When an activation or a rollback commits under a ticket,
the scope is still where it was when the ticket was reserved: epochs and
generations never decrease, and the ticket is accepted only when both are those
it records, so nothing was begun and the pointer did not move in between.
-/

namespace ContractCapsule.Store

open Library

variable {δ : Type} [DecidableEq δ] {K : Keyring δ} {db db' : Db δ} {env : Ambient δ}
  {change : Change δ} {scopeDigest : δ}

/-! ## Section 1: Spending -/

/-- The transition consumed the ticket. -/
def Consumes (ticket : BoundaryTicket δ) (t : Transition (Db δ) (Event δ) (Reply δ)) : Prop :=
  ∃ scope answer, t.input.call = .consumeBoundary scope ticket ∧ t.output = .ok answer

/-- The transition activated or rolled back under the ticket: it stored a receipt. -/
def CommitsReceipt (ticket : BoundaryTicket δ) (t : Transition (Db δ) (Event δ) (Reply δ)) :
    Prop :=
  t.after.receipts ≠ t.before.receipts ∧
    ((∃ scope preparedId approvalDigest validator,
        t.input.call = .activatePrepared scope preparedId ticket approvalDigest validator) ∨
      ∃ scope receiptId validator,
        t.input.call = .rollbackReceipt scope receiptId ticket validator)

/-- The position of the clock reading that a call checks its ticket against. -/
def Call.ticketReading : Call δ → ℕ
  | .activatePrepared .. => 1
  | _ => 0

/-- The transition is an event authorized by the ticket with this identifier. -/
def Authorized (ticketId : String) (t : Transition (Db δ) (Event δ) (Reply δ)) : Prop :=
  ∃ ticket : BoundaryTicket δ, ticket.ticketId = ticketId ∧
    (Consumes ticket t ∨ CommitsReceipt ticket t)

theorem Consumes.applies {ticket : BoundaryTicket δ} {event : Event δ}
    (h : Consumes ticket (transitionOf (execute K) db event)) :
    Applies K event.ambient db (.consumed ticket) (execute K db event).2 := by
  obtain ⟨scope, answer, hcall, houtput⟩ := h
  have hexec : execute K db event = (.ok answer, (execute K db event).2) := Prod.ext houtput rfl
  obtain ⟨change, hcommits, happlies⟩ := execute_commits hexec
  have hcall' : event.call = .consumeBoundary scope ticket := hcall
  rw [hcall'] at hcommits
  cases hcommits with
  | quiet _ _ hquiet => exact hquiet.elim
  | consumed => exact happlies

theorem CommitsReceipt.applies {ticket : BoundaryTicket δ} {event : Event δ}
    (h : CommitsReceipt ticket (transitionOf (execute K) db event)) :
    ∃ receipt, receipt.ticketReading = event.call.ticketReading ∧
      Applies K event.ambient db (.advanced ticket receipt) (execute K db event).2 := by
  obtain ⟨hchanged, hcall⟩ := h
  have hreceipts : (execute K db event).2.receipts ≠ db.receipts := hchanged
  cases houtput : (execute K db event).1 with
  | error e =>
    -- a call that fails changes no receipt
    have hsame : (execute K db event).2 = db := execute_error houtput
    exact absurd (congrArg Db.receipts hsame) hreceipts
  | ok answer =>
    -- a call that succeeds commits one change, which cannot be none, since the receipts changed
    have hexec : execute K db event = (.ok answer, (execute K db event).2) := Prod.ext houtput rfl
    obtain ⟨change, hcommits, happlies⟩ := execute_commits hexec
    have hquiet : change ≠ .nothing := by
      rintro rfl
      generalize (execute K db event).2 = db' at happlies hreceipts
      cases happlies
      exact hreceipts rfl
    -- only the two calls that take a ticket commit a receipt of it
    rcases hcall with ⟨scope, preparedId, approvalDigest, validator, hcall⟩ |
      ⟨scope, receiptId, validator, hcall⟩
    · have hcall' : event.call =
          .activatePrepared scope preparedId ticket approvalDigest validator := hcall
      rw [hcall'] at hcommits
      cases hcommits with
      | quiet => exact absurd rfl hquiet
      | activated => exact ⟨_, by rw [hcall']; rfl, happlies⟩
    · have hcall' : event.call = .rollbackReceipt scope receiptId ticket validator := hcall
      rw [hcall'] at hcommits
      cases hcommits with
      | quiet => exact absurd rfl hquiet
      | rolledBack => exact ⟨_, by rw [hcall']; rfl, happlies⟩

/-- A ticket that is accepted has no spent row. -/
theorem TicketAccepted.unspent {ticket : BoundaryTicket δ} {now : Datetime} {row : ScopeRow δ}
    {op : Option String} {req : Option δ} (hwf : WellFormed K db)
    (h : TicketAccepted K now scopeDigest ticket row op req db) :
    ∀ t ∈ db.tickets, t.ticketId = ticket.ticketId → t.consumed = false := by
  obtain ⟨stored, hsel, hconsumed, _⟩ := h.stored
  obtain ⟨hmem, hid⟩ := selectTicket_eq_some hsel
  intro t ht htid
  rw [eq_of_key_eq hwf.ticketKeys ht hmem (htid.trans hid.symm), hconsumed]

/-- A spent ticket leaves a spent row. -/
theorem exists_spent {ticket : BoundaryTicket δ} {before after : δ} {tickets : List (TicketRow δ)}
    (h : tickets.countP (TicketRow.isConsumable ticket.ticketId before) = 1) :
    ∃ t ∈ spend ticket before after tickets, t.ticketId = ticket.ticketId ∧ t.consumed = true := by
  obtain ⟨t, ht, hconsumable⟩ := List.countP_pos_iff.mp (h ▸ Nat.one_pos)
  refine ⟨t.consume after, mem_updateRows.mpr ⟨t, ht, if_pos hconsumable⟩, ?_, rfl⟩
  exact (TicketRow.isConsumable_iff.mp hconsumable).1

/-- An authorized event found the ticket unspent and left it spent. -/
theorem Authorized.spends {ticketId : String} {event : Event δ} (hwf : WellFormed K db)
    (h : Authorized ticketId (transitionOf (execute K) db event)) :
    (∀ t ∈ db.tickets, t.ticketId = ticketId → t.consumed = false) ∧
      ∃ t ∈ (execute K db event).2.tickets, t.ticketId = ticketId ∧ t.consumed = true := by
  obtain ⟨ticket, rfl, hconsumes | hcommits⟩ := h
  · have happlies := hconsumes.applies
    generalize (execute K db event).2 = db' at happlies ⊢
    cases happlies with
    | consumed row _ before after _ _ haccepted hspent =>
      exact ⟨haccepted.unspent hwf, exists_spent hspent⟩
  · obtain ⟨receipt, _, happlies⟩ := hcommits.applies
    generalize (execute K db event).2 = db' at happlies ⊢
    cases happlies with
    | advanced row _ _ _ before after _ _ _ _ _ haccepted _ _ _ _ hspent =>
      exact ⟨haccepted.unspent hwf, exists_spent hspent⟩

/-- Two transitions of a run are never authorized by one ticket. -/
theorem authorized_pairwise (K : Keyring δ) (events : List (Event δ)) :
    (history K events).Pairwise fun t u => ∀ ticketId,
      Authorized ticketId t → ¬ Authorized ticketId u := by
  -- the mark is the spent row, which stays spent
  refine trace_pairwise (Sound K) _
    (fun t db => ∀ ticketId, Authorized ticketId t →
      ∃ row ∈ db.tickets, row.ticketId = ticketId ∧ row.consumed = true)
    (fun _ event h => sound_execute h event) ?_ ?_ ?_ sound_empty events
  · intro db event hsound ticketId hauthorized
    exact (hauthorized.spends hsound.tables).2
  · intro t db event _ hmark ticketId hauthorized
    obtain ⟨row, hrow, hid, hspent⟩ := hmark ticketId hauthorized
    obtain ⟨change, happlies⟩ := execute_applies K db event
    obtain ⟨row', hrow', hbody, _, hkeeps⟩ := happlies.keeps_ticket hrow
    exact ⟨row', hrow', by rw [hbody, hid], hkeeps hspent⟩
  · intro t db event hsound hmark ticketId ht hu
    obtain ⟨row, hrow, hid, hspent⟩ := hmark ticketId ht
    have hunspent := (hu.spends hsound.tables).1 row hrow hid
    rw [hspent] at hunspent
    cases hunspent

/-! ## Section 2: Progress -/

/-- The action epoch and the generation of a scope. -/
def progress (db : Db δ) (scopeDigest : δ) : ℕ × ℕ :=
  ((selectScope db scopeDigest).map fun row => (row.actionEpoch, row.generation)).getD (0, 0)

def ScopeView.progress (v : ScopeView δ) : ℕ × ℕ := (v.row.actionEpoch, v.row.generation)

theorem progress_eq_view :
    progress db scopeDigest = ((viewOf db scopeDigest).map ScopeView.progress).getD (0, 0) := by
  rw [progress, viewOf, Option.map_map]
  rfl

theorem ViewStep.progress_le {view view' : Option (ScopeView δ)}
    (h : ViewStep K scopeDigest change view view') :
    (view.map ScopeView.progress).getD (0, 0) ≤ (view'.map ScopeView.progress).getD (0, 0) := by
  cases h with
  | stays => exact le_refl _
  | created => exact ⟨Nat.zero_le _, Nat.zero_le _⟩
  | begun => exact ⟨Nat.le_succ _, le_refl _⟩
  | settled => exact le_refl _
  | advanced v ticket receipt _ _ _ _ _ _ _ _ hafter =>
    refine ⟨le_refl _, ?_⟩
    show v.row.generation ≤ receipt.installed.generation
    rw [receipt.installed_generation, hafter]
    exact Nat.le_succ _

/-- A transition without progress begins no action and leaves the pointer where it is. -/
theorem ViewStep.of_progress_eq {v v' : ScopeView δ}
    (h : ViewStep K scopeDigest change (some v) (some v')) (hsame : v.progress = v'.progress) :
    (∀ operationId requestDigest, change ≠ .begun scopeDigest operationId requestDigest) ∧
      v.pointer = v'.pointer := by
  cases h with
  | stays _ _ htouches =>
    refine ⟨fun operationId requestDigest heq => ?_, rfl⟩
    simp [heq, Change.touches] at htouches
  | begun => simp [ScopeView.progress, ScopeRow.begin] at hsame
  | settled => exact ⟨by simp, rfl⟩
  | advanced v ticket receipt _ _ _ _ _ _ _ _ hafter =>
    simp [ScopeView.progress, ScopeRow.advance, receipt.installed_generation, hafter] at hsame

/-- A sound database in which the scope is initialized. -/
def Initialized (K : Keyring δ) (scopeDigest : δ) (db : Db δ) : Prop :=
  Sound K db ∧ ∃ v, viewOf db scopeDigest = some v

theorem initialized_execute (h : Initialized K scopeDigest db) (event : Event δ) :
    Initialized K scopeDigest (execute K db event).2 := by
  obtain ⟨hsound, v, hview⟩ := h
  obtain ⟨change, happlies⟩ := execute_applies K db event
  have hstep := viewOf_applies hsound.tables happlies scopeDigest
  rw [hview] at hstep
  exact ⟨sound_execute hsound event, hstep.persists⟩

theorem progress_le_execute (hsound : Sound K db) (event : Event δ) :
    progress db scopeDigest ≤ progress (execute K db event).2 scopeDigest := by
  obtain ⟨change, happlies⟩ := execute_applies K db event
  rw [progress_eq_view, progress_eq_view]
  exact (viewOf_applies hsound.tables happlies scopeDigest).progress_le

/-- Between two states of a run with the same progress, no action of the scope is begun and its
pointer does not move. -/
theorem quiet_of_progress_eq {between : List (Event δ)} (hinit : Initialized K scopeDigest db)
    (hsame : progress (final (execute K) db between) scopeDigest = progress db scopeDigest) :
    ∀ u ∈ trace (execute K) db between,
      (∀ operationId, ¬ IssuesLease K scopeDigest operationId u) ∧
        pointer u.before scopeDigest = pointer u.after scopeDigest := by
  intro u hu
  -- progress only grows, so between two equal values no step changes it
  have hinv : ∀ db event, Initialized K scopeDigest db →
      Initialized K scopeDigest (execute K db event).2 :=
    fun _ event h => initialized_execute h event
  have hmono : ∀ db event, Initialized K scopeDigest db →
      progress db scopeDigest ≤ progress (execute K db event).2 scopeDigest :=
    fun _ event h => progress_le_execute h.1 event
  obtain ⟨hbefore, hafter⟩ := measure_constant (Initialized K scopeDigest)
    (fun db => progress db scopeDigest) hinv hmono hinit hsame hu
  obtain ⟨hsound, v, hview⟩ := invariant_before (Initialized K scopeDigest) hinv hinit hu
  have hstill := hbefore.trans hafter.symm
  rw [trace_mem_eq hu] at hstill ⊢
  -- a step without progress begins no action and stores no receipt
  have hstep : ∀ {change}, Applies K u.input.ambient u.before change
        (execute K u.before u.input).2 →
      (∀ operationId requestDigest, change ≠ .begun scopeDigest operationId requestDigest) ∧
        pointer u.before scopeDigest = pointer (execute K u.before u.input).2 scopeDigest := by
    intro change happlies
    have hstep := viewOf_applies hsound.tables happlies scopeDigest
    obtain ⟨v', hview'⟩ := (hview ▸ hstep).persists
    have hprogress : progress u.before scopeDigest =
        progress (execute K u.before u.input).2 scopeDigest := hstill
    rw [progress_eq_view, progress_eq_view, hview, hview'] at hprogress
    rw [hview, hview'] at hstep
    rw [pointer_eq_view, pointer_eq_view, hview, hview']
    obtain ⟨hbegun, hpointer⟩ := hstep.of_progress_eq hprogress
    exact ⟨hbegun, congrArg some hpointer⟩
  refine ⟨fun operationId hissues => ?_, ?_⟩
  · obtain ⟨requestDigest, happlies⟩ := hissues.applies
    exact (hstep happlies).1 operationId requestDigest rfl
  · obtain ⟨change, happlies⟩ := execute_applies K u.before u.input
    exact (hstep happlies).2

/-! ## Section 3: Reservation and commit -/

/-- The call reserved this very ticket. -/
def Reserves (K : Keyring δ) (ticket : BoundaryTicket δ) (db : Db δ) (event : Event δ) : Prop :=
  (∃ scope operationId expectedGeneration ttl,
      event.call = .reserveBoundary scope operationId expectedGeneration ttl) ∧
    (execute K db event).1 = .ok (.ticket ticket)

theorem Reserves.applies {ticket : BoundaryTicket δ} {event : Event δ}
    (h : Reserves K ticket db event) :
    Applies K event.ambient db (.reserved ticket) (execute K db event).2 := by
  obtain ⟨⟨scope, operationId, expectedGeneration, ttl, hcall⟩, houtput⟩ := h
  have hexec : execute K db event = (.ok (.ticket ticket), (execute K db event).2) :=
    Prod.ext houtput rfl
  obtain ⟨change, hcommits, happlies⟩ := execute_commits hexec
  rw [hcall] at hcommits
  cases hcommits with
  | quiet _ _ hquiet => exact hquiet.elim
  | reserved => exact happlies

/-- After its reservation, the scope is at the epoch and the generation of the ticket. -/
theorem Reserves.progress {ticket : BoundaryTicket δ} {event : Event δ} (hsound : Sound K db)
    (h : Reserves K ticket db event) :
    Initialized K ticket.scopeDigest (execute K db event).2 ∧
      progress (execute K db event).2 ticket.scopeDigest =
        (ticket.actionEpoch, ticket.expectedGeneration) := by
  have happlies := h.applies
  have hsound' := sound_execute hsound event
  generalize (execute K db event).2 = db' at happlies hsound' ⊢
  cases happlies with
  | reserved row _ _ _ hrow _ hscope hgeneration hepoch =>
    have hrow' : selectScope db ticket.scopeDigest = some row := hscope ▸ hrow
    refine ⟨⟨hsound', _, viewOf_eq_some hrow'⟩, ?_⟩
    show ((selectScope db ticket.scopeDigest).map _).getD _ = _
    rw [hrow', hepoch, hgeneration]
    rfl

/-- A receipt is committed in a scope that is idle at the epoch and the generation of the ticket,
before the ticket's expiry. -/
theorem CommitsReceipt.current {ticket : BoundaryTicket δ} {event : Event δ}
    (h : CommitsReceipt ticket (transitionOf (execute K) db event)) :
    (∃ row, selectScope db ticket.scopeDigest = some row ∧ row.actionState = .idle ∧
        row.actionEpoch = ticket.actionEpoch ∧ row.generation = ticket.expectedGeneration) ∧
      (event.ambient.clock event.call.ticketReading).utc = true ∧
      (event.ambient.clock event.call.ticketReading).micros < parseStamp ticket.expiresAt := by
  obtain ⟨receipt, hreading, happlies⟩ := h.applies
  rw [← hreading]
  generalize (execute K db event).2 = db' at happlies
  cases happlies with
  | advanced row _ _ _ _ _ _ _ _ hrow _ haccepted =>
    exact ⟨⟨row, haccepted.scope ▸ hrow, haccepted.idle, haccepted.epoch.symm ▸ rfl,
      haccepted.generation⟩, expired_eq_ok_false haccepted.unexpired⟩

/-- The row of this ticket, spent or not. -/
def HasTicket (ticket : BoundaryTicket δ) (db : Db δ) : Prop :=
  ∃ t ∈ db.tickets, t.toBoundaryBody = ticket.toBoundaryBody ∧ t.signature = ticket.signature

theorem CommitsReceipt.hasTicket {ticket : BoundaryTicket δ} {event : Event δ}
    (h : CommitsReceipt ticket (transitionOf (execute K) db event)) : HasTicket ticket db := by
  obtain ⟨receipt, _, happlies⟩ := h.applies
  generalize (execute K db event).2 = db' at happlies
  cases happlies with
  | advanced row _ _ _ _ _ _ _ _ _ _ haccepted =>
    obtain ⟨t, hsel, _, hbody, hsignature, _⟩ := haccepted.stored
    exact ⟨t, (selectTicket_eq_some hsel).1, hbody, hsignature⟩

/-- Only a reservation brings in the row of a ticket. -/
theorem reserves_of_hasTicket {ticket : BoundaryTicket δ} {event : Event δ}
    (hnew : ¬ HasTicket ticket db) (h : HasTicket ticket (execute K db event).2) :
    Reserves K ticket db event := by
  -- a spent ticket keeps its body and its signature, so it was in the table before
  have hspend : ∀ (ticket' : BoundaryTicket δ) (before after : δ),
      (∃ t ∈ spend ticket' before after db.tickets, t.toBoundaryBody = ticket.toBoundaryBody ∧
        t.signature = ticket.signature) → HasTicket ticket db := by
    rintro ticket' before after ⟨t, ht, hbody, hsignature⟩
    obtain ⟨t₀, ht₀, rfl⟩ := mem_updateRows.mp ht
    refine ⟨t₀, ht₀, ?_⟩
    split at hbody <;> split at hsignature <;> exact ⟨hbody, hsignature⟩
  cases houtput : (execute K db event).1 with
  | error e =>
    rw [execute_error houtput] at h
    exact absurd h hnew
  | ok answer =>
    have hexec : execute K db event = (.ok answer, (execute K db event).2) := Prod.ext houtput rfl
    obtain ⟨change, hcommits, happlies⟩ := execute_commits hexec
    unfold Reserves
    rw [houtput]
    generalize (execute K db event).2 = db' at happlies h
    -- of the changes, only a reservation appends to the table of tickets
    cases happlies with
    | reserved row ticket' =>
      obtain ⟨t, ht, hbody, hsignature⟩ := h
      rcases List.mem_append.mp ht with ht | ht
      · exact absurd ⟨t, ht, hbody, hsignature⟩ hnew
      · obtain rfl := List.mem_singleton.mp ht
        obtain rfl : ticket' = ticket := by
          cases ticket'
          cases ticket
          simp only at hbody hsignature
          rw [hbody, hsignature]
        generalize event.call = call at hcommits
        cases hcommits
        exact ⟨⟨_, _, _, _, rfl⟩, rfl⟩
    | consumed _ ticket' before after => exact absurd (hspend ticket' before after h) hnew
    | advanced _ ticket' _ _ before after => exact absurd (hspend ticket' before after h) hnew
    | _ => exact absurd h hnew

/-! ## Section 4: Ticket safety -/

/-- What a run guarantees about boundary tickets. -/
structure TicketSafe (K : Keyring δ) (events : List (Event δ)) : Prop where
  /-- A ticket authorizes at most one consumption, activation or rollback. -/
  once : (history K events).Pairwise fun t u => ∀ ticketId,
    Authorized ticketId t → ¬ Authorized ticketId u
  /-- A ticket under which an activation or a rollback commits was reserved before. -/
  issued : ∀ event ticket,
    CommitsReceipt ticket (transitionOf (execute K) (runStore K events) event) →
    ∃ before reserve between, events = before ++ reserve :: between ∧
      Reserves K ticket (runStore K before) reserve
  /-- Between the reservation and the commit no action of the scope was begun, and its binding and
  generation did not change. -/
  undisturbed : ∀ event ticket,
    CommitsReceipt ticket (transitionOf (execute K) (runStore K events) event) →
    ∀ before reserve between, events = before ++ reserve :: between →
      Reserves K ticket (runStore K before) reserve →
      ∀ u ∈ trace (execute K) (execute K (runStore K before) reserve).2 between,
        (∀ operationId, ¬ IssuesLease K ticket.scopeDigest operationId u) ∧
          pointer u.before ticket.scopeDigest = pointer u.after ticket.scopeDigest
  /-- At the commit the scope is idle at the ticket's epoch and generation, and the ticket had not
  expired at a clock reading of the call. -/
  current : ∀ event ticket,
    CommitsReceipt ticket (transitionOf (execute K) (runStore K events) event) →
    (∃ row, selectScope (runStore K events) ticket.scopeDigest = some row ∧
        row.actionState = .idle ∧ row.actionEpoch = ticket.actionEpoch ∧
        row.generation = ticket.expectedGeneration) ∧
      (event.ambient.clock event.call.ticketReading).utc = true ∧
      (event.ambient.clock event.call.ticketReading).micros < parseStamp ticket.expiresAt

/-- **Boundary-ticket safety** holds of every run. -/
theorem ticket_safety (K : Keyring δ) (events : List (Event δ)) : TicketSafe K events where
  once := authorized_pairwise K events
  issued := by
    intro event ticket hcommits
    have hnone : ¬ HasTicket ticket (Db.empty : Db δ) := by
      rintro ⟨t, ht, _⟩
      cases ht
    obtain ⟨before, reserve, between, rfl, hbefore, hafter⟩ :=
      exists_switch (HasTicket ticket) hnone hcommits.hasTicket
    exact ⟨before, reserve, between, rfl, reserves_of_hasTicket hbefore hafter⟩
  undisturbed := by
    rintro event ticket hcommits before reserve between rfl hreserves
    obtain ⟨hinit, hstart⟩ := hreserves.progress (sound_runStore K before)
    obtain ⟨⟨row, hrow, _, hepoch, hgeneration⟩, _⟩ := hcommits.current
    refine quiet_of_progress_eq hinit ?_
    rw [hstart, ← runStore_append_cons, progress, hrow, ← hepoch, ← hgeneration]
    rfl
  current := fun _ _ hcommits => hcommits.current

end ContractCapsule.Store
