import ContractCapsule.Store.Chain

/-!
# At-Most-Once Operations

An operation id begins one action, activates once and is rolled back once. A
retry finds what the first attempt stored; a different request under the same
operation id is refused, and neither changes a row.
-/

namespace ContractCapsule.Store

open Library

variable {δ : Type} [DecidableEq δ] {K : Keyring δ} {env : Ambient δ} {db db' : Db δ}

/-! ## Section 1: Stored rows are found again -/

theorem selectPrepared_of_mem {p : PreparedRow δ} (hsound : Sound K db) (hp : p ∈ db.prepared) :
    selectPrepared db p.scopeDigest p.preparedId = some p := by
  have hsome : (selectPrepared db p.scopeDigest p.preparedId).isSome :=
    List.find?_isSome.mpr ⟨p, hp, by simp⟩
  obtain ⟨p', hp'⟩ := Option.isSome_iff_exists.mp hsome
  obtain ⟨hmem, _, hid⟩ := selectPrepared_eq_some hp'
  rw [hp', eq_of_key_eq hsound.tables.preparedKeys hmem hp hid]

theorem selectReceipt_of_mem {q : ReceiptRow δ} (hsound : Sound K db) (hq : q ∈ db.receipts) :
    selectReceipt db q.scopeDigest q.receiptId = some q := by
  have hsome : (selectReceipt db q.scopeDigest q.receiptId).isSome :=
    List.find?_isSome.mpr ⟨q, hq, by simp⟩
  obtain ⟨q', hq'⟩ := Option.isSome_iff_exists.mp hsome
  obtain ⟨hmem, _, hid⟩ := selectReceipt_eq_some hq'
  rw [hq', eq_of_key_eq hsound.tables.receiptKeys hmem hq hid]

theorem selectReceiptOf_of_mem {q : ReceiptRow δ} (hsound : Sound K db) (hq : q ∈ db.receipts) :
    selectReceiptOf db q.scopeDigest q.operationId q.kind = some q := by
  have hsome : (selectReceiptOf db q.scopeDigest q.operationId q.kind).isSome :=
    List.find?_isSome.mpr ⟨q, hq, by simp⟩
  obtain ⟨q', hq'⟩ := Option.isSome_iff_exists.mp hsome
  obtain ⟨hmem, hsd, hop, hkind⟩ := selectReceiptOf_eq_some hq'
  have heq : q' = q := eq_of_key_eq hsound.tables.receiptOnce hmem hq (by rw [hsd, hop, hkind])
  rw [hq', heq]

theorem loadReceiptDb_of_mem {q : ReceiptRow δ} {scope : RuntimeScope} (hsound : Sound K db)
    (hq : q ∈ db.receipts) (hscope : q.scopeDigest = K.scopeDigest scope) :
    loadReceiptDb K scope q.receiptId db = .ok q.payload := by
  have hsel := selectReceipt_of_mem hsound hq
  rw [hscope] at hsel
  exact loadReceiptDb_eq_ok.mpr ⟨q, hsel, hsound.tables.receiptAuthentic q hq, rfl⟩

/-- The scope of a stored row has a row of its own. -/
theorem selectScope_of_receipt {q : ReceiptRow δ} (hsound : Sound K db) (hq : q ∈ db.receipts) :
    ∃ row, selectScope db q.scopeDigest = some row := by
  obtain ⟨row, hrow, hsd⟩ := hsound.tables.receiptOwner q hq
  exact ⟨row, hsd ▸ selectScope_of_mem hsound hrow⟩

/-! ## Section 2: Retries -/

omit [DecidableEq δ] in
/-- An authentic receipt row carries the columns of its payload. -/
theorem ReceiptRow.Authentic.activation {q : ReceiptRow δ} {r : ActivationReceipt δ}
    (h : q.Authentic K) (hr : q.payload = .activation r) :
    q.kind = .activate ∧ r.operationId = q.operationId ∧ r.requestDigest = q.requestDigest ∧
      r.scopeDigest = q.scopeDigest := by
  have hkind := h.kind
  have hop := h.operationId
  have hreq := h.requestDigest
  have hsd := h.scopeDigest
  rw [hr] at hkind hop hreq hsd
  exact ⟨hkind.symm, hop, hreq, hsd⟩

omit [DecidableEq δ] in
theorem ReceiptRow.Authentic.rollback {q : ReceiptRow δ} {r : RollbackReceipt δ}
    (h : q.Authentic K) (hr : q.payload = .rollback r) :
    q.kind = .rollback ∧ r.operationId = q.operationId ∧ r.scopeDigest = q.scopeDigest := by
  have hkind := h.kind
  have hop := h.operationId
  have hsd := h.scopeDigest
  rw [hr] at hkind hop hsd
  exact ⟨hkind.symm, hop, hsd⟩

/-- What a lookup for replay says about a record whose operation id is already activated. -/
theorem findActivationReplay_of_mem {q : ReceiptRow δ} {r : ActivationReceipt δ}
    {scope : RuntimeScope} {record : PreparedReplacement δ} (hsound : Sound K db)
    (hq : q ∈ db.receipts) (hr : q.payload = .activation r)
    (hscope : q.scopeDigest = K.scopeDigest scope) (hop : record.operationId = r.operationId) :
    findActivationReplay K scope record db =
      if r.requestDigest ≠ record.requestDigest then
        .error (.replayConflict "activation operation is bound to another request")
      else if r.preparedId ≠ record.preparedId then
        .error (.replayConflict "activation operation is bound to another preparation")
      else .ok (some r) := by
  obtain ⟨hkind, hqop, _⟩ := (hsound.tables.receiptAuthentic q hq).activation hr
  have hsel := selectReceiptOf_of_mem hsound hq
  rw [hscope, hkind, ← hqop, ← hop] at hsel
  -- the stored payload is handed out after its columns were compared with it
  have hload := loadReceiptDb_of_mem hsound hq hscope
  rw [hr] at hload
  simp only [findActivationReplay, hsel, hload, Except.ok_bind]
  by_cases hreq : r.requestDigest = record.requestDigest
  · by_cases hid : r.preparedId = record.preparedId
    · simp [raiseIf, hreq, hid, pure, Except.pure]
    · simp [raiseIf, hreq, hid]
  · simp [raiseIf, hreq]

/-- An activation that is retried with its own record answers the stored receipt. -/
theorem activatePrepared_replays {q : ReceiptRow δ} {r : ActivationReceipt δ}
    {scope : RuntimeScope} {ticket : BoundaryTicket δ} {approvalDigest : DigestText δ}
    {validator : Option (PreparedReplacement δ → DigestText δ → Bool)} (hsound : Sound K db)
    (hq : q ∈ db.receipts) (hr : q.payload = .activation r)
    (hscope : q.scopeDigest = K.scopeDigest scope)
    (happroval : approvalDigest.startsWithSha256 = true) :
    Returns (activatePrepared K env scope r.preparedId ticket approvalDigest validator) db r db := by
  obtain ⟨p, hp, hpscope, hpid, hpop, hpreq⟩ := hsound.tables.activationPrepared q hq r hr
  -- the scope, the record and the receipt are all still there, so every check before the replay
  -- passes
  obtain ⟨row, hrow⟩ := selectScope_of_receipt hsound hq
  rw [hscope] at hrow
  have hsel := selectPrepared_of_mem hsound hp
  rw [hpscope, hscope, hpid] at hsel
  have hauthentic := hsound.tables.preparedAuthentic p hp
  have hload : loadPreparedDb K (env.clock 0) scope r.preparedId true db = .ok p.payload :=
    loadPreparedDb_eq_ok.mpr ⟨p, hsel, hauthentic, rfl⟩
  have hreplay : findActivationReplay K scope p.payload db = .ok (some r) := by
    rw [findActivationReplay_of_mem hsound hq hr hscope hpop, hpreq, hauthentic.preparedId, hpid]
    simp
  simp only [activatePrepared, returns_bind, returns_check, returns_query]
  exact ⟨(), db, ⟨by simp [happroval], rfl⟩, row, db, ⟨readRow_passes hsound hrow, rfl⟩,
    p.payload, db, ⟨hload, rfl⟩, some r, db, ⟨hreplay, rfl⟩, by simp⟩

/-- A record for an operation id that was activated from another request or another preparation
is refused at the replay lookup. -/
theorem activatePrepared_conflicts {q : ReceiptRow δ} {p : PreparedRow δ}
    {r : ActivationReceipt δ} {scope : RuntimeScope} {ticket : BoundaryTicket δ}
    {approvalDigest : DigestText δ}
    {validator : Option (PreparedReplacement δ → DigestText δ → Bool)} (hsound : Sound K db)
    (hq : q ∈ db.receipts) (hr : q.payload = .activation r)
    (hscope : q.scopeDigest = K.scopeDigest scope) (hp : p ∈ db.prepared)
    (hpscope : p.scopeDigest = K.scopeDigest scope) (hop : p.payload.operationId = r.operationId)
    (hother : p.payload.requestDigest ≠ r.requestDigest ∨ p.preparedId ≠ r.preparedId)
    (happroval : approvalDigest.startsWithSha256 = true) :
    ∃ message, Raises
      (activatePrepared K env scope p.preparedId ticket approvalDigest validator) db
      (.replayConflict message) := by
  obtain ⟨row, hrow⟩ := selectScope_of_receipt hsound hq
  rw [hscope] at hrow
  have hsel := selectPrepared_of_mem hsound hp
  rw [hpscope] at hsel
  have hauthentic := hsound.tables.preparedAuthentic p hp
  have hload : loadPreparedDb K (env.clock 0) scope p.preparedId true db = .ok p.payload :=
    loadPreparedDb_eq_ok.mpr ⟨p, hsel, hauthentic, rfl⟩
  have hconflict : ∃ message, findActivationReplay K scope p.payload db =
      .error (.replayConflict message) := by
    -- one of the two comparisons fails, whichever of the two conflicts it is
    rw [findActivationReplay_of_mem hsound hq hr hscope hop, hauthentic.preparedId]
    by_cases hreq : r.requestDigest = p.payload.requestDigest
    · have hid : r.preparedId ≠ p.preparedId :=
        fun heq => hother.elim (fun h => h hreq.symm) (fun h => h heq.symm)
      exact ⟨_, by rw [if_neg (not_not.mpr hreq), if_pos hid]⟩
    · exact ⟨_, if_pos hreq⟩
  obtain ⟨message, hraise⟩ := hconflict
  refine ⟨message, ?_⟩
  simp only [activatePrepared, raises_bind, raises_check, raises_query, returns_check,
    returns_query]
  -- the approval, the row and the record pass; the replay lookup is where the call stops
  exact .inr ⟨(), db, ⟨by simp [happroval], rfl⟩, .inr ⟨row, db,
    ⟨readRow_passes hsound hrow, rfl⟩, .inr ⟨p.payload, db, ⟨hload, rfl⟩, .inl hraise⟩⟩⟩

theorem activatePrepared_unapproved {scope : RuntimeScope} {preparedId : String}
    {ticket : BoundaryTicket δ} {approvalDigest : DigestText δ}
    {validator : Option (PreparedReplacement δ → DigestText δ → Bool)}
    (happroval : ¬ approvalDigest.startsWithSha256 = true) :
    Raises (activatePrepared K env scope preparedId ticket approvalDigest validator) db
      (.runtimeStoreError "activation approval rejected") := by
  rw [activatePrepared, raises_bind, raises_check]
  exact .inl (raiseIf_of _ (by simpa using happroval))

/-- A rollback that is retried answers the stored receipt. -/
theorem rollbackReceipt_replays {s q : ReceiptRow δ} {source : ActivationReceipt δ}
    {r : RollbackReceipt δ} {scope : RuntimeScope} {ticket : BoundaryTicket δ}
    {validator : Option (ActivationReceipt δ → Bool)} (hsound : Sound K db)
    (hs : s ∈ db.receipts) (hsource : s.payload = .activation source)
    (hsscope : s.scopeDigest = K.scopeDigest scope) (hq : q ∈ db.receipts)
    (hr : q.payload = .rollback r) (hqscope : q.scopeDigest = K.scopeDigest scope)
    (hop : r.operationId = source.operationId) :
    Returns (rollbackReceipt K env scope s.receiptId ticket validator) db r db := by
  obtain ⟨row, hrow⟩ := selectScope_of_receipt hsound hs
  rw [hsscope] at hrow
  obtain ⟨hkind, hqop, _⟩ := (hsound.tables.receiptAuthentic q hq).rollback hr
  -- the source is found by its id, the receipt of the rollback by its operation id and kind
  have hload := loadReceiptDb_of_mem hsound hs hsscope
  rw [hsource] at hload
  have hsel := selectReceiptOf_of_mem hsound hq
  rw [hqscope, hkind, ← hqop, hop] at hsel
  have hreplay : replayRollback K scope q db = .ok r := by
    rw [replayRollback, loadReceiptDb_of_mem hsound hq hqscope, hr]
    rfl
  simp only [rollbackReceipt, returns_bind, returns_query]
  refine ⟨row, db, ⟨readRow_passes hsound hrow, rfl⟩, _, db, ⟨hload, rfl⟩, ?_⟩
  simp only [returns_bind, returns_select]
  exact ⟨some q, db, ⟨hsel, rfl⟩, by simp [hreplay]⟩

/-- Beginning an action again with another request is refused. -/
theorem beginAction_conflicts {a : ActionRow δ} {scope : RuntimeScope}
    {requestDigest : DigestText δ} (hsound : Sound K db) (ha : a ∈ db.actions)
    (hscope : a.scopeDigest = K.scopeDigest scope) (hother : requestDigest ≠ a.requestDigest) :
    Raises (beginAction K env scope a.operationId requestDigest) db
      (.replayConflict "operation id is bound to another request") := by
  obtain ⟨r, hr, hsd⟩ := hsound.tables.actionOwner a ha
  have hrow := selectScope_of_mem hsound hr
  rw [hsd, hscope] at hrow
  -- the action is found by its operation id before anything else about it is checked
  have hfound := selectAction_of_mem hsound hrow (mem_selectActions.mpr ⟨ha, hscope⟩)
  have hop := hsound.tables.actionNamed a ha
  simp only [beginAction, raises_bind, raises_check, raises_query, raises_select, returns_check,
    returns_query, returns_select]
  refine .inr ⟨(), db, ⟨by simp [hop], rfl⟩, .inr ⟨r, db, ⟨readRow_passes hsound hrow, rfl⟩,
    .inr ⟨some a, db, ⟨hfound, rfl⟩, ?_⟩⟩⟩
  simp [replayAction, raiseIf_of, hother.symm]

/-! ## Section 3: Leases -/

/-- The transition issued a lease that is not marked as a replay. -/
def IssuesLease (K : Keyring δ) (scopeDigest : δ) (operationId : String)
    (t : Transition (Db δ) (Event δ) (Reply δ)) : Prop :=
  ∃ scope requestDigest lease, t.input.call = .beginAction scope operationId requestDigest ∧
    K.scopeDigest scope = scopeDigest ∧ t.output = .ok (.lease lease) ∧ lease.replayed = false

theorem IssuesLease.applies {scopeDigest : δ} {operationId : String} {event : Event δ}
    (h : IssuesLease K scopeDigest operationId (transitionOf (execute K) db event)) :
    ∃ requestDigest, Applies K event.ambient db (.begun scopeDigest operationId requestDigest)
      (execute K db event).2 := by
  obtain ⟨scope, requestDigest, lease, hcall, rfl, houtput, hfresh⟩ := h
  have hexec : execute K db event = (.ok (.lease lease), (execute K db event).2) :=
    Prod.ext houtput rfl
  obtain ⟨change, hcommits, happlies⟩ := execute_commits hexec
  have hcall' : event.call = .beginAction scope operationId requestDigest := hcall
  rw [hcall'] at hcommits
  cases hcommits with
  -- a call that changed nothing answered a lease that is marked as a replay
  | quiet _ _ hquiet =>
    have hreplayed : lease.replayed = true := hquiet
    rw [hfresh] at hreplayed
    cases hreplayed
  | begun => exact ⟨requestDigest, happlies⟩

/-- Two transitions of a run never issue a fresh lease for one operation id. -/
theorem leases_pairwise (K : Keyring δ) (events : List (Event δ)) :
    (history K events).Pairwise fun t u => ∀ scopeDigest operationId,
      IssuesLease K scopeDigest operationId t → ¬ IssuesLease K scopeDigest operationId u := by
  -- the mark a lease leaves is the action row, whose key no later change erases
  refine trace_pairwise (Sound K) _
    (fun t db => ∀ scopeDigest operationId, IssuesLease K scopeDigest operationId t →
      ∃ a ∈ db.actions, a.scopeDigest = scopeDigest ∧ a.operationId = operationId)
    (fun _ event h => sound_execute h event) ?_ ?_ ?_ sound_empty events
  · intro db event _ scopeDigest operationId hissues
    obtain ⟨requestDigest, happlies⟩ := hissues.applies
    generalize (execute K db event).2 = db' at happlies ⊢
    cases happlies with
    | begun row => exact ⟨_, List.mem_append_right _ (List.mem_singleton_self _), rfl, rfl⟩
  · intro t db event _ hmark scopeDigest operationId hissues
    obtain ⟨a, ha, hsd, hop⟩ := hmark scopeDigest operationId hissues
    obtain ⟨change, happlies⟩ := execute_applies K db event
    obtain ⟨a', ha', hsd', hop', _⟩ := happlies.keeps_action ha
    exact ⟨a', ha', hsd'.trans hsd, hop'.trans hop⟩
  · intro t db event _ hmark scopeDigest operationId ht hu
    obtain ⟨a, ha, hsd, hop⟩ := hmark scopeDigest operationId ht
    obtain ⟨requestDigest, happlies⟩ := hu.applies
    generalize (execute K db event).2 = db' at happlies
    cases happlies with
    | begun row _ _ _ _ _ _ _ _ _ hnew =>
      have hnone := List.find?_eq_none.mp hnew a ha
      simp [hsd, hop] at hnone

/-! ## Section 4: The pointer -/

/-- The active binding and the generation of a scope. -/
def pointer (db : Db δ) (scopeDigest : δ) : Option (ActiveBinding δ × ℕ) :=
  (selectScope db scopeDigest).map fun row => (row.activeJcs, row.generation)

/-- The transition moved the pointer of a scope that was there. -/
def movesPointer (scopeDigest : δ) (t : Transition (Db δ) (Event δ) (Reply δ)) : Bool :=
  (pointer t.before scopeDigest).isSome ∧
    pointer t.before scopeDigest ≠ pointer t.after scopeDigest

def ScopeView.pointer (v : ScopeView δ) : ActiveBinding δ × ℕ := (v.row.activeJcs, v.row.generation)

theorem pointer_eq_view {scopeDigest : δ} :
    pointer db scopeDigest = (viewOf db scopeDigest).map ScopeView.pointer := by
  rw [pointer, viewOf, Option.map_map]
  rfl

theorem receiptsOf_eq_view {scopeDigest : δ} (hwf : WellFormed K db) :
    receiptsOf db scopeDigest = ((viewOf db scopeDigest).map (·.receipts)).getD [] := by
  unfold viewOf
  cases hrow : selectScope db scopeDigest with
  | some row => rfl
  | none =>
    -- a receipt without a scope row would break the foreign key
    refine List.filter_eq_nil_iff.mpr fun q hq => ?_
    obtain ⟨r, hr, hsd⟩ := hwf.receiptOwner q hq
    have hnone := List.find?_eq_none.mp hrow r hr
    simpa [hsd] using hnone

omit [DecidableEq δ] in
theorem ReceiptPayload.installed_generation (p : ReceiptPayload δ) :
    p.installed.generation = p.generationAfter := by
  cases p with
  | activation r => exact r.newGeneration
  | rollback r => exact r.restoredGeneration

/-- A transition adds a receipt to a view exactly when it moves the pointer. -/
theorem ViewStep.receipts_length {scopeDigest : δ} {change : Change δ}
    {view view' : Option (ScopeView δ)} (h : ViewStep K scopeDigest change view view') :
    ((view'.map (·.receipts)).getD []).length = ((view.map (·.receipts)).getD []).length +
      if view.isSome ∧ view.map ScopeView.pointer ≠ view'.map ScopeView.pointer then 1 else 0 := by
  cases h with
  | stays => simp
  | created => simp
  | begun => simp [ScopeView.pointer, ScopeRow.begin]
  | settled => simp [ScopeView.pointer, ScopeRow.settle]
  | advanced v ticket receipt _ _ _ _ _ _ _ _ hafter =>
    have hgeneration : v.row.generation ≠ receipt.installed.generation := by
      rw [receipt.installed_generation, hafter]
      omega
    simp [ScopeView.pointer, ScopeRow.advance, hgeneration]

/-- The pointer of a scope moved as often as receipts were stored for it. -/
theorem movesPointer_count (K : Keyring δ) (events : List (Event δ)) (scopeDigest : δ) :
    (history K events).countP (movesPointer scopeDigest) =
      (receiptsOf (runStore K events) scopeDigest).length := by
  have hcount := count_trace (Sound K) (movesPointer scopeDigest)
    (fun db => (receiptsOf db scopeDigest).length) (fun _ event h => sound_execute h event)
    (fun db event hsound => ?_) (sound_empty (K := K)) events
  · simpa [receiptsOf, Db.empty, history, runStore] using hcount.symm
  · obtain ⟨change, happlies⟩ := execute_applies K db event
    have hstep := viewOf_applies hsound.tables happlies scopeDigest
    have hlength := hstep.receipts_length
    rw [← receiptsOf_eq_view hsound.tables,
      ← receiptsOf_eq_view (sound_execute hsound event).tables] at hlength
    simp only [movesPointer, transitionOf, pointer_eq_view, Option.isSome_map, decide_eq_true_eq]
    exact hlength

/-! ## Section 5: At most once -/

/-- An activation that returned left its receipt in the scope. -/
theorem activatePrepared_stored {scope : RuntimeScope} {preparedId : String}
    {ticket : BoundaryTicket δ} {approvalDigest : DigestText δ}
    {validator : Option (PreparedReplacement δ → DigestText δ → Bool)} {r : ActivationReceipt δ}
    (hsound : Sound K db) (hsound' : Sound K db')
    (h : Returns (activatePrepared K env scope preparedId ticket approvalDigest validator) db r
      db') :
    r.preparedId = preparedId ∧ ∃ q ∈ db'.receipts, q.payload = .activation r ∧
      q.scopeDigest = K.scopeDigest scope := by
  obtain ⟨hid, hscope, hstored⟩ := activatePrepared_applies h
  have hmem : ∃ q ∈ db'.receipts, q.payload = .activation r := by
    -- either the stored receipt was answered, or this call stored it
    rcases hstored with ⟨rfl, hq⟩ | happlies
    · exact hq
    · cases happlies
      exact ⟨_, List.mem_append_right _ (List.mem_singleton_self _), rfl⟩
  obtain ⟨q, hq, hpayload⟩ := hmem
  obtain ⟨_, _, _, hsd⟩ := (hsound'.tables.receiptAuthentic q hq).activation hpayload
  exact ⟨hid, q, hq, hpayload, hsd.symm.trans hscope⟩

/-- A rollback that returned left its receipt beside its source. -/
theorem rollbackReceipt_stored {scope : RuntimeScope} {receiptId : String}
    {ticket : BoundaryTicket δ} {validator : Option (ActivationReceipt δ → Bool)}
    {r : RollbackReceipt δ} (hsound : Sound K db) (hsound' : Sound K db')
    (h : Returns (rollbackReceipt K env scope receiptId ticket validator) db r db') :
    ∃ s ∈ db'.receipts, ∃ source, s.payload = .activation source ∧ s.receiptId = receiptId ∧
      s.scopeDigest = K.scopeDigest scope ∧
      ∃ q ∈ db'.receipts, q.payload = .rollback r ∧ q.scopeDigest = K.scopeDigest scope ∧
        r.operationId = source.operationId := by
  obtain ⟨s, source, hsel, hsource, hstored⟩ := rollbackReceipt_applies h
  obtain ⟨hs, hsscope, hsid⟩ := selectReceipt_eq_some hsel
  -- either a stored rollback was found for the operation, or this call stored one
  rcases hstored with ⟨rfl, existing, hexisting, hload⟩ | ⟨hop, hrscope, happlies⟩
  · obtain ⟨hmem, hescope, heop, _⟩ := selectReceiptOf_eq_some hexisting
    rw [loadReceiptDb_of_mem hsound hmem hescope] at hload
    have hpayload := Except.ok.inj hload
    obtain ⟨_, hrop, _⟩ := (hsound.tables.receiptAuthentic existing hmem).rollback hpayload
    exact ⟨s, hs, source, hsource, hsid, hsscope, existing, hmem, hpayload, hescope,
      hrop.trans heop⟩
  · have hs' := happlies.keeps_receipt hs
    cases happlies with
    | advanced row _ _ _ _ _ _ createdAt _ _ _ _ _ _ _ _ _ _ hauthentic =>
      obtain ⟨_, _, hsd⟩ := hauthentic.rollback rfl
      exact ⟨s, hs', source, hsource, hsid, hsscope, _,
        List.mem_append_right _ (List.mem_singleton_self _), rfl, hsd.symm.trans hrscope, hop⟩

/-- What a run guarantees about retries and repetitions. -/
structure AtMostOnce (K : Keyring δ) (events : List (Event δ)) : Prop where
  /-- One operation id of a scope gets at most one lease that is not a replay. -/
  lease : (history K events).Pairwise fun t u => ∀ scopeDigest operationId,
    IssuesLease K scopeDigest operationId t → ¬ IssuesLease K scopeDigest operationId u
  /-- One operation id of a scope has at most one receipt of each kind. -/
  receipt : ((runStore K events).receipts.map
    fun q => (q.scopeDigest, q.payload.operationId, q.payload.kind)).Nodup
  /-- A retried activation answers the same receipt, however much later, and changes nothing. -/
  activationRetry : ∀ env scope preparedId ticket approvalDigest validator r,
    (execute K (runStore K events)
      ⟨env, .activatePrepared scope preparedId ticket approvalDigest validator⟩).1 =
        .ok (.receipt (.activation r)) →
    ∀ later env' ticket' approvalDigest' validator', approvalDigest'.startsWithSha256 = true →
      let db := runStore K (events ++
        ⟨env, .activatePrepared scope preparedId ticket approvalDigest validator⟩ :: later)
      execute K db ⟨env', .activatePrepared scope preparedId ticket' approvalDigest' validator'⟩ =
        (.ok (.receipt (.activation r)), db)
  /-- A retried rollback answers the same receipt, however much later, and changes nothing. -/
  rollbackRetry : ∀ env scope receiptId ticket validator r,
    (execute K (runStore K events) ⟨env, .rollbackReceipt scope receiptId ticket validator⟩).1 =
        .ok (.receipt (.rollback r)) →
    ∀ later env' ticket' validator',
      let db := runStore K (events ++
        ⟨env, .rollbackReceipt scope receiptId ticket validator⟩ :: later)
      execute K db ⟨env', .rollbackReceipt scope receiptId ticket' validator'⟩ =
        (.ok (.receipt (.rollback r)), db)
  /-- A stored record for an activated operation id, with another request or under another id, is
  refused. -/
  activationConflict : ∀ q ∈ (runStore K events).receipts, ∀ r, q.payload = .activation r →
    ∀ p ∈ (runStore K events).prepared, p.scopeDigest = q.scopeDigest →
    p.payload.operationId = r.operationId →
    (p.payload.requestDigest ≠ r.requestDigest ∨ p.preparedId ≠ r.preparedId) →
    ∀ env scope ticket approvalDigest validator, K.scopeDigest scope = q.scopeDigest →
      ∃ e, execute K (runStore K events)
          ⟨env, .activatePrepared scope p.preparedId ticket approvalDigest validator⟩ =
          (.error e, runStore K events) ∧
        (approvalDigest.startsWithSha256 = true → ∃ message, e = .replayConflict message)
  /-- An operation id that was begun with another request is refused. -/
  beginConflict : ∀ a ∈ (runStore K events).actions, ∀ env scope requestDigest,
    K.scopeDigest scope = a.scopeDigest → requestDigest ≠ a.requestDigest →
      execute K (runStore K events) ⟨env, .beginAction scope a.operationId requestDigest⟩ =
        (.error (.replayConflict "operation id is bound to another request"), runStore K events)
  /-- The pointer of a scope moves once for each of its receipts. -/
  pointer : ∀ scopeDigest, (history K events).countP (movesPointer scopeDigest) =
    (receiptsOf (runStore K events) scopeDigest).length

/-- The database after a run, one more call and a further run. -/
theorem runStore_append_cons (events later : List (Event δ)) (event : Event δ) :
    runStore K (events ++ event :: later) =
      final (execute K) (execute K (runStore K events) event).2 later :=
  final_append _ _ _

theorem execute_of_returns (event : Event δ) {answer : Answer δ}
    (h : Returns (program K event.ambient event.call) db answer db') :
    execute K db event = (.ok answer, db') :=
  (transaction_eq_ok ..).mpr h

theorem execute_of_raises {event : Event δ} {e : StoreError}
    (h : Raises (program K event.ambient event.call) db e) :
    execute K db event = (.error e, db) :=
  (transaction_eq_error ..).mpr h

theorem returns_of_execute {event : Event δ} {answer : Answer δ}
    (h : (execute K db event).1 = .ok answer) :
    Returns (program K event.ambient event.call) db answer (execute K db event).2 :=
  (transaction_eq_ok ..).mp (Prod.ext h rfl)

/-- **At-most-once operations**: every run has these guarantees. -/
theorem at_most_once (K : Keyring δ) (events : List (Event δ)) : AtMostOnce K events where
  lease := leases_pairwise K events
  receipt := by
    have hsound := sound_runStore K events
    have hcolumns : (runStore K events).receipts.map
        (fun q => (q.scopeDigest, q.payload.operationId, q.payload.kind)) =
        (runStore K events).receipts.map (fun q => (q.scopeDigest, q.operationId, q.kind)) := by
      -- the columns of an authentic row are those of its payload
      refine List.map_congr_left fun q hq => ?_
      have hauthentic := hsound.tables.receiptAuthentic q hq
      rw [hauthentic.operationId, hauthentic.kind]
    rw [hcolumns]
    exact hsound.tables.receiptOnce
  activationRetry := by
    intro env scope preparedId ticket approvalDigest validator r hfirst later env' ticket'
      approvalDigest' validator' happroval db
    have hsound := sound_runStore K events
    have hsound' := sound_execute hsound
      ⟨env, .activatePrepared scope preparedId ticket approvalDigest validator⟩
    obtain ⟨r', hreturns, hr'⟩ := (returns_map ..).mp (returns_of_execute hfirst)
    cases hr'
    -- the first call left its receipt, which no later call erases, so the retry finds it
    obtain ⟨hid, q, hq, hpayload, hscope⟩ := activatePrepared_stored hsound hsound' hreturns
    have hq' : q ∈ db.receipts := by
      show q ∈ (runStore K (events ++ _ :: later)).receipts
      rw [runStore_append_cons]
      exact mem_receipts_final hq later
    refine execute_of_returns _ ((returns_map ..).mpr ⟨r, ?_, rfl⟩)
    rw [← hid]
    exact activatePrepared_replays (sound_runStore K _) hq' hpayload hscope happroval
  rollbackRetry := by
    intro env scope receiptId ticket validator r hfirst later env' ticket' validator' db
    have hsound := sound_runStore K events
    have hsound' := sound_execute hsound ⟨env, .rollbackReceipt scope receiptId ticket validator⟩
    obtain ⟨r', hreturns, hr'⟩ := (returns_map ..).mp (returns_of_execute hfirst)
    cases hr'
    -- as for the activation: both the source and the receipt of the rollback are kept
    obtain ⟨s, hs, source, hsource, hsid, hsscope, q, hq, hpayload, hscope, hop⟩ :=
      rollbackReceipt_stored hsound hsound' hreturns
    have hkept : ∀ {x}, x ∈ (execute K (runStore K events)
        ⟨env, .rollbackReceipt scope receiptId ticket validator⟩).2.receipts → x ∈ db.receipts := by
      intro x hx
      show x ∈ (runStore K (events ++ _ :: later)).receipts
      rw [runStore_append_cons]
      exact mem_receipts_final hx later
    refine execute_of_returns _ ((returns_map ..).mpr ⟨r, ?_, rfl⟩)
    rw [← hsid]
    exact rollbackReceipt_replays (sound_runStore K _) (hkept hs) hsource hsscope (hkept hq)
      hpayload hscope hop
  activationConflict := by
    intro q hq r hr p hp hpscope hop hother env scope ticket approvalDigest validator hscope
    -- without an approval digest the call stops before it looks at the record
    by_cases happroval : approvalDigest.startsWithSha256 = true
    · have hconflict : ∃ message, Raises
          (activatePrepared K env scope p.preparedId ticket approvalDigest validator)
          (runStore K events) (.replayConflict message) :=
        activatePrepared_conflicts (sound_runStore K events) hq hr hscope.symm hp
          (hpscope.trans hscope.symm) hop hother happroval
      obtain ⟨message, hraises⟩ := hconflict
      exact ⟨_, execute_of_raises ((raises_map ..).mpr hraises), fun _ => ⟨message, rfl⟩⟩
    · exact ⟨_, execute_of_raises ((raises_map ..).mpr (activatePrepared_unapproved happroval)),
        fun h => absurd h happroval⟩
  beginConflict := by
    intro a ha env scope requestDigest hscope hother
    exact execute_of_raises ((raises_map ..).mpr
      (beginAction_conflicts (sound_runStore K events) ha hscope.symm hother))
  pointer := movesPointer_count K events

section Sample

open Symbolic

/-- The events before the activation of the sample swap. -/
def beforeActivation : List (Event Hash) := initializeCall "A" 1 "a1" :: swapRun.take 4

/-- The activation of the sample swap is retried after its rollback, with another ticket and under
another clock. -/
theorem at_most_once_swapRun :
    let db := runStore keyring (initializeCall "A" 1 "a1" :: swapRun)
    execute keyring db (activateCall "A" "p1" (ticketOf "A" "op1" "t9" 0 1 99) 80 "r9" "a9") =
      (.ok (.receipt (.activation
        (activationOf (preparedOf "A" "op1" "p1" "base" "next" 0) "r1" "t1"))), db) := by
  have hfirst : (execute keyring (runStore keyring beforeActivation)
      (activateCall "A" "p1" (ticketOf "A" "op1" "t1" 0 1 34) 5 "r1" "a5")).1 =
        .ok (.receipt (.activation
          (activationOf (preparedOf "A" "op1" "p1" "base" "next" 0) "r1" "t1"))) := by
    decide +kernel
  exact (at_most_once keyring beforeActivation).activationRetry _ _ _ _ _ _ _ hfirst
    (swapRun.drop 5) _ _ _ _ (by decide)

end Sample

end ContractCapsule.Store
