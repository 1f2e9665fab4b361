import ContractCapsule.Store.Symbolic
import ContractCapsule.Store.Views

/-!
# The Life of Actions

In every reachable state the actions of a scope are numbered in the order they
were begun, only the latest one can be open, and the row says in which state it
is. From this the comparisons `_row` makes before every operation always pass.
-/

namespace ContractCapsule.Store

open Library

variable {δ : Type} [DecidableEq δ] {K : Keyring δ} {db : Db δ} {scopeDigest : δ}

/-! ## Section 1: Consistent views -/

/-- The row and the actions of a scope agree. -/
structure ScopeView.Consistent (K : Keyring δ) (scopeDigest : δ) (v : ScopeView δ) : Prop where
  scope : v.row.scopeDigest = scopeDigest
  verified : RowVerified K v.row
  owned : ∀ a ∈ v.actions, a.scopeDigest = scopeDigest
  actionsVerified : ∀ a ∈ v.actions, ActionVerified K a
  epochs : v.actions.map (·.actionEpoch) = List.range' 1 v.row.actionEpoch
  operations : (v.actions.map (·.operationId)).Nodup
  states : ∀ a ∈ v.actions,
    a.state = if a.actionEpoch = v.row.actionEpoch then v.row.actionState else .idle
  start : v.row.actionEpoch = 0 → v.row.actionState = .idle
  current : ∀ op, v.row.currentOperationId = some op →
    ∃ a ∈ v.actions, a.operationId = op ∧ a.actionEpoch = v.row.actionEpoch

namespace ScopeView.Consistent

variable {v : ScopeView δ} (h : v.Consistent K scopeDigest)

include h

theorem epoch_bounds {a : ActionRow δ} (ha : a ∈ v.actions) :
    1 ≤ a.actionEpoch ∧ a.actionEpoch ≤ v.row.actionEpoch := by
  have hmem : a.actionEpoch ∈ v.actions.map (·.actionEpoch) := List.mem_map_of_mem ha
  rw [h.epochs, List.mem_range'_1] at hmem
  omega

theorem eq_of_epoch_eq {a b : ActionRow δ} (ha : a ∈ v.actions) (hb : b ∈ v.actions)
    (hab : a.actionEpoch = b.actionEpoch) : a = b :=
  eq_of_key_eq (h.epochs ▸ List.nodup_range') ha hb hab

theorem eq_of_operationId_eq {a b : ActionRow δ} (ha : a ∈ v.actions) (hb : b ∈ v.actions)
    (hab : a.operationId = b.operationId) : a = b :=
  eq_of_key_eq h.operations ha hb hab

/-- An action that is not idle is the latest one. -/
theorem epoch_of_open {a : ActionRow δ} (ha : a ∈ v.actions) (hopen : a.state ≠ .idle) :
    a.actionEpoch = v.row.actionEpoch ∧ a.state = v.row.actionState := by
  have hstate := h.states a ha
  by_cases heq : a.actionEpoch = v.row.actionEpoch
  · exact ⟨heq, by rwa [if_pos heq] at hstate⟩
  · rw [if_neg heq] at hstate
    exact absurd hstate hopen

/-- Once an action was begun, the latest one carries the row's epoch and state, and every other
one is idle. -/
theorem latest (hepoch : v.row.actionEpoch ≠ 0) :
    ∃ earlier last, v.actions = earlier ++ [last] ∧ last.actionEpoch = v.row.actionEpoch ∧
      last.state = v.row.actionState ∧ ∀ a ∈ earlier, a.state = .idle := by
  -- the epochs of the actions count up to the row's, so the last one has it and no other one does
  obtain ⟨n, hn⟩ := Nat.exists_eq_succ_of_ne_zero hepoch
  have hepochs := h.epochs
  rw [hn, Nat.succ_eq_add_one, List.range'_1_concat, List.map_eq_append_iff] at hepochs
  obtain ⟨earlier, rest, hactions, hearlier, hrest⟩ := hepochs
  obtain ⟨last, rfl, hlast⟩ := List.map_eq_singleton_iff.mp hrest
  have hlast_epoch : last.actionEpoch = v.row.actionEpoch := by omega
  have hmem : last ∈ v.actions := by simp [hactions]
  refine ⟨earlier, last, hactions, hlast_epoch, ?_, fun a ha => ?_⟩
  · rw [h.states last hmem, if_pos hlast_epoch]
  · have hbound : a.actionEpoch ∈ earlier.map (·.actionEpoch) := List.mem_map_of_mem ha
    rw [hearlier, List.mem_range'_1] at hbound
    have hne : a.actionEpoch ≠ v.row.actionEpoch := by omega
    rw [h.states a (by simp [hactions, ha]), if_neg hne]

end ScopeView.Consistent

/-! ## Section 2: Transitions keep views consistent -/

/-- A view that is there after a transition is consistent if the one before was. -/
theorem ViewStep.consistent {change : Change δ} {view view' : Option (ScopeView δ)}
    (hstep : ViewStep K scopeDigest change view view')
    (h : ∀ v, view = some v → v.Consistent K scopeDigest) :
    ∀ v, view' = some v → v.Consistent K scopeDigest := by
  cases hstep with
  | stays change view _ => exact h
  -- a created scope has begun no action, and an idle row names no operation
  | created row hscope hverified hgeneration hidle hepoch =>
    rintro v ⟨⟩
    have hnone : row.currentOperationId = none := hverified.settled (by simp [hidle])
    exact
      { scope := hscope
        verified := hverified
        owned := by simp
        actionsVerified := by simp
        epochs := by simp [hepoch]
        operations := by simp
        states := by simp
        start := fun _ => hidle
        current := by simp [hnone] }
  -- the new action takes the next epoch, so the actions keep counting up without a gap
  | begun v action stateSig updatedAt hscope hidle hnew hepoch hrunning haction hrow =>
    rintro v' ⟨⟩
    have hv := h v rfl
    exact
      { scope := hv.scope
        verified := hrow
        owned := by
          intro a ha
          rcases List.mem_append.mp ha with ha | ha
          · exact hv.owned a ha
          · obtain rfl := List.mem_singleton.mp ha
            exact hscope
        actionsVerified := by
          intro a ha
          rcases List.mem_append.mp ha with ha | ha
          · exact hv.actionsVerified a ha
          · obtain rfl := List.mem_singleton.mp ha
            exact haction
        epochs := by
          show (v.actions ++ [action]).map _ = List.range' 1 (v.row.actionEpoch + 1)
          rw [List.map_append, hv.epochs, List.range'_1_concat, List.map_singleton, hepoch,
            Nat.add_comm]
        operations := nodup_append_row hv.operations hnew
        states := by
          intro a ha
          show a.state = if a.actionEpoch = v.row.actionEpoch + 1 then .running else .idle
          rcases List.mem_append.mp ha with ha | ha
          · -- the row was idle, so every earlier action is
            have hbound := (hv.epoch_bounds ha).2
            rw [if_neg (by omega), hv.states a ha, hidle, ite_self]
          · obtain rfl := List.mem_singleton.mp ha
            rw [if_pos hepoch, hrunning]
        start := fun hzero => absurd hzero (Nat.succ_ne_zero _)
        current := by
          rintro op ⟨⟩
          exact ⟨action, by simp, rfl, hepoch⟩ }
  | settled v action target finish stateSig updatedAt hmem hstate hopen htarget haction hkeep hrow =>
    rintro v' ⟨⟩
    have hv := h v rfl
    -- the action that is settled is the latest one: every earlier one is idle
    have hlatest := hv.epoch_of_open hmem (hstate ▸ hopen)
    have hat : ∀ a ∈ v.actions,
        a.isAt scopeDigest action.operationId = true ↔ a = action := by
      intro a ha
      rw [ActionRow.isAt_iff]
      exact ⟨fun hkey => hv.eq_of_operationId_eq ha hmem hkey.2,
        fun heq => ⟨hv.owned a ha, heq ▸ rfl⟩⟩
    exact
      { scope := hv.scope
        verified := hrow
        owned := by
          intro a ha
          -- settling changes the state of one action and nothing that the other clauses read
          obtain ⟨a₀, ha₀, rfl⟩ := mem_updateRows.mp ha
          split
          · exact (hkeep a₀).1.trans (hv.owned a₀ ha₀)
          · exact hv.owned a₀ ha₀
        actionsVerified := by
          intro a ha
          obtain ⟨a₀, ha₀, rfl⟩ := mem_updateRows.mp ha
          split
          · rename_i hp
            exact (hat a₀ ha₀).mp hp ▸ haction
          · exact hv.actionsVerified a₀ ha₀
        epochs := (map_updateRows fun a _ _ => (hkeep a).2.2.2.1).trans hv.epochs
        operations := by
          show ((updateRows _ finish v.actions).map (·.operationId)).Nodup
          rw [map_updateRows fun a _ _ => (hkeep a).2.1]
          exact hv.operations
        states := by
          intro a ha
          show a.state = if a.actionEpoch = v.row.actionEpoch then target else .idle
          obtain ⟨a₀, ha₀, rfl⟩ := mem_updateRows.mp ha
          split
          · rename_i hp
            -- the one that was rewritten carries the row's epoch and gets the row's new state
            obtain rfl := (hat a₀ ha₀).mp hp
            rw [(hkeep a₀).2.2.2.1, if_pos hlatest.1, (hkeep a₀).2.2.2.2]
          · rename_i hp
            -- every other action has an earlier epoch, so it was idle and still is
            have hne : a₀.actionEpoch ≠ v.row.actionEpoch := fun heq =>
              hp ((hat a₀ ha₀).mpr (hv.eq_of_epoch_eq ha₀ hmem (heq.trans hlatest.1.symm)))
            rw [if_neg hne, hv.states a₀ ha₀, if_neg hne]
        start := fun hzero => absurd (hv.start hzero) hopen
        current := by
          rintro op ⟨⟩ }
  -- a receipt moves neither the actions nor what the row says of them
  | advanced v ticket receipt stateSig updatedAt createdAt hscope hidle hgeneration hepoch hcontinues
      hafter hrow =>
    rintro v' ⟨⟩
    have hv := h v rfl
    exact
      { scope := hv.scope
        verified := hrow
        owned := hv.owned
        actionsVerified := hv.actionsVerified
        epochs := hv.epochs
        operations := hv.operations
        states := hv.states
        start := hv.start
        current := hv.current }

/-- A database whose tables are well formed and whose scopes are all consistent. -/
structure Sound (K : Keyring δ) (db : Db δ) : Prop where
  tables : WellFormed K db
  scopes : ∀ scopeDigest v, viewOf db scopeDigest = some v → v.Consistent K scopeDigest

theorem sound_empty : Sound K (Db.empty : Db δ) :=
  ⟨wellFormed_empty, fun _ v hv => by simp [viewOf, selectScope, Db.empty] at hv⟩

theorem sound_execute (hsound : Sound K db) (event : Event δ) :
    Sound K (execute K db event).2 := by
  obtain ⟨change, happlies⟩ := execute_applies K db event
  exact ⟨hsound.tables.applies happlies, fun scopeDigest =>
    (viewOf_applies hsound.tables happlies scopeDigest).consistent (hsound.scopes scopeDigest)⟩

/-- Every reachable database is sound. -/
theorem sound_runStore (K : Keyring δ) (events : List (Event δ)) :
    Sound K (runStore K events) :=
  invariant_final (Sound K) (fun _ event h => sound_execute h event) sound_empty events

/-! ## Section 3: The row checks pass -/

theorem Sound.consistent {row : ScopeRow δ} (hsound : Sound K db)
    (hrow : selectScope db scopeDigest = some row) :
    ScopeView.Consistent K scopeDigest
      ⟨row, selectActions db scopeDigest, receiptsOf db scopeDigest⟩ :=
  hsound.scopes scopeDigest _ (viewOf_eq_some hrow)

/-- The stored row under a key. -/
theorem selectScope_of_mem {row : ScopeRow δ} (hsound : Sound K db) (hrow : row ∈ db.scopes) :
    selectScope db row.scopeDigest = some row :=
  find?_eq_some_of_nodup hsound.tables.scopeKeys hrow

namespace ScopeView.Consistent

variable {v : ScopeView δ} (h : v.Consistent K scopeDigest)

include h

/-- The actions in an open state: the latest one when the row is in that state, else none. -/
theorem filter_state {s : ActionState} (hs : s ≠ .idle) :
    (v.row.actionState = s → ∃ last, v.actions.filter (fun a => a.state = s) = [last] ∧
        last ∈ v.actions ∧ last.actionEpoch = v.row.actionEpoch) ∧
      (v.row.actionState ≠ s → v.actions.filter (fun a => a.state = s) = []) := by
  constructor
  · intro hrow
    have hepoch : v.row.actionEpoch ≠ 0 := fun hzero => hs (hrow.symm.trans (h.start hzero))
    obtain ⟨earlier, last, hactions, hlast, hstate, hearlier⟩ := h.latest hepoch
    have hnone : earlier.filter (fun a => a.state = s) = [] := by
      refine List.filter_eq_nil_iff.mpr fun a ha => ?_
      simpa [hearlier a ha] using fun heq => hs heq.symm
    refine ⟨last, ?_, by simp [hactions], hlast⟩
    rw [hactions, List.filter_append, hnone]
    simp [hstate, hrow]
  · intro hrow
    refine List.filter_eq_nil_iff.mpr fun a ha => ?_
    have hopen : a.state = s → False := fun heq =>
      hrow ((h.epoch_of_open ha (heq ▸ hs)).2.symm.trans heq)
    simpa using hopen

/-- The action a running row names is the latest one. -/
theorem current_running (hrun : v.row.actionState = .running) :
    ∃ last, v.actions.filter (fun a => a.state = .running) = [last] ∧ last ∈ v.actions ∧
      last.actionEpoch = v.row.actionEpoch ∧ v.row.currentOperationId = some last.operationId := by
  obtain ⟨last, hfilter, hmem, hepoch⟩ := (h.filter_state (s := .running) (by decide)).1 hrun
  obtain ⟨op, hop, _⟩ := h.verified.running hrun
  obtain ⟨a, ha, haop, haepoch⟩ := h.current op hop
  obtain rfl := h.eq_of_epoch_eq ha hmem (haepoch.trans hepoch.symm)
  exact ⟨a, hfilter, hmem, hepoch, haop ▸ hop⟩

/-- The row is idle exactly when every action is. -/
theorem idle_iff : v.row.actionState = .idle ↔ ∀ a ∈ v.actions, a.state = .idle := by
  constructor
  · intro hidle a ha
    by_contra hopen
    exact hopen ((h.epoch_of_open ha hopen).2.trans hidle)
  · intro hall
    by_contra hopen
    obtain ⟨last, hfilter, hmem, _⟩ := (h.filter_state hopen).1 rfl
    have hlast : last ∈ v.actions.filter (fun a => a.state = v.row.actionState) := by
      simp [hfilter]
    have hstate : last.state = v.row.actionState := by simpa using (List.mem_filter.mp hlast).2
    exact hopen (hstate.symm.trans (hall last hmem))

end ScopeView.Consistent

/-- The action found under an operation id of a sound scope is the one with that id. -/
theorem selectAction_of_mem {row : ScopeRow δ} {a : ActionRow δ} (hsound : Sound K db)
    (hrow : selectScope db scopeDigest = some row) (ha : a ∈ selectActions db scopeDigest) :
    selectAction db scopeDigest a.operationId = some a := by
  have hv := hsound.consistent hrow
  obtain ⟨hmem, hsd⟩ := mem_selectActions.mp ha
  have hsome : (selectAction db scopeDigest a.operationId).isSome :=
    List.find?_isSome.mpr ⟨a, hmem, by simp [hsd]⟩
  obtain ⟨b, hb⟩ := Option.isSome_iff_exists.mp hsome
  obtain ⟨hbmem, hbsd, hbop⟩ := selectAction_eq_some hb
  rw [hb, hv.eq_of_operationId_eq (mem_selectActions.mpr ⟨hbmem, hbsd⟩) ha hbop]

theorem checkRunning_passes {row : ScopeRow δ} (hsound : Sound K db)
    (hrow : selectScope db scopeDigest = some row) :
    checkRunning row (selectRunning db scopeDigest)
      (row.currentOperationId.bind (selectAction db scopeDigest)) = .ok () := by
  have hv := hsound.consistent hrow
  unfold checkRunning
  by_cases hrun : row.actionState = .running
  · obtain ⟨last, hfilter, hmem, hepoch, hop⟩ := hv.current_running hrun
    have hstate : last.state = .running := by
      have hlast : last ∈ (selectActions db scopeDigest).filter (fun a => a.state = .running) := by
        simp [hfilter]
      simpa using (List.mem_filter.mp hlast).2
    have hfound := selectAction_of_mem hsound hrow hmem
    rw [if_pos hrun, raiseIf_eq_ok, selectRunning, hfilter, hop, Option.bind_some, hfound]
    simp [hstate, hepoch]
  · have hnone := (hv.filter_state (s := .running) (by decide)).2 hrun
    rw [if_neg hrun, raiseIf_eq_ok, selectRunning, hnone]
    simp

theorem checkLatest_passes {row : ScopeRow δ} (hsound : Sound K db)
    (hrow : selectScope db scopeDigest = some row) :
    checkLatest row (selectLatest db scopeDigest) = .ok () := by
  have hv := hsound.consistent hrow
  unfold checkLatest
  rw [raiseIf_eq_ok]
  cases hlatest : selectLatest db scopeDigest with
  | none => simp
  | some a =>
    have hmem : a ∈ selectActions db scopeDigest := List.argmax_mem hlatest
    have hstate := hv.states a hmem
    by_cases hepoch : a.actionEpoch = row.actionEpoch
    · rw [if_pos hepoch] at hstate
      simp [hstate]
    · simp [hepoch]

/-- `_row` returns the stored row of every scope that has one. -/
theorem readRow_passes {row : ScopeRow δ} {scope : RuntimeScope} (hsound : Sound K db)
    (hrow : selectScope db (K.scopeDigest scope) = some row) : readRow K scope db = .ok row := by
  have hv := hsound.consistent hrow
  have hverify : verifyRow K row = .ok () := verifyRow_eq_ok.mpr hv.verified
  have hactions : checkAll (verifyAction K) (selectActions db (K.scopeDigest scope)) = .ok () :=
    (checkAll_eq_ok _ _).mpr fun a ha => verifyAction_eq_ok.mpr (hv.actionsVerified a ha)
  have hsd : row.scopeDigest = K.scopeDigest scope := hv.scope
  simp only [readRow, rowAcross, hrow, orRaise, hverify, hactions, hsd, Except.ok_bind,
    checkRunning_passes hsound hrow, checkLatest_passes hsound hrow]
  rfl

/-! ## Section 4: The lifecycle of a reachable scope -/

/-- The action table of a scope, read against its row. -/
structure LifecycleAgrees (db : Db δ) (row : ScopeRow δ) : Prop where
  distinct : ((selectActions db row.scopeDigest).map (·.actionEpoch)).Nodup
  epochs : ∀ n, n ∈ (selectActions db row.scopeDigest).map (·.actionEpoch) ↔
    1 ≤ n ∧ n ≤ row.actionEpoch
  running : row.actionState = .running ↔
    ∃ a, (selectActions db row.scopeDigest).filter (fun a => a.state = .running) = [a] ∧
      row.currentOperationId = some a.operationId ∧ a.actionEpoch = row.actionEpoch
  uncertain : row.actionState = .uncertain ↔
    ∃ a, (selectActions db row.scopeDigest).filter (fun a => a.state = .uncertain) = [a] ∧
      a.actionEpoch = row.actionEpoch
  idle : row.actionState = .idle ↔ ∀ a ∈ selectActions db row.scopeDigest, a.state = .idle

theorem Sound.lifecycleAgrees {row : ScopeRow δ} (hsound : Sound K db) (hrow : row ∈ db.scopes) :
    LifecycleAgrees db row := by
  have hv := hsound.consistent (selectScope_of_mem hsound hrow)
  -- an action in a state other than idle is that of the scope, since the log has no other
  have hopen : ∀ {s : ActionState} {a : ActionRow δ}, s ≠ .idle →
      (selectActions db row.scopeDigest).filter (fun a => a.state = s) = [a] →
      row.actionState = s := by
    intro s a hs hfilter
    by_contra hne
    have hnone := (hv.filter_state hs).2 hne
    rw [hfilter] at hnone
    cases hnone
  -- the epochs of the log are 1, 2 and so on
  constructor
  · rw [hv.epochs]
    exact List.nodup_range'
  · intro n
    rw [hv.epochs, List.mem_range'_1]
    show 1 ≤ n ∧ n < 1 + row.actionEpoch ↔ _
    omega
  · constructor
    · intro hrun
      obtain ⟨last, hfilter, _, hepoch, hcurrent⟩ := hv.current_running hrun
      exact ⟨last, hfilter, hcurrent, hepoch⟩
    · rintro ⟨a, hfilter, _⟩
      exact hopen (by decide) hfilter
  · constructor
    · intro hunc
      obtain ⟨last, hfilter, _, hepoch⟩ := (hv.filter_state (s := .uncertain) (by decide)).1 hunc
      exact ⟨last, hfilter, hepoch⟩
    · rintro ⟨a, hfilter, _⟩
      exact hopen (by decide) hfilter
  · exact hv.idle_iff

/-- **The action lifecycle**: after every run, the actions of every scope agree with its row, and
`_row` accepts the scope. -/
theorem action_lifecycle (K : Keyring δ) (events : List (Event δ)) :
    ∀ row ∈ (runStore K events).scopes,
      LifecycleAgrees (runStore K events) row ∧
        ∀ scope, K.scopeDigest scope = row.scopeDigest →
          readRow K scope (runStore K events) = .ok row := by
  intro row hrow
  have hsound := sound_runStore K events
  refine ⟨hsound.lifecycleAgrees hrow, fun scope hscope => ?_⟩
  exact readRow_passes hsound (hscope ▸ selectScope_of_mem hsound hrow)

section Sample

open Symbolic

/-- A scope with one completed action and one whose end is uncertain. -/
def uncertainRun : List (Event Hash) :=
  [initializeCall "A" 1 "a1", beginCall "A" "op1" 2 "a2", endCall "A" "op1" 1 3 false "a3",
    beginCall "A" "op2" 4 "a4", endCall "A" "op2" 2 5 true "a5"]

theorem action_lifecycle_uncertainRun :
    let db := runStore keyring uncertainRun
    let row := sampleRow uncertainRun
    row.actionState = .uncertain ∧ row.actionEpoch = 2 ∧ LifecycleAgrees db row ∧
      readRow keyring (scopeOf "A") db = .ok row := by
  intro db row
  have hmem : row ∈ db.scopes := by decide +kernel
  obtain ⟨hagrees, hread⟩ := action_lifecycle keyring uncertainRun row hmem
  exact ⟨by decide +kernel, by decide +kernel, hagrees, hread (scopeOf "A") (by decide +kernel)⟩

end Sample

end ContractCapsule.Store
