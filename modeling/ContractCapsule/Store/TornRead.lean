import ContractCapsule.Store.TicketSafety

/-!
# Reads Outside a Transaction

`get` opens no transaction: its five `SELECT`s read five committed databases, with
any number of commits of other connections between one and the next. It returns
the row of the first; the later ones are compared with that row, and the
comparison fails when an action was begun or settled in between.
-/

namespace ContractCapsule.Store

open Library

variable {δ : Type} [DecidableEq δ] {K : Keyring δ} {db : Db δ} {scopeDigest : δ}
  {row r : ScopeRow δ}

/-! ## Section 1: Successive databases -/

/-- The databases that successive statements read: committed ones, in the order of a run. -/
structure Snapshots (K : Keyring δ) (read : ℕ → Db δ) : Prop where
  reachable : ∃ events, read 0 = runStore K events
  later : ∀ i, ∃ events, read (i + 1) = final (execute K) (read i) events

namespace Snapshots

variable {read : ℕ → Db δ} (h : Snapshots K read)

include h

theorem sound (i : ℕ) : Sound K (read i) := by
  induction i with
  | zero =>
    obtain ⟨events, heq⟩ := h.reachable
    exact heq ▸ sound_runStore K events
  | succ i ih =>
    obtain ⟨events, heq⟩ := h.later i
    rw [heq]
    exact invariant_final (Sound K) (fun _ event hs => sound_execute hs event) ih events

/-- A scope that is there at the first statement is there at every later one. -/
theorem row_persists (hrow : selectScope (read 0) scopeDigest = some row) (i : ℕ) :
    ∃ r, selectScope (read i) scopeDigest = some r := by
  have hinit : Initialized K scopeDigest (read i) := by
    induction i with
    | zero => exact ⟨h.sound 0, _, viewOf_eq_some hrow⟩
    | succ i ih =>
      obtain ⟨events, heq⟩ := h.later i
      rw [heq]
      exact invariant_final (Initialized K scopeDigest)
        (fun _ event hs => initialized_execute hs event) ih events
  obtain ⟨_, v, hview⟩ := hinit
  obtain ⟨r, hr, _⟩ := Option.map_eq_some_iff.mp hview
  exact ⟨r, hr⟩

/-- An action keeps its key and its epoch from one statement to every later one. -/
theorem action_persists {a : ActionRow δ} (ha : a ∈ (read 0).actions) (i : ℕ) :
    ∃ a' ∈ (read i).actions, a'.scopeDigest = a.scopeDigest ∧ a'.operationId = a.operationId ∧
      a'.actionEpoch = a.actionEpoch := by
  induction i with
  | zero => exact ⟨a, ha, rfl, rfl, rfl⟩
  | succ i ih =>
    obtain ⟨events, heq⟩ := h.later i
    rw [heq]
    refine invariant_final (fun db : Db δ => ∃ a' ∈ db.actions, a'.scopeDigest = a.scopeDigest ∧
      a'.operationId = a.operationId ∧ a'.actionEpoch = a.actionEpoch) ?_ ih events
    rintro db event ⟨a', ha', hsd, hop, hepoch⟩
    obtain ⟨change, happlies⟩ := execute_applies K db event
    obtain ⟨a'', ha'', hsd', hop', _, hepoch'⟩ := happlies.keeps_action ha'
    exact ⟨a'', ha'', hsd'.trans hsd, hop'.trans hop, hepoch'.trans hepoch⟩

end Snapshots

/-! ## Section 2: The comparisons across databases -/

/-- The running actions of a scope, as many as its row says. -/
theorem selectRunning_length (hsound : Sound K db) (hr : selectScope db scopeDigest = some r) :
    (selectRunning db scopeDigest).length = if r.actionState = .running then 1 else 0 := by
  have hv := hsound.consistent hr
  obtain ⟨hrunning, hsettled⟩ := hv.filter_state (s := .running) (by decide)
  by_cases hrun : r.actionState = .running
  · obtain ⟨last, hfilter, _⟩ := hrunning hrun
    rw [selectRunning, hfilter, if_pos hrun]
    rfl
  · rw [selectRunning, hsettled hrun, if_neg hrun]
    rfl

/-- The latest action of a scope that has begun one carries the epoch and the state of the row. -/
theorem selectLatest_of_begun (hsound : Sound K db) (hr : selectScope db scopeDigest = some r)
    (hbegun : r.actionEpoch ≠ 0) :
    ∃ a, selectLatest db scopeDigest = some a ∧ a.actionEpoch = r.actionEpoch ∧
      a.state = r.actionState := by
  have hv := hsound.consistent hr
  obtain ⟨earlier, last, hactions, hlast, _⟩ := hv.latest hbegun
  have hmem : last ∈ selectActions db scopeDigest := by
    have h : selectActions db scopeDigest = earlier ++ [last] := hactions
    simp [h]
  cases hlatest : selectLatest db scopeDigest with
  | none =>
    have hnil : selectActions db scopeDigest = [] := List.argmax_eq_none.mp hlatest
    simp [hnil] at hmem
  | some a =>
    have ha : a ∈ selectActions db scopeDigest := List.argmax_mem hlatest
    have hle : last.actionEpoch ≤ a.actionEpoch := List.le_of_mem_argmax hmem hlatest
    have hepoch : a.actionEpoch = r.actionEpoch :=
      le_antisymm (hv.epoch_bounds ha).2 (hlast ▸ hle)
    exact ⟨a, rfl, hepoch, (hv.states a ha).trans (if_pos hepoch)⟩

/-- A scope that has begun no action has none. -/
theorem selectLatest_of_not_begun (hsound : Sound K db)
    (hr : selectScope db scopeDigest = some r) (hbegun : r.actionEpoch = 0) :
    selectLatest db scopeDigest = none := by
  have hv := hsound.consistent hr
  have hepochs : (selectActions db scopeDigest).map (·.actionEpoch) =
      List.range' 1 r.actionEpoch := hv.epochs
  rw [hbegun, List.range'_zero, List.map_eq_nil_iff] at hepochs
  rw [selectLatest, hepochs]
  rfl

variable {read : ℕ → Db δ}

/-- The row of the scope as the `SELECT`s after the first find it: running exactly if it was, the
running action still the same, and no other state under the same epoch. -/
structure Undisturbed (scopeDigest : δ) (read : ℕ → Db δ) (row : ScopeRow δ) : Prop where
  running : ∀ r, selectScope (read 2) scopeDigest = some r →
    (r.actionState = .running ↔ row.actionState = .running)
  current : row.actionState = .running → ∀ r, selectScope (read 3) scopeDigest = some r →
    r.actionState = .running ∧ r.actionEpoch = row.actionEpoch
  latest : ∀ r, selectScope (read 4) scopeDigest = some r →
    r.actionEpoch = row.actionEpoch → r.actionState = row.actionState

/-- The action a running row names is, at a later statement, running exactly if the scope is in
the same epoch and running. -/
theorem Snapshots.current_iff (h : Snapshots K read)
    (hrow : selectScope (read 0) scopeDigest = some row) (hrun : row.actionState = .running)
    {i : ℕ} (hr : selectScope (read i) scopeDigest = some r) :
    ∃ a, row.currentOperationId.bind (selectAction (read i) scopeDigest) = some a ∧
      a.actionEpoch = row.actionEpoch ∧
      (a.state = .running ↔ r.actionState = .running ∧ r.actionEpoch = row.actionEpoch) := by
  -- the action that ran in the first state is still found in any later one, under the same epoch
  obtain ⟨first, _, hfirst, hepoch, hop⟩ := ((h.sound 0).consistent hrow).current_running hrun
  obtain ⟨hmem, hsd⟩ := mem_selectActions.mp hfirst
  obtain ⟨a, ha, hasd, haop, haepoch⟩ := h.action_persists hmem i
  have hv := (h.sound i).consistent hr
  have hmem' : a ∈ selectActions (read i) scopeDigest :=
    mem_selectActions.mpr ⟨ha, hasd.trans hsd⟩
  have hfound := selectAction_of_mem (h.sound i) hr hmem'
  have hsame : a.actionEpoch = row.actionEpoch := haepoch.trans hepoch
  refine ⟨a, ?_, hsame, ?_⟩
  · rw [hop, Option.bind_some, ← haop, hfound]
  -- it still runs exactly when it is the last one of the scope and the scope is not idle
  · constructor
    · intro hstate
      obtain ⟨hlatest, hopen⟩ := hv.epoch_of_open hmem' (by simp [hstate])
      exact ⟨hopen.symm.trans hstate, hlatest.symm.trans hsame⟩
    · rintro ⟨hstate, hlatest⟩
      exact (hv.states a hmem').trans ((if_pos (hsame.trans hlatest.symm)).trans hstate)

/-- What the comparison with the running actions finds when they are read later than the row. -/
theorem Snapshots.checkRunning_iff (h : Snapshots K read)
    (hrow : selectScope (read 0) scopeDigest = some row) {r₂ r₃ : ScopeRow δ}
    (hr₂ : selectScope (read 2) scopeDigest = some r₂)
    (hr₃ : selectScope (read 3) scopeDigest = some r₃) :
    checkRunning row (selectRunning (read 2) scopeDigest)
        (row.currentOperationId.bind (selectAction (read 3) scopeDigest)) = .ok () ↔
      (r₂.actionState = .running ↔ row.actionState = .running) ∧
        (row.actionState = .running →
          r₃.actionState = .running ∧ r₃.actionEpoch = row.actionEpoch) := by
  have hlength := selectRunning_length (h.sound 2) hr₂
  unfold checkRunning
  by_cases hrun : row.actionState = .running
  · obtain ⟨a, hcurrent, hepoch, hstate⟩ := h.current_iff hrow hrun hr₃
    rw [if_pos hrun, raiseIf_eq_ok, hlength, hcurrent]
    simp [hrun, hepoch, hstate]
  · rw [if_neg hrun, raiseIf_eq_ok, not_not, ← List.length_eq_zero_iff, hlength]
    simp [hrun]

/-- What the comparison with the latest action finds when it is read later than the row. -/
theorem Snapshots.checkLatest_iff (h : Snapshots K read)
    (hrow : selectScope (read 0) scopeDigest = some row) {r₄ : ScopeRow δ}
    (hr₄ : selectScope (read 4) scopeDigest = some r₄) :
    checkLatest row (selectLatest (read 4) scopeDigest) = .ok () ↔
      (r₄.actionEpoch = row.actionEpoch → r₄.actionState = row.actionState) := by
  unfold checkLatest
  rw [raiseIf_eq_ok]
  by_cases hbegun : r₄.actionEpoch = 0
  · rw [selectLatest_of_not_begun (h.sound 4) hr₄ hbegun]
    have hidle : r₄.actionState = .idle := ((h.sound 4).consistent hr₄).start hbegun
    have hstart := ((h.sound 0).consistent hrow).start
    simp only [Option.any_none, Bool.false_eq_true, not_false_eq_true, true_iff]
    intro hepoch
    exact hidle.trans (hstart (hepoch.symm.trans hbegun)).symm
  · obtain ⟨a, hlatest, hepoch, hstate⟩ := selectLatest_of_begun (h.sound 4) hr₄ hbegun
    rw [hlatest]
    simp [hepoch, hstate]

/-! ## Section 3: Torn reads -/

theorem Snapshots.undisturbed_iff (h : Snapshots K read)
    (hrow : selectScope (read 0) scopeDigest = some row) :
    Undisturbed scopeDigest read row ↔
      checkRunning row (selectRunning (read 2) scopeDigest)
          (row.currentOperationId.bind (selectAction (read 3) scopeDigest)) = .ok () ∧
        checkLatest row (selectLatest (read 4) scopeDigest) = .ok () := by
  -- a scope is never removed, so each later state has a row of it
  obtain ⟨r₂, hr₂⟩ := h.row_persists hrow 2
  obtain ⟨r₃, hr₃⟩ := h.row_persists hrow 3
  obtain ⟨r₄, hr₄⟩ := h.row_persists hrow 4
  rw [h.checkRunning_iff hrow hr₂ hr₃, h.checkLatest_iff hrow hr₄]
  constructor
  · intro hundisturbed
    exact ⟨⟨hundisturbed.running r₂ hr₂, fun hrun => hundisturbed.current hrun r₃ hr₃⟩,
      hundisturbed.latest r₄ hr₄⟩
  · rintro ⟨⟨hrunning, hcurrent⟩, hlatest⟩
    refine ⟨fun r hr => ?_, fun hrun r hr => ?_, fun r hr => ?_⟩
    · obtain rfl := Option.some.inj (hr₂.symm.trans hr)
      exact hrunning
    · obtain rfl := Option.some.inj (hr₃.symm.trans hr)
      exact hcurrent hrun
    · obtain rfl := Option.some.inj (hr₄.symm.trans hr)
      exact hlatest

omit [DecidableEq δ] in
theorem checkRunning_error {running : List (ActionRow δ)} {current : Option (ActionRow δ)}
    (h : checkRunning row running current ≠ .ok ()) :
    checkRunning row running current =
      .error (.runtimeStoreError "runtime action state rejected") := by
  unfold checkRunning at h ⊢
  split at h <;> rename_i hrun
  · rw [if_pos hrun]
    exact raiseIf_of _ (not_not.mp fun hc => h (raiseIf_of_not _ hc))
  · rw [if_neg hrun]
    exact raiseIf_of _ (not_not.mp fun hc => h (raiseIf_of_not _ hc))

omit [DecidableEq δ] in
theorem checkLatest_error {latest : Option (ActionRow δ)} (h : checkLatest row latest ≠ .ok ()) :
    checkLatest row latest = .error (.runtimeStoreError "runtime action state rejected") :=
  raiseIf_of _ (not_not.mp fun hc => h (raiseIf_of_not _ hc))

/-- `get` returns the state its first statement found, or rejects the scope. -/
theorem Snapshots.getAcross_eq (h : Snapshots K read) {scope : RuntimeScope}
    (hrow : selectScope (read 0) (K.scopeDigest scope) = some row)
    [Decidable (Undisturbed (K.scopeDigest scope) read row)] :
    getAcross K scope read =
      if Undisturbed (K.scopeDigest scope) read row then .ok row.state
      else .error (.runtimeStoreError "runtime action state rejected") := by
  have hv := (h.sound 0).consistent hrow
  obtain ⟨r₁, hr₁⟩ := h.row_persists hrow 1
  have hv₁ := (h.sound 1).consistent hr₁
  have hsd : row.scopeDigest = K.scopeDigest scope := hv.scope
  -- rows are verified in whichever database they are read, so two of the tests always pass
  have hverify : verifyRow K row = .ok () := verifyRow_eq_ok.mpr hv.verified
  have hactions : checkAll (verifyAction K) (selectActions (read 1) (K.scopeDigest scope)) =
      .ok () :=
    (checkAll_eq_ok _ _).mpr fun a ha => verifyAction_eq_ok.mpr (hv₁.actionsVerified a ha)
  have hread : getAcross K scope read = (do
      checkRunning row (selectRunning (read 2) (K.scopeDigest scope))
        (row.currentOperationId.bind (selectAction (read 3) (K.scopeDigest scope)))
      checkLatest row (selectLatest (read 4) (K.scopeDigest scope))
      return row.state) := by
    simp only [getAcross, rowAcross, state, hrow, orRaise, hsd, hverify, hactions, Except.ok_bind,
      bind_assoc, pure_bind]
  rw [hread]
  have hiff := h.undisturbed_iff hrow
  -- what is left compares the first row with what the later statements find
  by_cases hrunning : checkRunning row (selectRunning (read 2) (K.scopeDigest scope))
      (row.currentOperationId.bind (selectAction (read 3) (K.scopeDigest scope))) = .ok ()
  · by_cases hlatest : checkLatest row (selectLatest (read 4) (K.scopeDigest scope)) = .ok ()
    · rw [if_pos (hiff.mpr ⟨hrunning, hlatest⟩), hrunning, hlatest]
      rfl
    · rw [if_neg fun hundisturbed => hlatest (hiff.mp hundisturbed).2, hrunning,
        checkLatest_error hlatest]
      rfl
  · rw [if_neg fun hundisturbed => hrunning (hiff.mp hundisturbed).1, checkRunning_error hrunning]
    rfl

/-- A state the scope had in one of the databases the five statements read. -/
def CommittedDuring (scopeDigest : δ) (read : ℕ → Db δ) (s : RuntimeState δ) : Prop :=
  ∃ i < 5, ∃ r, selectScope (read i) scopeDigest = some r ∧ s = r.state

/-- **Torn reads.** `get` answers an initialized scope with a state it had during the read exactly
when the scope is left undisturbed meanwhile. -/
theorem get_not_torn (K : Keyring δ) (scope : RuntimeScope) (read : ℕ → Db δ) (row : ScopeRow δ)
    (hsnapshots : Snapshots K read)
    (hrow : selectScope (read 0) (K.scopeDigest scope) = some row) :
    (∃ s, getAcross K scope read = .ok s ∧ CommittedDuring (K.scopeDigest scope) read s) ↔
      Undisturbed (K.scopeDigest scope) read row := by
  classical
  rw [hsnapshots.getAcross_eq hrow]
  constructor
  · rintro ⟨s, hget, _⟩
    by_contra hdisturbed
    rw [if_neg hdisturbed] at hget
    cases hget
  · intro hundisturbed
    rw [if_pos hundisturbed]
    exact ⟨row.state, rfl, 0, by decide, row, hrow, rfl⟩

section Sample

open Symbolic

/-- Databases of a run of which `n` events are committed at the first statement and all of them
at every later one. -/
def readAfter (n : ℕ) (events : List (Event Hash)) (i : ℕ) : Db Hash :=
  if i = 0 then runStore keyring (events.take n) else runStore keyring events

theorem snapshots_readAfter (n : ℕ) (events : List (Event Hash)) :
    Snapshots keyring (readAfter n events) where
  reachable := ⟨events.take n, rfl⟩
  later := by
    intro i
    cases i with
    | zero =>
      refine ⟨events.drop n, ?_⟩
      show runStore keyring events = final _ (runStore keyring (events.take n)) _
      rw [runStore, runStore, ← final_append, List.take_append_drop]
    | succ i => exact ⟨[], rfl⟩

/-- A scope is initialized and an action is begun. -/
def openedRun : List (Event Hash) := [initializeCall "A" 1 "a1", beginCall "A" "op1" 2 "a2"]

/-- The action is completed and a ticket is reserved for it. -/
def reservedRun : List (Event Hash) :=
  openedRun ++ [endCall "A" "op1" 1 3 false "a3", reserveCall "A" "op1" "t1" 0 4 "a4"]

/-- A reservation that commits during the read does not disturb it. -/
theorem get_not_torn_reservedRun :
    ∃ s, getAcross keyring (scopeOf "A") (readAfter 3 reservedRun) = .ok s ∧
      CommittedDuring (scopeTerm (scopeOf "A")) (readAfter 3 reservedRun) s := by
  have hsame : ∀ i < 5, selectScope (readAfter 3 reservedRun i) (scopeTerm (scopeOf "A")) =
      some (sampleRow reservedRun) := by decide +kernel
  have hidle : (sampleRow reservedRun).actionState = .idle := by decide +kernel
  refine (get_not_torn keyring (scopeOf "A") _ _ (snapshots_readAfter 3 reservedRun)
    (hsame 0 (by decide))).mpr ⟨fun r hr => ?_, fun hrun => ?_, fun r hr _ => ?_⟩
  · obtain rfl := Option.some.inj (hr.symm.trans (hsame 2 (by decide)))
    exact Iff.rfl
  · rw [hidle] at hrun
    cases hrun
  · obtain rfl := Option.some.inj (hr.symm.trans (hsame 4 (by decide)))
    rfl

/-- An action that is begun during the read makes `get` reject a scope that is consistent in every
database it reads. -/
theorem get_torn_openedRun :
    Snapshots keyring (readAfter 1 openedRun) ∧
      (selectScope (readAfter 1 openedRun 0) (scopeTerm (scopeOf "A"))).isSome ∧
      ¬ ∃ s, getAcross keyring (scopeOf "A") (readAfter 1 openedRun) = .ok s ∧
        CommittedDuring (scopeTerm (scopeOf "A")) (readAfter 1 openedRun) s := by
  refine ⟨snapshots_readAfter 1 openedRun, by decide +kernel, ?_⟩
  rintro ⟨s, hget, _⟩
  have herror : getAcross keyring (scopeOf "A") (readAfter 1 openedRun) =
      .error (.runtimeStoreError "runtime action state rejected") := by decide +kernel
  rw [herror] at hget
  cases hget

end Sample

end ContractCapsule.Store
