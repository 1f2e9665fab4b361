import ContractCapsule.Store.Lifecycle

/-!
# The Receipt Chain

The receipts of a scope, in the order they were stored, are the links of a chain
that starts at the bootstrap binding and ends at the active one. Every link
advances the generation by one; an activation starts from the binding installed
before it, and a rollback undoes the activation right before it.
-/

namespace ContractCapsule.Store

open Library

variable {δ : Type}

/-! ## Section 1: Chains -/

/-- `Chain bootstrap links active`: the links lead from `bootstrap` to `active`. -/
inductive Chain (bootstrap : ActiveBinding δ) : List (ReceiptPayload δ) → ActiveBinding δ → Prop
  | start (h : bootstrap.generation = 0) : Chain bootstrap [] bootstrap
  | activation {links : List (ReceiptPayload δ)} {active : ActiveBinding δ}
      (r : ActivationReceipt δ) (hprev : Chain bootstrap links active)
      (hold : r.oldBinding = active) (hafter : r.generationAfter = links.length + 1) :
      Chain bootstrap (links ++ [.activation r]) r.newBinding
  | rollback {links : List (ReceiptPayload δ)} {active : ActiveBinding δ}
      (source : ActivationReceipt δ) (r : RollbackReceipt δ)
      (hprev : Chain bootstrap (links ++ [.activation source]) active)
      (hid : r.sourceReceiptId = source.receiptId) (hop : r.operationId = source.operationId)
      (hrestored : r.restoredBinding = source.oldBinding.atGeneration (links.length + 2)) :
      Chain bootstrap (links ++ [.activation source] ++ [.rollback r]) r.restoredBinding

namespace Chain

variable {bootstrap active : ActiveBinding δ} {links : List (ReceiptPayload δ)}

theorem rollback_generationAfter {source : ActivationReceipt δ} {r : RollbackReceipt δ} {n : ℕ}
    (hrestored : r.restoredBinding = source.oldBinding.atGeneration n) :
    r.generationAfter = n := by
  rw [← r.restoredGeneration, hrestored]
  rfl

/-- One more link establishes the next generation. -/
theorem generations_append {p : ReceiptPayload δ}
    (h : links.map (·.generationAfter) = List.range' 1 links.length)
    (hp : p.generationAfter = links.length + 1) :
    (links ++ [p]).map (·.generationAfter) = List.range' 1 (links ++ [p]).length := by
  rw [List.map_append, h, List.length_append, List.length_singleton, List.range'_1_concat,
    List.map_singleton, hp, Nat.add_comm]

/-- The links establish the generations 1, 2, ... in order. -/
theorem generations (h : Chain bootstrap links active) :
    links.map (·.generationAfter) = List.range' 1 links.length := by
  induction h with
  | start => rfl
  | activation r _ _ hafter ih => exact generations_append ih hafter
  | rollback source r _ _ _ hrestored ih =>
    refine generations_append ih ?_
    rw [List.length_append, List.length_singleton]
    exact rollback_generationAfter hrestored

/-- The active binding carries the number of links as its generation. -/
theorem generation (h : Chain bootstrap links active) : active.generation = links.length := by
  cases h with
  | start h => exact h
  | activation r _ _ hafter =>
    rw [r.newGeneration, hafter, List.length_append, List.length_singleton]
  | rollback source r _ _ _ hrestored =>
    rw [r.restoredGeneration, rollback_generationAfter hrestored]
    simp

/-- The link that establishes the current generation is the last one. -/
theorem last_of_generationAfter (h : Chain bootstrap links active) {p : ReceiptPayload δ}
    (hp : p ∈ links) (hafter : p.generationAfter = links.length) :
    ∃ earlier, links = earlier ++ [p] := by
  have hgenerations := h.generations
  rcases List.eq_nil_or_concat' links with rfl | ⟨earlier, last, rfl⟩
  · simp at hp
  · have hnodup : ((earlier ++ [last]).map (·.generationAfter)).Nodup :=
      hgenerations ▸ List.nodup_range'
    have hlast : last.generationAfter = (earlier ++ [last]).length := by
      rw [List.map_append, List.length_append, List.length_singleton, List.range'_1_concat,
        List.map_singleton] at hgenerations
      have htail := (List.append_inj' hgenerations rfl).2
      simp only [List.cons.injEq, and_true] at htail
      simp [htail, Nat.add_comm]
    have heq : p = last := eq_of_key_eq hnodup hp (by simp) (hafter.trans hlast.symm)
    exact ⟨earlier, heq ▸ rfl⟩

end Chain

/-! ## Section 2: Transitions extend the chain -/

variable [DecidableEq δ] {K : Keyring δ} {db : Db δ} {scopeDigest : δ}

/-- The receipts of the view lead from the bootstrap binding to the active one. -/
def ScopeView.Chained (bootstrap : ActiveBinding δ) (v : ScopeView δ) : Prop :=
  Chain bootstrap (v.receipts.map (·.payload)) v.row.activeJcs

omit [DecidableEq δ] in
theorem Chain.continues {v : ScopeView δ} {bootstrap : ActiveBinding δ}
    {receipt : ReceiptPayload δ} (h : v.Chained bootstrap)
    (hgeneration : v.row.activeJcs.generation = v.row.generation)
    (hcontinues : Continues v receipt) (hafter : receipt.generationAfter = v.row.generation + 1) :
    Chain bootstrap (v.receipts.map (·.payload) ++ [receipt]) receipt.installed := by
  have hlength : v.row.generation = (v.receipts.map (·.payload)).length :=
    hgeneration.symm.trans (Chain.generation h)
  cases hcontinues with
  | activation r hold hfirst => exact .activation r h hold (hlength ▸ hafter)
  | rollback r s source hsource hpayload hcurrent hop hid hfirst hrestored =>
    -- the source establishes the current generation, so it is the last link
    have hmem : ReceiptPayload.activation source ∈ v.receipts.map (·.payload) :=
      hpayload ▸ List.mem_map_of_mem hsource
    obtain ⟨earlier, hlinks⟩ :=
      Chain.last_of_generationAfter h hmem (hcurrent.symm.trans hlength)
    rw [hlength, hlinks, List.length_append, List.length_singleton] at hrestored
    unfold ScopeView.Chained at h
    rw [hlinks] at h ⊢
    exact .rollback source r h hid hop hrestored

theorem ViewStep.chained {change : Change δ} {v v' : ScopeView δ} {bootstrap : ActiveBinding δ}
    (hstep : ViewStep K scopeDigest change (some v) (some v'))
    (hconsistent : v.Consistent K scopeDigest) (h : v.Chained bootstrap) :
    v'.Chained bootstrap := by
  cases hstep with
  | stays => exact h
  | begun => exact h
  | settled => exact h
  | advanced _ ticket receipt stateSig updatedAt createdAt _ _ _ _ hcontinues hafter =>
    have hchain := Chain.continues h hconsistent.verified.generation hcontinues hafter
    unfold ScopeView.Chained
    rw [List.map_append]
    exact hchain

/-- A view that is there stays there. -/
theorem ViewStep.persists {change : Change δ} {v : ScopeView δ} {view' : Option (ScopeView δ)}
    (hstep : ViewStep K scopeDigest change (some v) view') : ∃ v', view' = some v' := by
  cases hstep <;> exact ⟨_, rfl⟩

/-- A sound database in which the scope is chained to its bootstrap binding. -/
def ChainedFrom (K : Keyring δ) (scopeDigest : δ) (bootstrap : ActiveBinding δ) (db : Db δ) :
    Prop :=
  Sound K db ∧ ∃ v, viewOf db scopeDigest = some v ∧ v.Chained bootstrap

theorem chainedFrom_execute {bootstrap : ActiveBinding δ}
    (h : ChainedFrom K scopeDigest bootstrap db) (event : Event δ) :
    ChainedFrom K scopeDigest bootstrap (execute K db event).2 := by
  obtain ⟨hsound, v, hview, hchained⟩ := h
  obtain ⟨change, happlies⟩ := execute_applies K db event
  have hstep := viewOf_applies hsound.tables happlies scopeDigest
  rw [hview] at hstep
  obtain ⟨v', hview'⟩ := hstep.persists
  rw [hview'] at hstep
  exact ⟨sound_execute hsound event, v', hview',
    hstep.chained (hsound.scopes scopeDigest v hview) hchained⟩

/-- A successful initialization starts the chain. -/
theorem chainedFrom_initializeScope {env : Ambient δ} {scope : RuntimeScope}
    {binding : ActiveBinding δ} {proof : BootstrapProof δ} {answer : Answer δ}
    (hsound : Sound K db)
    (h : (execute K db ⟨env, .initializeScope scope binding proof⟩).1 = .ok answer) :
    ChainedFrom K (K.scopeDigest scope) binding
      (execute K db ⟨env, .initializeScope scope binding proof⟩).2 := by
  have hexec : execute K db ⟨env, .initializeScope scope binding proof⟩ =
      (.ok answer, (execute K db ⟨env, .initializeScope scope binding proof⟩).2) :=
    Prod.ext h rfl
  obtain ⟨change, hcommits, happlies⟩ := execute_commits hexec
  have hstep := viewOf_applies hsound.tables happlies (K.scopeDigest scope)
  refine ⟨sound_execute hsound _, ?_⟩
  generalize (execute K db ⟨env, .initializeScope scope binding proof⟩).2 = db' at hstep ⊢
  cases hcommits with
  -- an initialization that returned has created the row, with generation zero
  | quiet _ _ hquiet => simp [Quiet] at hquiet
  | initialized =>
    generalize hbefore : viewOf db (K.scopeDigest scope) = before at hstep
    generalize hafter : viewOf db' (K.scopeDigest scope) = after at hstep ⊢
    cases hstep with
    | stays _ _ htouches => simp [Change.touches] at htouches
    | created row _ hverified hgeneration =>
      exact ⟨_, rfl, Chain.start (hverified.generation.trans hgeneration)⟩

/-! ## Section 3: The chain of a reachable scope -/

/-- **The receipt chain**: once a scope is initialized, after any further calls by any clients its
generation counts its receipts, the receipts lead from the bootstrap binding to the active one,
and a call that raises changes nothing. -/
theorem receipt_chain (K : Keyring δ) (before after : List (Event δ)) (env : Ambient δ)
    (scope : RuntimeScope) (binding : ActiveBinding δ) (proof : BootstrapProof δ)
    (answer : Answer δ)
    (hinit : (execute K (runStore K before) ⟨env, .initializeScope scope binding proof⟩).1 =
      .ok answer) :
    let db := runStore K (before ++ ⟨env, .initializeScope scope binding proof⟩ :: after)
    (∃ row, selectScope db (K.scopeDigest scope) = some row ∧
      row.generation = (receiptsOf db (K.scopeDigest scope)).length ∧
      (receiptsOf db (K.scopeDigest scope)).map (·.payload.generationAfter) =
        List.range' 1 row.generation ∧
      Chain binding ((receiptsOf db (K.scopeDigest scope)).map (·.payload)) row.activeJcs) ∧
    ∀ (event : Event δ) (e : StoreError), (execute K db event).1 = .error e →
      (execute K db event).2 = db := by
  intro db
  refine ⟨?_, fun event e he => execute_error he⟩
  -- the chain starts with the bootstrap and every later call keeps it
  have hrun : ChainedFrom K (K.scopeDigest scope) binding db := by
    have hstart := chainedFrom_initializeScope (sound_runStore K before) hinit
    have hfinal := invariant_final (ChainedFrom K (K.scopeDigest scope) binding)
      (fun _ event h => chainedFrom_execute h event) hstart after
    show ChainedFrom K _ binding (final (execute K) Db.empty _)
    rw [final_append]
    exact hfinal
  obtain ⟨hsound, v, hview, hchained⟩ := hrun
  obtain ⟨row, hrow, rfl⟩ := Option.map_eq_some_iff.mp hview
  have hverified := (hsound.consistent hrow).verified
  -- the row was verified against its binding, whose generation counts the receipts
  have hlength : row.generation = (receiptsOf db (K.scopeDigest scope)).length := by
    have h := Chain.generation hchained
    rw [List.length_map] at h
    exact hverified.generation.symm.trans h
  refine ⟨row, hrow, hlength, ?_, hchained⟩
  have h := Chain.generations hchained
  rw [List.map_map, List.length_map] at h
  rw [hlength]
  exact h

section Sample

open Symbolic

/-- An action, an activation under its boundary, and the rollback of the activation. -/
def swapRun : List (Event Hash) :=
  [beginCall "A" "op1" 2 "a2", endCall "A" "op1" 1 3 false "a3",
    reserveCall "A" "op1" "t1" 0 4 "a4", saveCall (preparedOf "A" "op1" "p1" "base" "next" 0),
    activateCall "A" "p1" (ticketOf "A" "op1" "t1" 0 1 34) 5 "r1" "a5",
    reserveCall "A" "op1" "t2" 1 6 "a6",
    rollbackCall "A" "r1" (ticketOf "A" "op1" "t2" 1 1 36) 7 "r2" "a7"]

theorem receipt_chain_swapRun :
    let db := runStore keyring (initializeCall "A" 1 "a1" :: swapRun)
    ∃ row, selectScope db (scopeTerm (scopeOf "A")) = some row ∧ row.generation = 2 ∧
      Chain (bindingOf "base" 0) ((receiptsOf db (scopeTerm (scopeOf "A"))).map (·.payload))
        row.activeJcs := by
  intro db
  have hinit : (execute keyring (runStore keyring []) (initializeCall "A" 1 "a1")).1 =
      .ok (.binding (bindingOf "base" 0)) := by decide +kernel
  obtain ⟨⟨row, hrow, hlength, _, hchain⟩, _⟩ := receipt_chain keyring [] swapRun
    (ambient 1 "a1" "") (scopeOf "A") (bindingOf "base" 0) (bootstrapOf "A") _ hinit
  have hcount : (receiptsOf db (scopeTerm (scopeOf "A"))).length = 2 := by decide +kernel
  exact ⟨row, hrow, hlength.trans hcount, hchain⟩

end Sample

end ContractCapsule.Store
