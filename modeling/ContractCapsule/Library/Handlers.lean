import ContractCapsule.Library.Transaction

/-!
# Programs that Catch

`except` clauses and `finally` blocks over transactional programs, and a notion that follows a
program through them. A store keeps a trace of what happened to it. A program is `Confined` when it
keeps an invariant of the store, and raises an error that no clause catches exactly when something
it added to the trace escapes.

Every way of building programs keeps confinement, so a run that ends with an uncaught error can be
told from its trace alone (`Confined.run`).
-/

namespace Library

variable {σ ε ω α β : Type}

/-! ## Section 1: Clauses -/

/-- `except`: the errors that the clause catches go to its handler. -/
def handling (caught : ε → Bool) (p : Tx σ ε α) (handler : ε → Tx σ ε α) : Tx σ ε α := fun s =>
  match p s with
  | .ok a s' => .ok a s'
  | .error e s' => if caught e then handler e s' else .error e s'

/-- `except` with a handler that stores the error. -/
def attempt (caught : ε → Bool) (p : Tx σ ε α) : Tx σ ε (Except ε α) :=
  handling caught (Except.ok <$> p) fun e => pure (.error e)

/-- `finally`: the second program runs however the first one ends, and its error takes the place of
that of the first. -/
def ensuring (p : Tx σ ε α) (q : Tx σ ε β) : Tx σ ε (α × β) := fun s =>
  match p s with
  | .ok a s' => ((fun b => (a, b)) <$> q) s'
  | .error e s' => (q >>= fun _ => check (.error e)) s'

/-- Run a program for each element of a list. -/
def runEach (p : α → Tx σ ε Unit) : List α → Tx σ ε Unit
  | [] => pure ()
  | x :: xs => do
    p x
    runEach p xs

/-- All the program raises satisfies `P`. -/
def RaisesOnly (P : ε → Prop) (p : Tx σ ε α) : Prop :=
  ∀ s e, Raises p s e → P e

/-- The program raises nothing that the clause catches. -/
abbrev RaisesUncaught (caught : ε → Bool) (p : Tx σ ε α) : Prop :=
  RaisesOnly (fun e => caught e = false) p

variable {caught : ε → Bool}

section Clauses

variable {p : Tx σ ε α} {handler : ε → Tx σ ε α} {s s' : σ}

theorem handling_of_ok {a : α} (h : p s = .ok a s') : handling caught p handler s = .ok a s' := by
  unfold handling
  rw [h]

theorem handling_of_uncaught {e : ε} (h : p s = .error e s') (hcaught : caught e = false) :
    handling caught p handler s = .error e s' := by
  unfold handling
  simp [h, hcaught]

theorem handling_of_caught {e : ε} (h : p s = .error e s') (hcaught : caught e = true) :
    handling caught p handler s = handler e s' := by
  unfold handling
  simp [h, hcaught]

theorem returns_handling {a : α} {s₁ : σ} :
    Returns (handling caught p handler) s a s₁ ↔ Returns p s a s₁ ∨
      ∃ e s', p s = .error e s' ∧ caught e = true ∧ Returns (handler e) s' a s₁ := by
  cases h : p s with
  | ok a' s' => simp [Returns, handling_of_ok h, h]
  | error e s' =>
    cases hcaught : caught e with
    | false => simp [Returns, handling_of_uncaught h hcaught, h, hcaught]
    | true => simp [Returns, handling_of_caught h hcaught, h, hcaught]

theorem raisesUncaught_handling (hhandler : ∀ e, RaisesUncaught caught (handler e)) :
    RaisesUncaught caught (handling caught p handler) := by
  rintro s e ⟨s₁, hraise⟩
  cases h : p s with
  | ok a s' =>
    rw [handling_of_ok h] at hraise
    cases hraise
  | error e' s' =>
    cases hcaught : caught e' with
    | false =>
      rw [handling_of_uncaught h hcaught] at hraise
      cases hraise
      exact hcaught
    | true =>
      rw [handling_of_caught h hcaught] at hraise
      exact hhandler e' s' e ⟨s₁, hraise⟩

end Clauses

section Returns

variable {p : Tx σ ε α} {s : σ}

/-- What is returned after an attempt that returned. -/
theorem returns_of_attempt {a : α} {s₁ : σ}
    (h : Returns (attempt caught p) s (.ok a) s₁) : Returns p s a s₁ := by
  rcases returns_handling.mp h with hmap | ⟨_, _, _, _, hpure⟩
  · obtain ⟨a', hp, ha⟩ := (returns_map _ p s s₁ _).mp hmap
    cases ha
    exact hp
  · obtain ⟨ha, _⟩ := (returns_pure _ _ _ _).mp hpure
    cases ha

/-- A `finally` block starts where its program returned. -/
theorem returns_of_ensuring {q : Tx σ ε β} {r : α × β} {s₁ : σ}
    (h : Returns (ensuring p q) s r s₁) :
    ∃ s', Returns p s r.1 s' ∧ Returns q s' r.2 s₁ := by
  unfold Returns ensuring at h
  cases hp : p s with
  | ok a s' =>
    simp only [hp] at h
    obtain ⟨b, hq, rfl⟩ := (returns_map _ q s' s₁ r).mp h
    exact ⟨s', hp, hq⟩
  | error e s' =>
    simp only [hp] at h
    obtain ⟨_, _, _, hcheck⟩ := (returns_bind q _ s' s₁ r).mp h
    obtain ⟨herror, _⟩ := (returns_check _ _ _ _).mp hcheck
    cases herror

end Returns

theorem raisesUncaught_attempt (p : Tx σ ε α) : RaisesUncaught caught (attempt caught p) := by
  apply raisesUncaught_handling
  intro e s e' h
  simp at h

variable {P : ε → Prop}

theorem raisesOnly_pure (a : α) : RaisesOnly P (pure a : Tx σ ε α) := by
  intro s e h
  simp at h

theorem raisesOnly_select (f : σ → α) : RaisesOnly P (select f : Tx σ ε α) := by
  intro s e h
  simp at h

theorem raisesOnly_check {c : Except ε α} (h : ∀ e, c = .error e → P e) :
    RaisesOnly P (check c : Tx σ ε α) := by
  intro s e hraise
  exact h e ((raises_check c s e).mp hraise)

theorem raisesOnly_bind {p : Tx σ ε α} {f : α → Tx σ ε β} (hp : RaisesOnly P p)
    (hf : ∀ a, RaisesOnly P (f a)) : RaisesOnly P (p >>= f) := by
  intro s e h
  rcases (raises_bind p f s e).mp h with hraise | ⟨a, s', _, hraise⟩
  · exact hp s e hraise
  · exact hf a s' e hraise

/-- After a check, the value that it returned is known. -/
theorem raisesOnly_check_bind {c : Except ε α} {f : α → Tx σ ε β} (h : ∀ e, c = .error e → P e)
    (hf : ∀ a, c = .ok a → RaisesOnly P (f a)) : RaisesOnly P (check c >>= f) := by
  intro s e hraise
  rcases (raises_bind _ f s e).mp hraise with hcheck | ⟨a, s', hreturn, hrest⟩
  · exact h e ((raises_check c s e).mp hcheck)
  · exact hf a ((returns_check c s s' a).mp hreturn).1 s' e hrest

theorem raisesOnly_ensuring {p : Tx σ ε α} {q : Tx σ ε β} (hp : RaisesOnly P p)
    (hq : RaisesOnly P q) : RaisesOnly P (ensuring p q) := by
  intro s e hraise
  unfold Raises ensuring at hraise
  cases h : p s with
  | ok a s' =>
    simp only [h] at hraise
    exact hq s' e ((raises_map _ q s' e).mp hraise)
  | error e' s' =>
    simp only [h] at hraise
    rcases (raises_bind q _ s' e).mp hraise with hblock | ⟨_, _, _, hagain⟩
    · exact hq s' e hblock
    · rw [raises_check] at hagain
      cases hagain
      exact hp s e ⟨s', h⟩

/-! ## Section 2: Errors of pure code -/

/-- All that a computation raises satisfies `P`. -/
def FailsOnly (P : ε → Prop) (x : Except ε α) : Prop := ∀ e, x = .error e → P e

theorem failsOnly_ok (a : α) : FailsOnly P (.ok a : Except ε α) := by
  intro e h
  cases h

theorem failsOnly_raiseIf {p : Prop} [Decidable p] {e : ε} (h : P e) :
    FailsOnly P (raiseIf p e) := by
  intro e' hraise
  rw [← ((raiseIf_eq_error p e e').mp hraise).2]
  exact h

theorem failsOnly_orRaise {o : Option α} {e : ε} (h : P e) : FailsOnly P (orRaise o e) := by
  intro e' hraise
  rw [← ((orRaise_eq_error o e e').mp hraise).2]
  exact h

theorem failsOnly_bind {x : Except ε α} {f : α → Except ε β} (hx : FailsOnly P x)
    (hf : ∀ a, FailsOnly P (f a)) : FailsOnly P (x >>= f) := by
  intro e h
  rcases (Except.bind_eq_error x f e).mp h with hraise | ⟨a, _, hraise⟩
  · exact hx e hraise
  · exact hf a e hraise

/-! ## Section 3: Confinement -/

/-- What a program is confined to: the invariant it keeps, the trace it extends, the entries of the
trace that escape, and the errors that are caught. -/
structure Confinement (σ ε ω : Type) where
  inv : σ → Prop
  trace : σ → List ω
  escapes : ω → Bool
  caught : ε → Bool

variable {C : Confinement σ ε ω}

/-- From a store with the invariant, the program adds these entries to the trace. -/
structure Confinement.Adds (C : Confinement σ ε ω) (p : Tx σ ε α) (s : σ) (new : List ω) :
    Prop where
  inv : C.inv (leftBehind p s)
  trace : C.trace (leftBehind p s) = C.trace s ++ new
  escapes : (∃ e, Raises p s e ∧ C.caught e = false) ↔ ∃ w ∈ new, C.escapes w = true

/-- The program keeps the invariant and extends the trace, and it raises an uncaught error exactly
when an entry that it adds escapes. -/
def Confinement.Confined (C : Confinement σ ε ω) (p : Tx σ ε α) : Prop :=
  ∀ s, C.inv s → ∃ new, C.Adds p s new

namespace Confinement

theorem leftBehind_of_returns {p : Tx σ ε α} {s s' : σ} {a : α} (h : Returns p s a s') :
    leftBehind p s = s' := by
  unfold leftBehind
  rw [h]

theorem leftBehind_of_error {p : Tx σ ε α} {s s' : σ} {e : ε} (h : p s = .error e s') :
    leftBehind p s = s' := by
  unfold leftBehind
  rw [h]

/-- A program that leaves the store as it is, and raises only what is caught. -/
theorem confined_of_quiet {p : Tx σ ε α} (hstore : ∀ s, leftBehind p s = s)
    (hraises : ∀ s e, Raises p s e → C.caught e = true) : C.Confined p := by
  intro s hs
  refine ⟨[], ?_, ?_, ?_⟩
  · rw [hstore]
    exact hs
  · rw [hstore, List.append_nil]
  · constructor
    · rintro ⟨e, hraise, huncaught⟩
      exact absurd (hraises s e hraise) (by simp [huncaught])
    · rintro ⟨_, hmem, _⟩
      exact absurd hmem List.not_mem_nil

theorem confined_pure (a : α) : C.Confined (pure a : Tx σ ε α) :=
  confined_of_quiet (fun _ => rfl) fun s e h => by simp at h

theorem confined_check {c : Except ε α} (h : ∀ e, c = .error e → C.caught e = true) :
    C.Confined (check c : Tx σ ε α) := by
  apply confined_of_quiet
  · intro s
    cases c <;> rfl
  · intro s e hraise
    exact h e ((raises_check c s e).mp hraise)

theorem confined_query {f : σ → Except ε α} (h : ∀ s e, f s = .error e → C.caught e = true) :
    C.Confined (query f : Tx σ ε α) := by
  apply confined_of_quiet
  · intro s
    unfold leftBehind query
    cases f s <;> rfl
  · intro s e hraise
    exact h s e ((raises_query f s e).mp hraise)

theorem confined_select (f : σ → α) : C.Confined (select f : Tx σ ε α) :=
  confined_query fun s e h => by simp at h

/-- A write that keeps the invariant and does not touch the trace. -/
theorem confined_write {g : σ → σ} (hinv : ∀ s, C.inv s → C.inv (g s))
    (htrace : ∀ s, C.trace (g s) = C.trace s) : C.Confined (write g : Tx σ ε Unit) := by
  intro s hs
  refine ⟨[], hinv s hs, ?_, ?_⟩
  · rw [List.append_nil]
    exact htrace s
  · constructor
    · rintro ⟨e, ⟨_, hraise⟩, _⟩
      cases hraise
    · rintro ⟨_, hmem, _⟩
      exact absurd hmem List.not_mem_nil

theorem adds_congr {p p' : Tx σ ε α} {s : σ} {new : List ω} (h : p' s = p s)
    (hp : C.Adds p s new) : C.Adds p' s new := by
  refine ⟨?_, ?_, ?_⟩
  · rw [leftBehind, h]
    exact hp.inv
  · rw [leftBehind, h]
    exact hp.trace
  · simp only [Raises, h]
    exact hp.escapes

/-- A query in front of a program. -/
theorem adds_select_bind {g : σ → α} {f : α → Tx σ ε β} {s : σ}
    (h : ∃ new, C.Adds (f (g s)) s new) : ∃ new, C.Adds (select g >>= f) s new := by
  obtain ⟨new, hnew⟩ := h
  have hsame : (select g >>= f) s = f (g s) s := rfl
  exact ⟨new, adds_congr hsame hnew⟩

/-- A program that goes on with another one, after entries none of which escapes. -/
theorem adds_continue {p : Tx σ ε α} {q : Tx σ ε α} {s s' : σ} {new more : List ω}
    (h : p s = q s') (htrace : C.trace s' = C.trace s ++ new)
    (hnew : ¬ ∃ w ∈ new, C.escapes w = true) (hq : C.Adds q s' more) :
    C.Adds p s (new ++ more) := by
  refine ⟨?_, ?_, ?_⟩
  · rw [leftBehind, h]
    exact hq.inv
  · rw [leftBehind, h, ← List.append_assoc, ← htrace]
    exact hq.trace
  · have hescapes := hq.escapes
    simp only [Raises, h, List.mem_append, or_and_right, exists_or] at hescapes ⊢
    rw [hescapes]
    exact ⟨Or.inr, fun hall => hall.resolve_left hnew⟩

/-- What a program that returned has added does not escape. -/
theorem Adds.of_returns {p : Tx σ ε α} {s s' : σ} {a : α} {new : List ω} (hp : C.Adds p s new)
    (h : Returns p s a s') :
    C.inv s' ∧ C.trace s' = C.trace s ++ new ∧ ¬ ∃ w ∈ new, C.escapes w = true := by
  have hbehind := leftBehind_of_returns h
  refine ⟨hbehind ▸ hp.inv, hbehind ▸ hp.trace, ?_⟩
  rw [← hp.escapes]
  rintro ⟨e, ⟨s₁, hraise⟩, _⟩
  rw [Returns, hraise] at h
  cases h

/-- Of what a program that raised has added, something escapes when its error is not caught. -/
theorem Adds.of_error {p : Tx σ ε α} {s s' : σ} {e : ε} {new : List ω} (hp : C.Adds p s new)
    (h : p s = .error e s') :
    C.inv s' ∧ C.trace s' = C.trace s ++ new ∧
      (C.caught e = false ↔ ∃ w ∈ new, C.escapes w = true) := by
  have hbehind := leftBehind_of_error h
  refine ⟨hbehind ▸ hp.inv, hbehind ▸ hp.trace, ?_⟩
  rw [← hp.escapes]
  constructor
  · intro hcaught
    exact ⟨e, ⟨s', h⟩, hcaught⟩
  · rintro ⟨e', ⟨s₁, hraise⟩, hcaught⟩
    rw [h] at hraise
    cases hraise
    exact hcaught

/-- Two programs in sequence: the second one starts where the first returned. -/
theorem adds_bind {p : Tx σ ε α} {f : α → Tx σ ε β} {s : σ} {new : List ω} (hp : C.Adds p s new)
    (hf : ∀ a s', Returns p s a s' → C.inv s' → ∃ more, C.Adds (f a) s' more) :
    ∃ all, C.Adds (p >>= f) s all := by
  -- the handlers of what follows run only where the first program returns
  cases h : p s with
  | ok a s' =>
    obtain ⟨hinv, htrace, hquiet⟩ := hp.of_returns h
    obtain ⟨more, hmore⟩ := hf a s' h hinv
    refine ⟨_, adds_continue ?_ htrace hquiet hmore⟩
    show EStateM.bind p f s = _
    unfold EStateM.bind
    rw [h]
  -- an error of the first program is the error of both
  | error e s' =>
    obtain ⟨hinv, htrace, hescapes⟩ := hp.of_error h
    have hbind : (p >>= f) s = .error e s' := by
      show EStateM.bind p f s = _
      unfold EStateM.bind
      rw [h]
    refine ⟨new, ?_, ?_, ?_⟩
    · rw [leftBehind_of_error hbind]
      exact hinv
    · rw [leftBehind_of_error hbind]
      exact htrace
    · rw [← hescapes]
      simp only [Raises, hbind, EStateM.Result.error.injEq]
      constructor
      · rintro ⟨_, ⟨_, rfl, _⟩, hcaught⟩
        exact hcaught
      · intro hcaught
        exact ⟨e, ⟨s', rfl, rfl⟩, hcaught⟩

theorem confined_bind {p : Tx σ ε α} {f : α → Tx σ ε β} (hp : C.Confined p)
    (hf : ∀ a, C.Confined (f a)) : C.Confined (p >>= f) := by
  intro s hs
  obtain ⟨new, hnew⟩ := hp s hs
  exact adds_bind hnew fun a s' _ hinv => hf a s' hinv

theorem confined_map {p : Tx σ ε α} (g : α → β) (hp : C.Confined p) : C.Confined (g <$> p) := by
  rw [map_eq_pure_bind]
  exact confined_bind hp fun a => confined_pure (g a)

/-- A clause that catches what is caught: its handler starts where the error was raised. -/
theorem adds_handling {p : Tx σ ε α} {handler : ε → Tx σ ε α} {s : σ} {new : List ω}
    (hp : C.Adds p s new)
    (hhandler : ∀ e s', p s = .error e s' → C.inv s' → ∃ more, C.Adds (handler e) s' more) :
    ∃ all, C.Adds (handling C.caught p handler) s all := by
  cases h : p s with
  | ok a s' =>
    have hsame := (@handling_of_ok _ _ _ C.caught p handler _ _ _ h).trans h.symm
    exact ⟨new, adds_congr hsame hp⟩
  | error e s' =>
    obtain ⟨hinv, htrace, hescapes⟩ := hp.of_error h
    cases hcaught : C.caught e with
    | false =>
      have hsame := (@handling_of_uncaught _ _ _ C.caught p handler _ _ _ h hcaught).trans h.symm
      exact ⟨new, adds_congr hsame hp⟩
    | true =>
      -- the error is caught, so nothing added before it escapes
      have hquiet : ¬ ∃ w ∈ new, C.escapes w = true := by
        rw [← hescapes, hcaught]
        simp
      obtain ⟨more, hmore⟩ := hhandler e s' h hinv
      exact ⟨_, adds_continue (handling_of_caught h hcaught) htrace hquiet hmore⟩

theorem confined_handling {p : Tx σ ε α} {handler : ε → Tx σ ε α} (hp : C.Confined p)
    (hhandler : ∀ e, C.Confined (handler e)) : C.Confined (handling C.caught p handler) := by
  intro s hs
  obtain ⟨new, hnew⟩ := hp s hs
  exact adds_handling hnew fun e s' _ hinv => hhandler e s' hinv

theorem confined_attempt {p : Tx σ ε α} (hp : C.Confined p) :
    C.Confined (attempt C.caught p) :=
  confined_handling (confined_map _ hp) fun _ => confined_pure _

/-- A `finally` block that raises only uncaught errors. -/
theorem confined_ensuring {p : Tx σ ε α} {q : Tx σ ε β} (hp : C.Confined p) (hq : C.Confined q)
    (huncaught : RaisesUncaught C.caught q) : C.Confined (ensuring p q) := by
  intro s hs
  obtain ⟨new, hnew⟩ := hp s hs
  cases h : p s with
  | ok a s' =>
    obtain ⟨hinv, htrace, hquiet⟩ := hnew.of_returns h
    obtain ⟨more, hmore⟩ := confined_map (fun b => (a, b)) hq s' hinv
    refine ⟨_, adds_continue ?_ htrace hquiet hmore⟩
    unfold ensuring
    rw [h]
  | error e s' =>
    obtain ⟨hinv, htrace, hescapes⟩ := hnew.of_error h
    obtain ⟨more, hmore⟩ := hq s' hinv
    refine ⟨new ++ more, ?_⟩
    cases hblock : q s' with
    | ok b s₁ =>
      -- the block is done, and the error of the program goes on
      have hsame : ensuring p q s = .error e s₁ := by
        show (match p s with | .ok a s' => _ | .error e s' => EStateM.bind q _ s') = _
        simp only [h, EStateM.bind, hblock]
        rfl
      obtain ⟨hinv₁, htrace₁, hquiet⟩ := hmore.of_returns hblock
      refine ⟨?_, ?_, ?_⟩
      · rw [leftBehind_of_error hsame]
        exact hinv₁
      · rw [leftBehind_of_error hsame, htrace₁, htrace, List.append_assoc]
      · simp only [Raises, hsame, List.mem_append, or_and_right, exists_or, ← hescapes,
          EStateM.Result.error.injEq]
        constructor
        · rintro ⟨_, ⟨_, rfl, _⟩, hcaught⟩
          exact Or.inl hcaught
        · intro hany
          exact ⟨e, ⟨s₁, rfl, rfl⟩, hany.resolve_right hquiet⟩
    | error e' s₁ =>
      -- the error of the block takes the place of that of the program
      have hsame : ensuring p q s = .error e' s₁ := by
        show (match p s with | .ok a s' => _ | .error e s' => EStateM.bind q _ s') = _
        simp only [h, EStateM.bind, hblock]
      obtain ⟨hinv₁, htrace₁, hescapes₁⟩ := hmore.of_error hblock
      have hcaught : C.caught e' = false := huncaught s' e' ⟨s₁, hblock⟩
      refine ⟨?_, ?_, ?_⟩
      · rw [leftBehind_of_error hsame]
        exact hinv₁
      · rw [leftBehind_of_error hsame, htrace₁, htrace, List.append_assoc]
      · simp only [Raises, hsame, List.mem_append, or_and_right, exists_or, ← hescapes₁,
          EStateM.Result.error.injEq]
        constructor
        · intro _
          exact Or.inr hcaught
        · intro _
          exact ⟨e', ⟨s₁, rfl, rfl⟩, hcaught⟩

theorem confined_ite {c : Prop} [Decidable c] {p q : Tx σ ε α} (hp : C.Confined p)
    (hq : C.Confined q) : C.Confined (if c then p else q) := by
  by_cases h : c
  · rw [if_pos h]
    exact hp
  · rw [if_neg h]
    exact hq

theorem Confined.inv_leftBehind {p : Tx σ ε α} (hp : C.Confined p) {s : σ} (hs : C.inv s) :
    C.inv (leftBehind p s) := by
  obtain ⟨new, hnew⟩ := hp s hs
  exact hnew.inv

/-- **Runs and their traces.** A confined program that raises only uncaught errors returns from a
store with an empty trace exactly when nothing in the trace it leaves behind escapes. -/
theorem Confined.run {p : Tx σ ε α} (hp : C.Confined p) (huncaught : RaisesUncaught C.caught p)
    {s : σ} (hs : C.inv s) (hempty : C.trace s = []) :
    (∃ a, Returns p s a (leftBehind p s)) ↔
      ∀ w ∈ C.trace (leftBehind p s), C.escapes w = false := by
  obtain ⟨new, hnew⟩ := hp s hs
  have htrace := hnew.trace
  rw [hempty, List.nil_append] at htrace
  rw [htrace]
  have hescapes : (∃ e, Raises p s e) ↔ ∃ w ∈ new, C.escapes w = true := by
    rw [← hnew.escapes]
    exact ⟨fun ⟨e, h⟩ => ⟨e, h, huncaught s e h⟩, fun ⟨e, h, _⟩ => ⟨e, h⟩⟩
  have hends : (∃ a, Returns p s a (leftBehind p s)) ↔ ¬ ∃ e, Raises p s e := by
    cases h : p s with
    | ok a s' => simp [Returns, Raises, leftBehind, h]
    | error e s' => simp [Returns, Raises, h]
  rw [hends, hescapes]
  simp

end Confinement

end Library
