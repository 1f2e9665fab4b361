import Mathlib.Tactic.Common

/-!
# Transactional Programs

A program over a store `σ` issues statements one after another. Each statement
reads the store, writes it, or raises; a raise leaves behind whatever the
earlier statements wrote. `transaction` runs a whole program inside one
all-or-nothing commit: a return keeps the writes, a raise restores the store
the program began with.

The module gives

- `Returns`, the successful executions of a program, with one rule for each way
  of building programs, so that a committed run can be read off its text;
- `Localizes`, the programs that act on a projection of the store exactly as
  they act on the whole.
-/

namespace Library

variable {σ τ ε α β : Type}

/-! ## Section 1: Guards -/

/-- Raise `e` when the condition holds. -/
def raiseIf (p : Prop) [Decidable p] (e : ε) : Except ε Unit :=
  if p then .error e else .ok ()

@[simp] theorem raiseIf_eq_error (p : Prop) [Decidable p] (e e' : ε) :
    raiseIf p e = .error e' ↔ p ∧ e = e' := by
  by_cases h : p <;> simp [raiseIf, h]

@[simp] theorem raiseIf_eq_ok (p : Prop) [Decidable p] (e : ε) (u : Unit) :
    raiseIf p e = .ok u ↔ ¬ p := by
  by_cases h : p <;> simp [raiseIf, h]

/-- A passed guard disappears. -/
theorem raiseIf_of_not {p : Prop} [Decidable p] (e : ε) (h : ¬ p) : raiseIf p e = .ok () := by
  simp [h]

/-- A failed guard raises. -/
theorem raiseIf_of {p : Prop} [Decidable p] (e : ε) (h : p) : raiseIf p e = .error e := by
  simp [raiseIf, h]

@[simp] theorem Except.bind_eq_ok (x : Except ε α) (f : α → Except ε β) (b : β) :
    (x >>= f) = .ok b ↔ ∃ a, x = .ok a ∧ f a = .ok b := by
  cases x with
  | error e => simp [bind, Except.bind]
  | ok a => simp [bind, Except.bind]

/-- A sequence raises where its first part does, or where its second part does. -/
theorem Except.bind_eq_error (x : Except ε α) (f : α → Except ε β) (e : ε) :
    (x >>= f) = .error e ↔ x = .error e ∨ ∃ a, x = .ok a ∧ f a = .error e := by
  cases x with
  | error e' => simp [bind, Except.bind]
  | ok a => simp [bind, Except.bind]

@[simp] theorem Except.ok_bind (a : α) (f : α → Except ε β) :
    ((Except.ok a : Except ε α) >>= f) = f a := rfl

@[simp] theorem Except.error_bind (e : ε) (f : α → Except ε β) :
    ((Except.error e : Except ε α) >>= f) = .error e := rfl

@[simp] theorem Except.pure_eq_ok (a b : α) :
    (pure a : Except ε α) = .ok b ↔ a = b := by
  constructor
  · intro h
    exact Except.ok.inj h
  · rintro rfl
    rfl

@[simp] theorem Except.map_eq_ok (g : α → β) (x : Except ε α) (b : β) :
    (g <$> x) = .ok b ↔ ∃ a, x = .ok a ∧ g a = b := by
  cases x with
  | error e => simp [Functor.map, Except.map]
  | ok a => simp [Functor.map, Except.map]

theorem Except.toOption_eq_some {x : Except ε α} {a : α} : x.toOption = some a ↔ x = .ok a := by
  cases x <;> simp [Except.toOption]

/-- The value of a lookup, or the raise that answers its absence. -/
def orRaise (o : Option α) (e : ε) : Except ε α :=
  match o with
  | some a => .ok a
  | none => .error e

@[simp] theorem orRaise_eq_ok (o : Option α) (e : ε) (a : α) :
    orRaise o e = .ok a ↔ o = some a := by
  cases o <;> simp [orRaise]

@[simp] theorem orRaise_eq_error (o : Option α) (e e' : ε) :
    orRaise o e = .error e' ↔ o = none ∧ e = e' := by
  cases o <;> simp [orRaise]

/-- Apply a check to the elements of a list from left to right, stopping at the first raise. -/
def checkAll (check : α → Except ε Unit) : List α → Except ε Unit
  | [] => .ok ()
  | x :: xs => do
    check x
    checkAll check xs

theorem checkAll_eq_ok (check : α → Except ε Unit) (xs : List α) :
    checkAll check xs = .ok () ↔ ∀ x ∈ xs, check x = .ok () := by
  induction xs with
  | nil => simp [checkAll]
  | cons x xs ih =>
    simp only [checkAll, Except.bind_eq_ok, ih, List.mem_cons, forall_eq_or_imp]
    exact ⟨fun ⟨_, hx, hrest⟩ => ⟨hx, hrest⟩, fun ⟨hx, hrest⟩ => ⟨(), hx, hrest⟩⟩

/-- What the checks of a list raise, the check of one of its elements raises. -/
theorem check_of_checkAll_eq_error {check : α → Except ε Unit} {xs : List α} {e : ε}
    (h : checkAll check xs = .error e) : ∃ x ∈ xs, check x = .error e := by
  induction xs with
  | nil => simp [checkAll] at h
  | cons x xs ih =>
    rcases (Except.bind_eq_error _ _ _).mp h with hx | ⟨_, _, hrest⟩
    · exact ⟨x, List.mem_cons_self, hx⟩
    · obtain ⟨y, hy, hraise⟩ := ih hrest
      exact ⟨y, List.mem_cons_of_mem _ hy, hraise⟩

/-! ## Section 2: Programs -/

/-- A program over the store `σ` that may raise `ε`. -/
abbrev Tx (σ ε α : Type) := EStateM ε σ α

/-- A check that does not look at the store. -/
def check (c : Except ε α) : Tx σ ε α := fun s =>
  match c with
  | .ok a => .ok a s
  | .error e => .error e s

/-- A query: it reads the store, may raise, and writes nothing. -/
def query (f : σ → Except ε α) : Tx σ ε α := fun s =>
  match f s with
  | .ok a => .ok a s
  | .error e => .error e s

/-- A query that cannot raise. -/
def select (f : σ → α) : Tx σ ε α := query fun s => .ok (f s)

/-- A statement that writes the store and cannot raise. -/
def write (g : σ → σ) : Tx σ ε Unit := fun s => .ok () (g s)

/-- The store a program leaves behind, whether it returned or raised. -/
def leftBehind (p : Tx σ ε α) (s : σ) : σ :=
  match p s with
  | .ok _ s' => s'
  | .error _ s' => s'

/-- Run a program as one transaction: commit on return, restore the store on a raise. -/
def transaction (p : Tx σ ε α) (s : σ) : Except ε α × σ :=
  match p s with
  | .ok a s' => (.ok a, s')
  | .error e _ => (.error e, s)

/-! ## Section 3: Successful executions -/

/-- `Returns p s a s'`: from `s` the program returns `a` and leaves `s'`. -/
def Returns (p : Tx σ ε α) (s : σ) (a : α) (s' : σ) : Prop :=
  p s = .ok a s'

@[simp] theorem returns_pure (a b : α) (s s' : σ) :
    Returns (pure a : Tx σ ε α) s b s' ↔ a = b ∧ s = s' := by
  show EStateM.Result.ok a s = EStateM.Result.ok b s' ↔ _
  simp

@[simp] theorem returns_bind (p : Tx σ ε α) (f : α → Tx σ ε β) (s s'' : σ) (b : β) :
    Returns (p >>= f) s b s'' ↔ ∃ a s', Returns p s a s' ∧ Returns (f a) s' b s'' := by
  show EStateM.bind p f s = _ ↔ _
  unfold EStateM.bind Returns
  cases h : p s with
  | ok a s' =>
    simp only [EStateM.Result.ok.injEq]
    constructor
    · intro hf
      exact ⟨a, s', ⟨rfl, rfl⟩, hf⟩
    · rintro ⟨a', s₁, ⟨rfl, rfl⟩, hf⟩
      exact hf
  | error e s' => simp

@[simp] theorem returns_check (c : Except ε α) (s s' : σ) (a : α) :
    Returns (check c : Tx σ ε α) s a s' ↔ c = .ok a ∧ s = s' := by
  unfold Returns check
  cases c <;> simp

@[simp] theorem returns_query (f : σ → Except ε α) (s s' : σ) (a : α) :
    Returns (query f) s a s' ↔ f s = .ok a ∧ s = s' := by
  unfold Returns query
  cases f s <;> simp

@[simp] theorem returns_select (f : σ → α) (s s' : σ) (a : α) :
    Returns (select f : Tx σ ε α) s a s' ↔ f s = a ∧ s = s' := by
  simp [select]

@[simp] theorem returns_write (g : σ → σ) (s s' : σ) (u : Unit) :
    Returns (write g : Tx σ ε Unit) s u s' ↔ g s = s' := by
  unfold Returns write
  simp

@[simp] theorem returns_map (g : α → β) (p : Tx σ ε α) (s s' : σ) (b : β) :
    Returns (g <$> p) s b s' ↔ ∃ a, Returns p s a s' ∧ g a = b := by
  show EStateM.map g p s = _ ↔ _
  unfold EStateM.map Returns
  cases h : p s with
  | ok a s₁ => simp [and_comm]
  | error e s₁ => simp

/-- `Raises p s e`: from `s` the program raises `e`, whatever it leaves behind. -/
def Raises (p : Tx σ ε α) (s : σ) (e : ε) : Prop :=
  ∃ s', p s = .error e s'

@[simp] theorem raises_pure (a : α) (s : σ) (e : ε) :
    Raises (pure a : Tx σ ε α) s e ↔ False := by
  constructor
  · rintro ⟨_, h⟩
    cases h
  · exact False.elim

@[simp] theorem raises_bind (p : Tx σ ε α) (f : α → Tx σ ε β) (s : σ) (e : ε) :
    Raises (p >>= f) s e ↔ Raises p s e ∨ ∃ a s', Returns p s a s' ∧ Raises (f a) s' e := by
  show (∃ s', EStateM.bind p f s = _) ↔ _
  unfold EStateM.bind Returns Raises
  cases h : p s with
  | ok a s' =>
    simp only [reduceCtorEq, exists_false, false_or, EStateM.Result.ok.injEq]
    constructor
    · intro hf
      exact ⟨a, s', ⟨rfl, rfl⟩, hf⟩
    · rintro ⟨_, _, ⟨rfl, rfl⟩, hf⟩
      exact hf
  | error e' s' => simp

@[simp] theorem raises_check (c : Except ε α) (s : σ) (e : ε) :
    Raises (check c : Tx σ ε α) s e ↔ c = .error e := by
  unfold Raises check
  cases c <;> simp

@[simp] theorem raises_query (f : σ → Except ε α) (s : σ) (e : ε) :
    Raises (query f) s e ↔ f s = .error e := by
  unfold Raises query
  cases f s <;> simp

@[simp] theorem raises_select (f : σ → α) (s : σ) (e : ε) :
    Raises (select f : Tx σ ε α) s e ↔ False := by
  simp [select]

@[simp] theorem raises_map (g : α → β) (p : Tx σ ε α) (s : σ) (e : ε) :
    Raises (g <$> p) s e ↔ Raises p s e := by
  show (∃ s', EStateM.map g p s = _) ↔ _
  unfold EStateM.map Raises
  cases p s <;> simp

/-- A transaction that returns has committed its program's writes. -/
theorem transaction_eq_ok (p : Tx σ ε α) (s s' : σ) (a : α) :
    transaction p s = (.ok a, s') ↔ Returns p s a s' := by
  unfold transaction Returns
  cases p s <;> simp

/-- A transaction raises what its program raises, and restores the store. -/
theorem transaction_eq_error (p : Tx σ ε α) (s : σ) (e : ε) :
    transaction p s = (.error e, s) ↔ Raises p s e := by
  unfold transaction Raises
  cases p s <;> simp

/-- **Atomicity**: a transaction that raises leaves the store as it found it. -/
theorem transaction_error (p : Tx σ ε α) (s : σ) (e : ε)
    (h : (transaction p s).1 = .error e) : (transaction p s).2 = s := by
  unfold transaction at h ⊢
  cases hp : p s with
  | ok a s' => simp [hp] at h
  | error e' s' => rfl

/-! ## Section 4: Programs that act on a projection -/

theorem leftBehind_bind (p : Tx σ ε α) (f : α → Tx σ ε β) (s : σ) :
    leftBehind (p >>= f) s =
      match p s with
      | .ok a s' => leftBehind (f a) s'
      | .error _ s' => s' := by
  show leftBehind (EStateM.bind p f) s = _
  unfold leftBehind EStateM.bind
  cases p s <;> rfl

/-- The result of a program seen through a projection of the store. -/
def projectResult (π : σ → σ) : EStateM.Result ε σ α → EStateM.Result ε σ α
  | .ok a s => .ok a (π s)
  | .error e s => .error e (π s)

/-- On stores satisfying `Q`, the program cannot tell the store from its projection:
it answers the same and writes the projection of what it would have written.
It also keeps `Q`, so that such programs can be sequenced. -/
structure Localizes (Q : σ → Prop) (π : σ → σ) (p : Tx σ ε α) : Prop where
  commute : ∀ s, Q s → p (π s) = projectResult π (p s)
  keeps : ∀ s, Q s → Q (leftBehind p s)

variable {Q : σ → Prop} {π : σ → σ}

theorem localizes_pure (a : α) : Localizes Q π (pure a : Tx σ ε α) :=
  ⟨fun _ _ => rfl, fun _ h => h⟩

theorem localizes_check (c : Except ε α) : Localizes Q π (check c : Tx σ ε α) := by
  refine ⟨fun s _ => ?_, fun s h => ?_⟩
  · cases c <;> rfl
  · cases c <;> exact h

theorem localizes_query {f : σ → Except ε α} (h : ∀ s, Q s → f (π s) = f s) :
    Localizes Q π (query f) := by
  refine ⟨fun s hs => ?_, fun s hs => ?_⟩
  · unfold query
    rw [h s hs]
    cases f s <;> rfl
  · unfold leftBehind query
    cases f s <;> exact hs

theorem localizes_select {f : σ → α} (h : ∀ s, Q s → f (π s) = f s) :
    Localizes Q π (select f : Tx σ ε α) :=
  localizes_query fun s hs => congrArg _ (h s hs)

theorem localizes_write {g : σ → σ} (hcomm : ∀ s, Q s → g (π s) = π (g s))
    (hkeep : ∀ s, Q s → Q (g s)) : Localizes Q π (write g : Tx σ ε Unit) := by
  refine ⟨fun s hs => ?_, hkeep⟩
  unfold write projectResult
  rw [hcomm s hs]

/-- The continuation needs to be localized only for the values the first program can return. -/
theorem localizes_bind {p : Tx σ ε α} {f : α → Tx σ ε β} (hp : Localizes Q π p)
    (hf : ∀ a, (∃ s s', Q s ∧ Returns p s a s') → Localizes Q π (f a)) :
    Localizes Q π (p >>= f) := by
  refine ⟨fun s hs => ?_, fun s hs => ?_⟩
  -- the first program commutes with the projection, and keeps what the second one needs for it
  · have hcomm := hp.commute s hs
    have hkeep := hp.keeps s hs
    show EStateM.bind p f (π s) = projectResult π (EStateM.bind p f s)
    unfold EStateM.bind
    unfold leftBehind at hkeep
    rw [hcomm]
    cases h : p s with
    | ok a s' =>
      simp only [h] at hkeep
      exact (hf a ⟨s, s', hs, h⟩).commute s' hkeep
    | error e s' => rfl
  -- what is left behind satisfies the condition, also after an error
  · have hkeep := hp.keeps s hs
    rw [leftBehind_bind]
    unfold leftBehind at hkeep
    cases h : p s with
    | ok a s' =>
      simp only [h] at hkeep
      exact (hf a ⟨s, s', hs, h⟩).keeps s' hkeep
    | error e s' =>
      simp only [h] at hkeep
      exact hkeep

theorem localizes_check_bind {c : Except ε α} {f : α → Tx σ ε β}
    (h : ∀ a, c = .ok a → Localizes Q π (f a)) : Localizes Q π (check c >>= f) :=
  localizes_bind (localizes_check c) fun a ⟨_, _, _, hc⟩ => h a ((returns_check ..).mp hc).1

theorem localizes_query_bind {g : σ → Except ε α} {f : α → Tx σ ε β}
    (hg : ∀ s, Q s → g (π s) = g s) (h : ∀ a s, Q s → g s = .ok a → Localizes Q π (f a)) :
    Localizes Q π (query g >>= f) :=
  localizes_bind (localizes_query hg) fun a ⟨s, _, hs, hc⟩ =>
    h a s hs ((returns_query ..).mp hc).1

theorem localizes_select_bind {g : σ → α} {f : α → Tx σ ε β}
    (hg : ∀ s, Q s → g (π s) = g s) (h : ∀ a, Localizes Q π (f a)) :
    Localizes Q π (select g >>= f) :=
  localizes_bind (localizes_select hg) fun a _ => h a

theorem localizes_map {p : Tx σ ε α} (g : α → β) (hp : Localizes Q π p) :
    Localizes Q π (g <$> p) := by
  refine ⟨fun s hs => ?_, fun s hs => ?_⟩
  · have hcomm := hp.commute s hs
    show EStateM.map g p (π s) = projectResult π (EStateM.map g p s)
    unfold EStateM.map
    rw [hcomm]
    cases p s <;> rfl
  · have hkeep := hp.keeps s hs
    show Q (leftBehind (EStateM.map g p) s)
    unfold leftBehind EStateM.map at *
    cases h : p s <;> simp_all

/-- A further property the program keeps can be assumed of the stores it starts from. -/
theorem Localizes.and {p : Tx σ ε α} {R : σ → Prop} (h : Localizes Q π p)
    (hR : ∀ s, R s → R (leftBehind p s)) : Localizes (fun s => Q s ∧ R s) π p :=
  ⟨fun s hs => h.commute s hs.1, fun s hs => ⟨h.keeps s hs.1, hR s hs.2⟩⟩

/-- A localized transaction commutes with the projection. -/
theorem Localizes.transaction {p : Tx σ ε α} (h : Localizes Q π p) (s : σ) (hs : Q s) :
    transaction p (π s) = ((transaction p s).1, π (transaction p s).2) := by
  unfold Library.transaction
  rw [h.commute s hs]
  cases p s <;> rfl

end Library
