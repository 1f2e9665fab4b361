import Mathlib.Order.Defs.Unbundled
import ContractCapsule.Library.Handlers

/-!
# Programs that Stay Within a Relation

A preorder on stores says how a store may change: what is kept, and what may only grow. A program
stays within it when the store that it leaves is related to the one that it began with, whether it
returned or raised. `Within R p` says so of every store, and what it says of one store is enough to
follow a program step by step (`leftBehind_bind_within`).

A value that a program returned was returned in a store within reach of the first one
(`Within.returns`), and so was every round of a loop (`returns_runEach`).

`Delivers P p a` goes the other way: from every store with `P` the program does return, what it
returns is `a`, and `P` still holds.
-/

namespace Library

variable {σ ε α β : Type} {R : σ → σ → Prop}

/-- However it ends, the program leaves a store that is related to the one it began with. -/
def Within (R : σ → σ → Prop) (p : Tx σ ε α) : Prop := ∀ s, R s (leftBehind p s)

theorem Within.returns {p : Tx σ ε α} (hp : Within R p) {s s' : σ} {a : α}
    (h : Returns p s a s') : R s s' := by
  rw [← Confinement.leftBehind_of_returns h]
  exact hp s

/-- A statement that writes the store within the relation. -/
theorem within_write {g : σ → σ} (h : ∀ s, R s (g s)) : Within R (write g : Tx σ ε Unit) := h

/-- An attempt leaves what its program leaves. -/
theorem leftBehind_attempt (caught : ε → Bool) (p : Tx σ ε α) (s : σ) :
    leftBehind (attempt caught p) s = leftBehind p s := by
  unfold leftBehind attempt
  cases h : p s with
  | ok a s' =>
    have hmap : (Except.ok <$> p : Tx σ ε (Except ε α)) s = .ok (.ok a) s' := by
      show EStateM.map _ p s = _
      rw [EStateM.map, h]
    rw [handling_of_ok hmap]
  | error e s' =>
    have hmap : (Except.ok <$> p : Tx σ ε (Except ε α)) s = .error e s' := by
      show EStateM.map _ p s = _
      rw [EStateM.map, h]
    cases hcaught : caught e with
    | false => rw [handling_of_uncaught hmap hcaught]
    | true =>
      rw [handling_of_caught hmap hcaught]
      rfl

theorem within_attempt {caught : ε → Bool} {p : Tx σ ε α} (hp : Within R p) :
    Within R (attempt caught p) := by
  intro s
  rw [leftBehind_attempt]
  exact hp s

section Preorder

variable [IsPreorder σ R]

theorem within_pure (a : α) : Within R (pure a : Tx σ ε α) := fun s => refl_of R s

theorem within_check (c : Except ε α) : Within R (check c : Tx σ ε α) := by
  intro s
  cases c <;> exact refl_of R s

theorem within_query (f : σ → Except ε α) : Within R (query f) := by
  intro s
  unfold leftBehind query
  cases f s <;> exact refl_of R s

/-- **Sequences**: from one store, a sequence stays within the relation when its first part does and
its second part does wherever the first one returned. -/
theorem leftBehind_bind_within {p : Tx σ ε α} {f : α → Tx σ ε β} {s : σ}
    (hp : R s (leftBehind p s))
    (hf : ∀ a s', Returns p s a s' → R s' (leftBehind (f a) s')) :
    R s (leftBehind (p >>= f) s) := by
  rw [leftBehind_bind]
  cases h : p s with
  | ok a s' =>
    rw [Confinement.leftBehind_of_returns h] at hp
    exact trans_of R hp (hf a s' h)
  | error e s' =>
    unfold leftBehind at hp
    rwa [h] at hp

theorem within_bind {p : Tx σ ε α} {f : α → Tx σ ε β} (hp : Within R p)
    (hf : ∀ a, Within R (f a)) : Within R (p >>= f) :=
  fun s => leftBehind_bind_within (hp s) fun a s' _ => hf a s'

/-- A check in front of a program leaves the store alone. -/
theorem within_check_bind {c : Except ε α} {f : α → Tx σ ε β} (hf : ∀ a, Within R (f a)) :
    Within R (check c >>= f) :=
  within_bind (within_check c) hf

theorem within_runEach {p : α → Tx σ ε Unit} (hp : ∀ a, Within R (p a)) (xs : List α) :
    Within R (runEach p xs) := by
  induction xs with
  | nil => exact within_pure ()
  | cons x xs ih => exact within_bind (hp x) fun _ => ih

/-- **Loops**: a loop that returned did so in every round, between its first store and its last. -/
theorem returns_runEach {p : α → Tx σ ε Unit} (hp : ∀ a, Within R (p a)) {xs : List α} {s s' : σ}
    (h : Returns (runEach p xs) s () s') {x : α} (hx : x ∈ xs) :
    ∃ s₁ s₂, R s s₁ ∧ Returns (p x) s₁ () s₂ ∧ R s₂ s' := by
  induction xs generalizing s with
  | nil => cases hx
  | cons y ys ih =>
    obtain ⟨_, s₁, hfirst, hrest⟩ := (returns_bind _ _ _ _ _).mp h
    rcases List.mem_cons.mp hx with rfl | hmem
    · exact ⟨s, s₁, refl_of R s, hfirst, (within_runEach hp ys).returns hrest⟩
    · obtain ⟨s₂, s₃, hreach, hround, hlast⟩ := ih hrest hmem
      exact ⟨s₂, s₃, trans_of R ((hp y).returns hfirst) hreach, hround, hlast⟩

end Preorder

/-- From every store with `P`, the program returns `a` in a store with `P`. -/
def Delivers (P : σ → Prop) (p : Tx σ ε α) (a : α) : Prop :=
  ∀ s, P s → ∃ s', Returns p s a s' ∧ P s'

section Delivers

variable {P : σ → Prop}

theorem delivers_pure (a : α) : Delivers P (pure a : Tx σ ε α) a := by
  intro s hs
  exact ⟨s, (returns_pure _ _ _ _).mpr ⟨rfl, rfl⟩, hs⟩

theorem delivers_check {c : Except ε α} {a : α} (h : c = .ok a) :
    Delivers P (check c : Tx σ ε α) a := by
  intro s hs
  exact ⟨s, (returns_check _ _ _ _).mpr ⟨h, rfl⟩, hs⟩

theorem delivers_bind {p : Tx σ ε α} {f : α → Tx σ ε β} {a : α} {b : β} (hp : Delivers P p a)
    (hf : Delivers P (f a) b) : Delivers P (p >>= f) b := by
  intro s hs
  obtain ⟨s₁, hfirst, hs₁⟩ := hp s hs
  obtain ⟨s₂, hsecond, hs₂⟩ := hf s₁ hs₁
  exact ⟨s₂, (returns_bind _ _ _ _ _).mpr ⟨a, s₁, hfirst, hsecond⟩, hs₂⟩

/-- A check that passes in front of a program. -/
theorem delivers_check_bind {c : Except ε α} {f : α → Tx σ ε β} {a : α} {b : β} (h : c = .ok a)
    (hf : Delivers P (f a) b) : Delivers P (check c >>= f) b :=
  delivers_bind (delivers_check h) hf

/-- What returns is not caught. -/
theorem returns_attempt {caught : ε → Bool} {p : Tx σ ε α} {s s' : σ} {a : α}
    (h : Returns p s a s') : Returns (attempt caught p) s (.ok a) s' :=
  returns_handling.mpr (.inl ((returns_map _ _ _ _ _).mpr ⟨a, h, rfl⟩))

theorem delivers_attempt {caught : ε → Bool} {p : Tx σ ε α} {a : α} (hp : Delivers P p a) :
    Delivers P (attempt caught p) (.ok a) := by
  intro s hs
  obtain ⟨s', hreturns, hs'⟩ := hp s hs
  exact ⟨s', returns_attempt hreturns, hs'⟩

theorem delivers_runEach {p : α → Tx σ ε Unit} {xs : List α} (hp : ∀ x ∈ xs, Delivers P (p x) ()) :
    Delivers P (runEach p xs) () := by
  induction xs with
  | nil => exact delivers_pure ()
  | cons x xs ih =>
    apply delivers_bind (hp x List.mem_cons_self)
    exact ih fun y hy => hp y (List.mem_cons_of_mem x hy)

end Delivers

end Library
