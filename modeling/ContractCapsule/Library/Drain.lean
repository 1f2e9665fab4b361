import ContractCapsule.Library.Loops
import Mathlib.Logic.Relation

/-!
# Worklists with a Budget

A worklist that keeps no record of what it has seen: each step takes the element in front, works on
it at the state of the loop, and puts what it found in front of the others. On a graph with cycles
such a loop ends only because its steps use up a budget.

- `drain_terminates`: when every element that a step adds is paid for, so much fuel suffices as
  there are pending elements and budget.
- `drain_visits`: a loop that did not raise has visited everything that its elements reach.
-/

namespace Library

open Relation

variable {ι σ ε : Type}

/-- Visit pending elements until none is left, or until one of the visits raises. There is no value
when the fuel runs out. -/
def drain (visit : ι → σ → Except ε (List ι × σ)) : ℕ → List ι → σ → Option (Except ε σ)
  | _, [], s => some (.ok s)
  | 0, _ :: _, _ => none
  | fuel + 1, x :: pending, s =>
    match visit x s with
    | .error e => some (.error e)
    | .ok (new, s') => drain visit fuel (new ++ pending) s'

variable {visit : ι → σ → Except ε (List ι × σ)}

/-! ## Section 1: Termination -/

/-- More fuel changes nothing once there is a result. -/
theorem drain_of_le {fuel fuel' : ℕ} (hle : fuel ≤ fuel') {pending : List ι} {s : σ}
    {r : Except ε σ} (h : drain visit fuel pending s = some r) :
    drain visit fuel' pending s = some r := by
  induction fuel generalizing fuel' pending s with
  | zero =>
    cases pending with
    | nil => cases fuel' <;> exact h
    | cons x pending => cases h
  | succ fuel ih =>
    obtain ⟨fuel', rfl⟩ : ∃ k, fuel' = k + 1 := ⟨fuel' - 1, by omega⟩
    cases pending with
    | nil => exact h
    | cons x pending =>
      rw [drain] at h ⊢
      cases hvisit : visit x s with
      | error e => rwa [hvisit] at h
      | ok found =>
        rw [hvisit] at h
        exact ih (by omega) h

/-- **Termination.** When a step that adds elements takes at least as much from the budget, the loop
has a result, whatever the elements are. -/
theorem drain_terminates {budget : σ → ℕ}
    (hvisit : ∀ x s new s', visit x s = .ok (new, s') → new.length + budget s' ≤ budget s)
    {fuel : ℕ} {pending : List ι} {s : σ} (hfuel : pending.length + budget s ≤ fuel) :
    ∃ r, drain visit fuel pending s = some r := by
  induction fuel generalizing pending s with
  | zero =>
    have hnil : pending = [] := List.eq_nil_of_length_eq_zero (by omega)
    exact ⟨.ok s, by rw [hnil, drain]⟩
  | succ fuel ih =>
    cases pending with
    | nil => exact ⟨.ok s, rfl⟩
    | cons x pending =>
      rw [drain]
      cases hx : visit x s with
      | error e => exact ⟨.error e, rfl⟩
      | ok found =>
        obtain ⟨new, s'⟩ := found
        -- the element in front is gone, and the new ones are paid for
        have hpaid := hvisit x s new s' hx
        apply ih
        rw [List.length_append]
        rw [List.length_cons] at hfuel
        omega

/-! ## Section 2: What a run visits -/

/-- What every visit keeps holds where the loop ends. -/
theorem drain_invariant {P : σ → Prop} {Q : ι → Prop}
    (hvisit : ∀ x s new s', Q x → P s → visit x s = .ok (new, s') → P s' ∧ ∀ y ∈ new, Q y)
    {fuel : ℕ} {pending : List ι} {s s' : σ} (hpending : ∀ x ∈ pending, Q x) (hs : P s)
    (h : drain visit fuel pending s = some (.ok s')) : P s' := by
  induction fuel generalizing pending s with
  | zero =>
    cases pending with
    | nil =>
      rw [drain, Option.some.injEq, Except.ok.injEq] at h
      exact h ▸ hs
    | cons x pending => cases h
  | succ fuel ih =>
    cases pending with
    | nil =>
      rw [drain, Option.some.injEq, Except.ok.injEq] at h
      exact h ▸ hs
    -- the visit keeps both invariants, and what is left to visit satisfies the second
    | cons x pending =>
      rw [drain] at h
      cases hx : visit x s with
      | error e =>
        rw [hx, Option.some.injEq] at h
        cases h
      | ok found =>
        obtain ⟨new, t⟩ := found
        rw [hx] at h
        obtain ⟨ht, hnew⟩ := hvisit x s new t (hpending x List.mem_cons_self) hs hx
        apply ih _ ht h
        intro y hy
        rcases List.mem_append.mp hy with hy | hy
        · exact hnew y hy
        · exact hpending y (List.mem_cons_of_mem _ hy)

/-- **Completeness.** Where every visit adds the successors of its element, and the states respect a
preorder, a loop that did not raise has visited everything that the pending elements reach, at a
state between its ends. -/
theorem drain_visits {E : ι → ι → Prop} (R : σ → σ → Prop) (hrefl : ∀ s, R s s)
    (htrans : ∀ {a b c}, R a b → R b c → R a c)
    (hvisit : ∀ {x s new s'}, visit x s = .ok (new, s') → R s s' ∧ ∀ y, E x y → y ∈ new)
    {fuel : ℕ} {pending : List ι} {s s' : σ}
    (h : drain visit fuel pending s = some (.ok s')) :
    R s s' ∧ ∀ p ∈ pending, ∀ x, ReflTransGen E p x →
      ∃ t new t', R s t ∧ visit x t = .ok (new, t') ∧ R t' s' := by
  induction fuel generalizing pending s with
  | zero =>
    cases pending with
    | nil =>
      rw [drain, Option.some.injEq, Except.ok.injEq] at h
      exact ⟨h ▸ hrefl s, by simp⟩
    | cons x pending => cases h
  | succ fuel ih =>
    cases pending with
    | nil =>
      rw [drain, Option.some.injEq, Except.ok.injEq] at h
      exact ⟨h ▸ hrefl s, by simp⟩
    | cons first pending =>
      rw [drain] at h
      cases hfirst : visit first s with
      | error e =>
        rw [hfirst, Option.some.injEq] at h
        cases h
      | ok found =>
        obtain ⟨new, t⟩ := found
        rw [hfirst] at h
        obtain ⟨hstep, hnew⟩ := hvisit hfirst
        obtain ⟨hrest, hreached⟩ := ih h
        refine ⟨htrans hstep hrest, ?_⟩
        intro p hp x hpath
        -- either this is the element of the step, or the rest of the loop visits it
        have hlater : ∀ q ∈ new ++ pending, ReflTransGen E q x →
            ∃ u new t', R s u ∧ visit x u = .ok (new, t') ∧ R t' s' := by
          intro q hq hqx
          obtain ⟨u, new', u', hu, hx, hu'⟩ := hreached q hq x hqx
          exact ⟨u, new', u', htrans hstep hu, hx, hu'⟩
        rcases List.mem_cons.mp hp with rfl | hp
        · rcases hpath.cases_head with rfl | ⟨q, hq, hqx⟩
          · exact ⟨s, new, t, hrefl s, hfirst, hrest⟩
          · exact hlater q (List.mem_append_left _ (hnew q hq)) hqx
        · exact hlater p (List.mem_append_right _ hp) hpath

end Library
