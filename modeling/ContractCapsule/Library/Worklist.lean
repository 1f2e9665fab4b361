import Mathlib.Data.Finset.Card
import Mathlib.Data.Finset.SDiff
import Mathlib.Logic.Relation
import Mathlib.Tactic.Common

/-!
# Worklists

A worklist holds the elements whose successors have not been looked at. Each step takes one of
them, and adds each successor that is new both to the closed set and to the worklist.

`mem_worklist` says that the closed set is exactly what the seeds reach, once there is fuel for
one step for every seed and every possible successor.
-/

namespace Library

open Relation

variable {ι : Type} [DecidableEq ι]

/-! ## Section 1: The algorithm -/

/-- The elements found so far, and those that are still to be expanded. -/
structure Work (ι : Type) where
  closed : Finset ι
  pending : List ι

/-- Note one successor. -/
def discover (w : Work ι) (target : ι) : Work ι :=
  if target ∈ w.closed then w else ⟨insert target w.closed, target :: w.pending⟩

/-- Expand pending elements until none is left, at most `fuel` times. -/
def expand (next : ι → List ι) : ℕ → Work ι → Finset ι
  | 0, w => w.closed
  | fuel + 1, w =>
    match w.pending with
    | [] => w.closed
    | n :: pending => expand next fuel ((next n).foldl discover ⟨w.closed, pending⟩)

/-- What the seeds reach. -/
def worklist (next : ι → List ι) (fuel : ℕ) (seeds : List ι) : Finset ι :=
  expand next fuel ⟨seeds.toFinset, seeds⟩

/-! ## Section 2: One expansion -/

theorem closed_discover (w : Work ι) (target m : ι) :
    m ∈ (discover w target).closed ↔ m ∈ w.closed ∨ m = target := by
  unfold discover
  split
  · next h =>
    constructor
    · exact Or.inl
    · rintro (hm | rfl)
      · exact hm
      · exact h
  · rw [Finset.mem_insert, or_comm]

theorem closed_foldl_discover (targets : List ι) (w : Work ι) (m : ι) :
    m ∈ (targets.foldl discover w).closed ↔ m ∈ w.closed ∨ m ∈ targets := by
  induction targets generalizing w with
  | nil => simp
  | cons target targets ih =>
    rw [List.foldl_cons, ih, closed_discover, List.mem_cons, or_assoc]

/-- A new successor is pending, and nothing else is added. -/
theorem pending_foldl_discover (targets : List ι) (w : Work ι) (m : ι) :
    m ∈ (targets.foldl discover w).pending ↔
      m ∈ w.pending ∨ (m ∈ targets ∧ m ∉ w.closed) := by
  induction targets generalizing w with
  | nil => simp
  | cons target targets ih =>
    -- one target is added when it is not closed yet
    have hpending : m ∈ (discover w target).pending ↔
        m ∈ w.pending ∨ (m = target ∧ m ∉ w.closed) := by
      unfold discover
      split
      · next h =>
        constructor
        · exact Or.inl
        · rintro (hm | ⟨rfl, hnew⟩)
          · exact hm
          · exact absurd h hnew
      · next h =>
        rw [List.mem_cons]
        constructor
        · rintro (rfl | hm)
          · exact Or.inr ⟨rfl, h⟩
          · exact Or.inl hm
        · rintro (hm | ⟨rfl, _⟩)
          · exact Or.inr hm
          · exact Or.inl rfl
    rw [List.foldl_cons, ih, hpending, closed_discover, List.mem_cons]
    tauto

/-- Every new pending element is one that was not closed before. -/
theorem measure_foldl_discover {domain : Finset ι} {targets : List ι}
    (htargets : ∀ t ∈ targets, t ∈ domain) (w : Work ι) :
    (targets.foldl discover w).pending.length +
        (domain \ (targets.foldl discover w).closed).card =
      w.pending.length + (domain \ w.closed).card := by
  induction targets generalizing w with
  | nil => rfl
  | cons target targets ih =>
    have htarget : target ∈ domain := htargets target List.mem_cons_self
    rw [List.foldl_cons, ih fun t ht => htargets t (List.mem_cons_of_mem _ ht)]
    unfold discover
    split
    · rfl
    · next h =>
      have hmem : target ∈ domain \ w.closed := Finset.mem_sdiff.mpr ⟨htarget, h⟩
      have hcard := Finset.card_erase_add_one hmem
      rw [← Finset.sdiff_insert] at hcard
      simp only [List.length_cons]
      omega

/-! ## Section 3: The result -/

/-- Everything closed is reached, what is pending is closed, and the successors of everything
closed that is not pending are closed. -/
structure Work.Sound (next : ι → List ι) (seeds : List ι) (w : Work ι) : Prop where
  reached : ∀ n ∈ w.closed, ∃ s ∈ seeds, ReflTransGen (fun a b => b ∈ next a) s n
  pending : ∀ n ∈ w.pending, n ∈ w.closed
  expanded : ∀ n ∈ w.closed, n ∉ w.pending → ∀ t ∈ next n, t ∈ w.closed

variable {next : ι → List ι} {seeds : List ι}

theorem Work.Sound.step {closed : Finset ι} {n : ι} {pending : List ι}
    (h : Work.Sound next seeds ⟨closed, n :: pending⟩) :
    Work.Sound next seeds ((next n).foldl discover ⟨closed, pending⟩) := by
  have hn : n ∈ closed := h.pending n List.mem_cons_self
  refine ⟨?_, ?_, ?_⟩
  · intro m hm
    rcases (closed_foldl_discover ..).mp hm with hold | hnew
    · exact h.reached m hold
    · obtain ⟨s, hs, hpath⟩ := h.reached n hn
      exact ⟨s, hs, hpath.tail hnew⟩
  · intro m hm
    apply (closed_foldl_discover ..).mpr
    rcases (pending_foldl_discover ..).mp hm with hold | ⟨hnew, _⟩
    · exact Or.inl (h.pending m (List.mem_cons_of_mem _ hold))
    · exact Or.inr hnew
  · intro m hm hnot t ht
    apply (closed_foldl_discover ..).mpr
    have hnot' := fun hc => hnot ((pending_foldl_discover ..).mpr hc)
    have hold : m ∈ closed := by
      rcases (closed_foldl_discover ..).mp hm with hold | hnew
      · exact hold
      · -- a new successor would be pending, so this one was closed before
        by_contra hfresh
        exact hnot' (Or.inr ⟨hnew, hfresh⟩)
    by_cases hmn : m = n
    · exact Or.inr (hmn ▸ ht)
    · have hrest : m ∉ n :: pending := by
        rw [List.mem_cons, not_or]
        exact ⟨hmn, fun hc => hnot' (Or.inl hc)⟩
      exact Or.inl (h.expanded m hold hrest t ht)

/-- With fuel, the expansion ends with nothing pending. -/
theorem expand_sound {domain : Finset ι} (hnext : ∀ n, ∀ t ∈ next n, t ∈ domain)
    {fuel : ℕ} {w : Work ι} (h : w.Sound next seeds)
    (hfuel : w.pending.length + (domain \ w.closed).card ≤ fuel) :
    Work.Sound next seeds ⟨expand next fuel w, []⟩ ∧ w.closed ⊆ expand next fuel w := by
  induction fuel generalizing w with
  | zero =>
    obtain ⟨closed, pending⟩ := w
    have hnil : pending = [] := List.eq_nil_of_length_eq_zero (by simp only at hfuel; omega)
    subst hnil
    exact ⟨h, subset_rfl⟩
  | succ fuel ih =>
    obtain ⟨closed, pending⟩ := w
    cases pending with
    | nil => exact ⟨h, subset_rfl⟩
    | cons n pending =>
      -- the measure: what is pending, and what is not closed yet
      have hmeasure := measure_foldl_discover (hnext n) ⟨closed, pending⟩
      have hsmaller : ((next n).foldl discover ⟨closed, pending⟩).pending.length +
          (domain \ ((next n).foldl discover ⟨closed, pending⟩).closed).card ≤ fuel := by
        simp only [List.length_cons] at hfuel hmeasure
        omega
      obtain ⟨hsound, hgrows⟩ := ih h.step hsmaller
      refine ⟨hsound, fun m hm => hgrows ?_⟩
      exact (closed_foldl_discover ..).mpr (Or.inl hm)

/-- **Exactness**: with fuel for every seed and every possible successor, the worklist finds
exactly what the seeds reach. -/
theorem mem_worklist {domain : Finset ι} (hnext : ∀ n, ∀ t ∈ next n, t ∈ domain) {fuel : ℕ}
    (hfuel : seeds.length + domain.card ≤ fuel) {m : ι} :
    m ∈ worklist next fuel seeds ↔
      ∃ s ∈ seeds, ReflTransGen (fun a b => b ∈ next a) s m := by
  -- at the start the seeds are closed and all of them are pending
  have hstart : Work.Sound next seeds ⟨seeds.toFinset, seeds⟩ := by
    refine ⟨?_, ?_, ?_⟩
    · intro n hn
      exact ⟨n, List.mem_toFinset.mp hn, ReflTransGen.refl⟩
    · intro n hn
      exact List.mem_toFinset.mpr hn
    · intro n hn hnot
      exact absurd (List.mem_toFinset.mp hn) hnot
  have henough : seeds.length + (domain \ seeds.toFinset).card ≤ fuel := by
    have hle : (domain \ seeds.toFinset).card ≤ domain.card :=
      Finset.card_le_card Finset.sdiff_subset
    omega
  obtain ⟨hsound, hgrows⟩ := expand_sound hnext hstart henough
  constructor
  -- what is closed was reached; conversely a path is followed edge by edge, since nothing is
  -- pending
  · intro hm
    exact hsound.reached m hm
  · rintro ⟨s, hs, hpath⟩
    induction hpath with
    | refl => exact hgrows (List.mem_toFinset.mpr hs)
    | tail _ hedge ih => exact hsound.expanded _ ih (by simp) _ hedge

end Library
