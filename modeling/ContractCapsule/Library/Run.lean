import Mathlib.Order.Basic
import Mathlib.Data.List.Basic
import Mathlib.Tactic.Common

/-!
# Runs of a Deterministic Machine

A machine is a function `step : σ → ι → ο × σ`: an input arriving in a state is
answered by an output and moves the machine to the next state. A run is the list
of inputs it is fed. This module has the induction rules the development uses:

- an invariant holds in every state of a run (`invariant_final`);
- what holds at the end and not at the start was brought about by a step
  (`exists_switch`);
- a reflexive and transitive relation kept by each step relates the ends of a run
  (`relates_final`);
- when a measure that never decreases is the same at both ends of a run, no step
  in between increased it (`measure_constant`);
- a mark that a transition leaves in the state, and that no later step erases,
  excludes later transitions of a kind (`trace_pairwise`);
- what an owner sees of a run is the run of the owner's inputs alone
  (`localized_final`, `localized_outputs`);
- a machine that refines another step by step has its runs (`refines_final`, `refines_trace`).
-/

namespace Library

variable {σ ι ο τ : Type}

/-- One step of a run, with the states around it. -/
structure Transition (σ ι ο : Type) where
  before : σ
  input : ι
  output : ο
  after : σ

/-- The transition a machine makes on an input. -/
def transitionOf (step : σ → ι → ο × σ) (s : σ) (i : ι) : Transition σ ι ο :=
  ⟨s, i, (step s i).1, (step s i).2⟩

/-- The state after a run. -/
def final (step : σ → ι → ο × σ) (s : σ) : List ι → σ
  | [] => s
  | i :: is => final step (step s i).2 is

/-- The transitions of a run, in order. -/
def trace (step : σ → ι → ο × σ) (s : σ) : List ι → List (Transition σ ι ο)
  | [] => []
  | i :: is => transitionOf step s i :: trace step (step s i).2 is

variable {step : σ → ι → ο × σ}

@[simp] theorem final_nil (s : σ) : final step s [] = s := rfl

@[simp] theorem final_cons (s : σ) (i : ι) (is : List ι) :
    final step s (i :: is) = final step (step s i).2 is := rfl

theorem final_append (s : σ) (is js : List ι) :
    final step s (is ++ js) = final step (final step s is) js := by
  induction is generalizing s with
  | nil => rfl
  | cons i is ih => exact ih _

/-- Every transition of a trace is the step the machine takes there. -/
theorem trace_mem_eq {s : σ} {is : List ι} {t : Transition σ ι ο}
    (ht : t ∈ trace step s is) : t = transitionOf step t.before t.input := by
  induction is generalizing s with
  | nil => simp [trace] at ht
  | cons i is ih =>
    rcases List.mem_cons.mp ht with rfl | hrest
    · rfl
    · exact ih hrest

/-! ## Section 1: Invariants -/

/-- An invariant of the steps holds after every run. -/
theorem invariant_final (Inv : σ → Prop) (hstep : ∀ s i, Inv s → Inv (step s i).2)
    {s : σ} (hs : Inv s) (is : List ι) : Inv (final step s is) := by
  induction is generalizing s with
  | nil => exact hs
  | cons i is ih => exact ih (hstep s i hs)

/-- An invariant of the steps holds before every transition of a run. -/
theorem invariant_before (Inv : σ → Prop) (hstep : ∀ s i, Inv s → Inv (step s i).2)
    {s : σ} (hs : Inv s) {is : List ι} {t : Transition σ ι ο} (ht : t ∈ trace step s is) :
    Inv t.before := by
  induction is generalizing s with
  | nil => simp [trace] at ht
  | cons i is ih =>
    rcases List.mem_cons.mp ht with rfl | hrest
    · exact hs
    · exact ih (hstep s i hs) hrest

/-- A property that fails at the start of a run and holds at its end was brought about by one of
its steps. -/
theorem exists_switch (P : σ → Prop) {s : σ} {is : List ι} (hs : ¬ P s)
    (hend : P (final step s is)) :
    ∃ before i after, is = before ++ i :: after ∧ ¬ P (final step s before) ∧
      P (step (final step s before) i).2 := by
  induction is generalizing s with
  | nil => exact absurd hend hs
  | cons i is ih =>
    by_cases hnext : P (step s i).2
    · exact ⟨[], i, is, rfl, hs, hnext⟩
    · obtain ⟨before, j, after, rfl, hbefore, hafter⟩ := ih hnext hend
      exact ⟨i :: before, j, after, rfl, hbefore, hafter⟩

/-- A preorder that every step from an invariant state respects relates the ends of a run. -/
theorem relates_final (Inv : σ → Prop) (R : σ → σ → Prop)
    (hinv : ∀ s i, Inv s → Inv (step s i).2)
    (hrefl : ∀ s, R s s) (htrans : ∀ {a b c}, R a b → R b c → R a c)
    (hstep : ∀ s i, Inv s → R s (step s i).2)
    {s : σ} (hs : Inv s) (is : List ι) : R s (final step s is) := by
  induction is generalizing s with
  | nil => exact hrefl s
  | cons i is ih => exact htrans (hstep s i hs) (ih (hinv s i hs))

/-! ## Section 2: Measures -/

section Measure

variable {μ : Type} [PartialOrder μ] (Inv : σ → Prop) (measure : σ → μ)

/-- A measure that no step decreases is at most its value after the run. -/
theorem measure_le_final (hinv : ∀ s i, Inv s → Inv (step s i).2)
    (hmono : ∀ s i, Inv s → measure s ≤ measure (step s i).2)
    {s : σ} (hs : Inv s) (is : List ι) : measure s ≤ measure (final step s is) :=
  relates_final Inv (fun a b => measure a ≤ measure b) hinv (fun _ => le_refl _)
    (fun hab hbc => le_trans hab hbc) hmono hs is

/-- When a measure that no step decreases has one value at both ends of a run, it has that
value around every transition of the run. -/
theorem measure_constant (hinv : ∀ s i, Inv s → Inv (step s i).2)
    (hmono : ∀ s i, Inv s → measure s ≤ measure (step s i).2)
    {s : σ} (hs : Inv s) {is : List ι} (hends : measure (final step s is) = measure s)
    {t : Transition σ ι ο} (ht : t ∈ trace step s is) :
    measure t.before = measure s ∧ measure t.after = measure s := by
  induction is generalizing s with
  | nil => simp [trace] at ht
  | cons i is ih =>
    have hnext : measure s ≤ measure (step s i).2 := hmono s i hs
    have hrest : measure (step s i).2 ≤ measure (final step (step s i).2 is) :=
      measure_le_final Inv measure hinv hmono (hinv s i hs) is
    have heq : measure (step s i).2 = measure s :=
      le_antisymm (hrest.trans_eq hends) hnext
    rcases List.mem_cons.mp ht with rfl | htail
    · exact ⟨rfl, heq⟩
    · have hends' : measure (final step (step s i).2 is) = measure (step s i).2 := by
        rw [heq]
        exact hends
      have hinner := ih (hinv s i hs) hends' htail
      exact ⟨hinner.1.trans heq, hinner.2.trans heq⟩

end Measure

/-! ## Section 3: Marks -/

/-- If a transition `t` marks the state it leaves, no step erases the mark, and a marked state
only makes transitions related to `t`, then `t` is related to every later one. -/
theorem trace_pairwise (Inv : σ → Prop) (R : Transition σ ι ο → Transition σ ι ο → Prop)
    (Mark : Transition σ ι ο → σ → Prop)
    (hinv : ∀ s i, Inv s → Inv (step s i).2)
    (hmark : ∀ s i, Inv s → Mark (transitionOf step s i) (step s i).2)
    (hkeep : ∀ t s i, Inv s → Mark t s → Mark t (step s i).2)
    (hlater : ∀ t s i, Inv s → Mark t s → R t (transitionOf step s i))
    {s : σ} (hs : Inv s) (is : List ι) : (trace step s is).Pairwise R := by
  -- whatever happens after a marked transition is related to it
  have hafter : ∀ (t : Transition σ ι ο) (js : List ι) (s' : σ), Inv s' → Mark t s' →
      ∀ u ∈ trace step s' js, R t u := by
    intro t js
    induction js with
    | nil =>
      intro s' _ _ u hu
      simp [trace] at hu
    | cons j js ih =>
      intro s' hs' hm u hu
      rcases List.mem_cons.mp hu with rfl | hrest
      · exact hlater t s' j hs' hm
      · exact ih _ (hinv s' j hs') (hkeep t s' j hs' hm) u hrest
  -- the transitions in their order: each leaves its mark for those after it
  induction is generalizing s with
  | nil => exact List.Pairwise.nil
  | cons i is ih =>
    refine List.Pairwise.cons ?_ (ih (hinv s i hs))
    exact hafter _ is _ (hinv s i hs) (hmark s i hs)

/-! ## Section 4: Counting transitions -/

/-- A counter in the state that a step raises by one exactly when the transition is counted
grows by the number of counted transitions of the run. -/
theorem count_trace (Inv : σ → Prop) (counted : Transition σ ι ο → Bool) (counter : σ → ℕ)
    (hinv : ∀ s i, Inv s → Inv (step s i).2)
    (hstep : ∀ s i, Inv s →
      counter (step s i).2 = counter s + if counted (transitionOf step s i) then 1 else 0)
    {s : σ} (hs : Inv s) (is : List ι) :
    counter (final step s is) = counter s + (trace step s is).countP counted := by
  induction is generalizing s with
  | nil => simp [trace]
  | cons i is ih =>
    rw [final_cons, ih (hinv s i hs), hstep s i hs, trace, List.countP_cons]
    omega

/-! ## Section 5: Owners -/

section Owner

variable {π : σ → σ} {own : ι → Prop} [DecidablePred own] (Inv : σ → Prop) (Sep : σ → ι → Prop)

/-- What the owner sees after a run is the state after the owner's inputs alone, run from what
the owner saw at the start. The owner's inputs must be separated (`Sep`) from the rest of the
state they meet, and the inputs of others must not touch what the owner sees. -/
theorem localized_final (hinv : ∀ s i, Inv s → Inv (step s i).2)
    (hown : ∀ s i, Inv s → own i → Sep s i → step (π s) i = ((step s i).1, π (step s i).2))
    (hother : ∀ s i, Inv s → ¬ own i → π (step s i).2 = π s)
    {s : σ} (hs : Inv s) (is : List ι)
    (hsep : ∀ t ∈ trace step s is, own t.input → Sep t.before t.input) :
    π (final step s is) = final step (π s) (is.filter own) := by
  induction is generalizing s with
  | nil => rfl
  | cons i is ih =>
    have htail : ∀ t ∈ trace step (step s i).2 is, own t.input → Sep t.before t.input :=
      fun t ht => hsep t (List.mem_cons_of_mem _ ht)
    by_cases hi : own i
    · have hhere : Sep s i := hsep _ List.mem_cons_self hi
      rw [List.filter_cons_of_pos (by simpa using hi), final_cons, final_cons,
        ih (hinv s i hs) htail, hown s i hs hi hhere]
    · rw [List.filter_cons_of_neg (by simpa using hi), final_cons, ih (hinv s i hs) htail,
        hother s i hs hi]

/-- The answers the owner gets during a run are those of the owner's inputs run alone. -/
theorem localized_outputs (hinv : ∀ s i, Inv s → Inv (step s i).2)
    (hown : ∀ s i, Inv s → own i → Sep s i → step (π s) i = ((step s i).1, π (step s i).2))
    (hother : ∀ s i, Inv s → ¬ own i → π (step s i).2 = π s)
    {s : σ} (hs : Inv s) (is : List ι)
    (hsep : ∀ t ∈ trace step s is, own t.input → Sep t.before t.input) :
    ((trace step s is).filter (fun t => own t.input)).map (·.output) =
      (trace step (π s) (is.filter own)).map (·.output) := by
  induction is generalizing s with
  | nil => rfl
  | cons i is ih =>
    have htail : ∀ t ∈ trace step (step s i).2 is, own t.input → Sep t.before t.input :=
      fun t ht => hsep t (List.mem_cons_of_mem _ ht)
    by_cases hi : own i
    · have hhere : Sep s i := hsep _ List.mem_cons_self hi
      have howned : own (transitionOf step s i).input := hi
      simp only [trace, List.filter_cons, hi, howned, decide_true, if_true, List.map_cons,
        ih (hinv s i hs) htail]
      rw [transitionOf, transitionOf, hown s i hs hi hhere]
    · have hforeign : ¬ own (transitionOf step s i).input := hi
      simp only [trace, List.filter_cons, hi, hforeign, decide_false, Bool.false_eq_true,
        if_false, ih (hinv s i hs) htail, hother s i hs hi]

end Owner

/-! ## Section 6: Refinement -/

section Refinement

variable {step' : τ → ι → ο × τ} (abstract : σ → τ) (Inv : σ → Prop)

/-- A machine whose steps are steps of an abstract machine reaches the states of its runs. -/
theorem refines_final (hinv : ∀ s i, Inv s → Inv (step s i).2)
    (hstep : ∀ s i, Inv s → step' (abstract s) i = ((step s i).1, abstract (step s i).2))
    {s : σ} (hs : Inv s) (is : List ι) :
    final step' (abstract s) is = abstract (final step s is) := by
  induction is generalizing s with
  | nil => rfl
  | cons i is ih => rw [final_cons, final_cons, hstep s i hs, ih (hinv s i hs)]

/-- A machine whose steps are steps of an abstract machine has the abstract machine's traces. -/
theorem refines_trace (hinv : ∀ s i, Inv s → Inv (step s i).2)
    (hstep : ∀ s i, Inv s → step' (abstract s) i = ((step s i).1, abstract (step s i).2))
    {s : σ} (hs : Inv s) (is : List ι) :
    trace step' (abstract s) is =
      (trace step s is).map fun t => ⟨abstract t.before, t.input, t.output, abstract t.after⟩ := by
  induction is generalizing s with
  | nil => rfl
  | cons i is ih =>
    rw [trace, trace, List.map_cons, transitionOf, hstep s i hs, ih (hinv s i hs)]
    rfl

end Refinement

end Library
