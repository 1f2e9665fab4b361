import Mathlib.Data.List.Dedup
import ContractCapsule.Library.Transaction

/-!
# Loops of Fallible Steps

What is known of a loop over a list that did not raise: every step returned, a relation that
each step respects relates the ends of the loop (`foldlM_visits`), and the result of a filter or
of a map is the one its steps decide.
-/

namespace Library

variable {σ ε α β : Type}

/-! ## Section 1: Folds -/

/-- A loop whose steps respect a preorder visits each element, at a state between its ends. -/
theorem foldlM_visits {f : σ → α → Except ε σ} (R : σ → σ → Prop) (hrefl : ∀ s, R s s)
    (htrans : ∀ {a b c}, R a b → R b c → R a c)
    {xs : List α} (hstep : ∀ x ∈ xs, ∀ {s s'}, f s x = .ok s' → R s s')
    {s s' : σ} (h : xs.foldlM f s = .ok s') :
    R s s' ∧ ∀ x ∈ xs, ∃ t t', R s t ∧ f t x = .ok t' ∧ R t' s' := by
  induction xs generalizing s with
  | nil =>
    rw [List.foldlM_nil, Except.pure_eq_ok] at h
    subst h
    exact ⟨hrefl s, by simp⟩
  | cons x xs ih =>
    rw [List.foldlM_cons, Except.bind_eq_ok] at h
    obtain ⟨t, hx, hrest⟩ := h
    obtain ⟨hends, hvisits⟩ := ih (fun y hy => hstep y (List.mem_cons_of_mem _ hy)) hrest
    have hfirst : R s t := hstep x List.mem_cons_self hx
    refine ⟨htrans hfirst hends, fun y hy => ?_⟩
    rcases List.mem_cons.mp hy with rfl | hy
    · exact ⟨s, t, hrefl s, hx, hends⟩
    · obtain ⟨u, u', hu, hstepy, hu'⟩ := hvisits y hy
      exact ⟨u, u', htrans hfirst hu, hstepy, hu'⟩

theorem foldlM_invariant_append {f : σ → α → Except ε σ} (P : List α → σ → Prop)
    (hstep : ∀ done s x s', P done s → f s x = .ok s' → P (done ++ [x]) s')
    {done xs : List α} {s s' : σ} (hstart : P done s) (h : xs.foldlM f s = .ok s') :
    P (done ++ xs) s' := by
  induction xs generalizing done s with
  | nil =>
    rw [List.foldlM_nil, Except.pure_eq_ok] at h
    subst h
    simpa using hstart
  | cons x xs ih =>
    rw [List.foldlM_cons, Except.bind_eq_ok] at h
    obtain ⟨t, hx, hrest⟩ := h
    have hdone := ih (hstep done s x t hstart hx) hrest
    rwa [List.append_assoc, List.singleton_append] at hdone

/-- A loop whose steps extend what is known of the elements done knows of all of them. -/
theorem foldlM_invariant {f : σ → α → Except ε σ} (P : List α → σ → Prop)
    (hstep : ∀ done s x s', P done s → f s x = .ok s' → P (done ++ [x]) s')
    {xs : List α} {s s' : σ} (hstart : P [] s) (h : xs.foldlM f s = .ok s') : P xs s' :=
  foldlM_invariant_append P hstep hstart h

/-! ## Section 2: Filters and maps -/

/-- A list of values none of which is an error. -/
theorem exists_map_ok {xs : List (Except ε α)} (h : ∀ x ∈ xs, ∃ a, x = .ok a) :
    ∃ values : List α, xs = values.map Except.ok := by
  induction xs with
  | nil => exact ⟨[], rfl⟩
  | cons x xs ih =>
    obtain ⟨a, rfl⟩ := h x List.mem_cons_self
    obtain ⟨values, rfl⟩ := ih fun y hy => h y (List.mem_cons_of_mem _ hy)
    exact ⟨a :: values, rfl⟩

theorem filterAuxM_ok {p : α → Except ε Bool} {xs acc ys : List α}
    (h : List.filterAuxM p xs acc = .ok ys) :
    ys = (xs.filter fun x => p x matches .ok true).reverse ++ acc ∧
      ∀ x ∈ xs, ∃ b, p x = .ok b := by
  induction xs generalizing acc with
  | nil =>
    simp only [List.filterAuxM, Except.pure_eq_ok] at h
    subst h
    simp
  | cons x xs ih =>
    simp only [List.filterAuxM, Except.bind_eq_ok] at h
    obtain ⟨b, hb, hrest⟩ := h
    obtain ⟨rfl, hall⟩ := ih hrest
    refine ⟨?_, ?_⟩
    · cases b <;> simp [hb]
    · intro y hy
      rcases List.mem_cons.mp hy with rfl | hy
      · exact ⟨b, hb⟩
      · exact hall y hy

/-- A filter that did not raise keeps the elements it decided to keep. -/
theorem mem_filterM {p : α → Except ε Bool} {xs ys : List α} (h : xs.filterM p = .ok ys) (y : α) :
    y ∈ ys ↔ y ∈ xs ∧ p y = .ok true := by
  rw [List.filterM, Except.bind_eq_ok] at h
  obtain ⟨zs, hzs, hys⟩ := h
  obtain ⟨rfl, _⟩ := filterAuxM_ok hzs
  rw [Except.pure_eq_ok] at hys
  subst hys
  rw [List.append_nil, List.reverse_reverse, List.mem_filter]
  constructor
  · rintro ⟨hy, hp⟩
    refine ⟨hy, ?_⟩
    split at hp
    · next heq => exact heq
    · exact absurd hp Bool.false_ne_true
  · rintro ⟨hy, hp⟩
    exact ⟨hy, by rw [hp]⟩

/-- A filter that did not raise decided on every element. -/
theorem filterM_decides {p : α → Except ε Bool} {xs ys : List α} (h : xs.filterM p = .ok ys) :
    ∀ x ∈ xs, ∃ b, p x = .ok b := by
  rw [List.filterM, Except.bind_eq_ok] at h
  obtain ⟨zs, hzs, _⟩ := h
  exact (filterAuxM_ok hzs).2

/-- A map that did not raise has the value of each step at its place. -/
theorem forall₂_mapM {f : α → Except ε β} {xs : List α} {ys : List β} (h : xs.mapM f = .ok ys) :
    List.Forall₂ (fun x y => f x = .ok y) xs ys := by
  induction xs generalizing ys with
  | nil =>
    rw [List.mapM_nil, Except.pure_eq_ok] at h
    subst h
    exact List.Forall₂.nil
  | cons x xs ih =>
    simp only [List.mapM_cons, Except.bind_eq_ok, Except.pure_eq_ok] at h
    obtain ⟨y, hy, rest, hrest, rfl⟩ := h
    exact List.Forall₂.cons hy (ih hrest)

/-- A loop that fails nowhere returns a list of its values. -/
theorem exists_mapM {f : α → Except ε β} {xs : List α} (h : ∀ x ∈ xs, ∃ y, f x = .ok y) :
    ∃ ys, xs.mapM f = .ok ys := by
  induction xs with
  | nil => exact ⟨[], rfl⟩
  | cons x xs ih =>
    obtain ⟨y, hy⟩ := h x List.mem_cons_self
    obtain ⟨ys, hys⟩ := ih fun x' hx' => h x' (List.mem_cons_of_mem _ hx')
    exact ⟨y :: ys, by rw [List.mapM_cons, hy, Except.ok_bind, hys]; rfl⟩

/-- A value of a map that did not raise is the value of some step. -/
theorem exists_of_mem_mapM {f : α → Except ε β} {xs : List α} {ys : List β}
    (h : xs.mapM f = .ok ys) {y : β} (hy : y ∈ ys) : ∃ x ∈ xs, f x = .ok y := by
  have hvalues := forall₂_mapM h
  clear h
  induction hvalues with
  | nil => cases hy
  | cons hx _ ih =>
    rcases List.mem_cons.mp hy with rfl | hrest
    · exact ⟨_, List.mem_cons_self, hx⟩
    · obtain ⟨x, hmem, hstep⟩ := ih hrest
      exact ⟨x, List.mem_cons_of_mem _ hmem, hstep⟩

/-- What stands on the right of two related lists has something on the left that it is related to. -/
theorem left_of_mem_forall₂ {R : α → β → Prop} {xs : List α} {ys : List β}
    (h : List.Forall₂ R xs ys) {y : β} (hy : y ∈ ys) : ∃ x ∈ xs, R x y := by
  induction h with
  | nil => cases hy
  | cons hx _ ih =>
    rcases List.mem_cons.mp hy with rfl | hrest
    · exact ⟨_, List.mem_cons_self, hx⟩
    · obtain ⟨x, hmem, hone⟩ := ih hrest
      exact ⟨x, List.mem_cons_of_mem _ hmem, hone⟩

/-- Each element of a map that did not raise has its value in it. -/
theorem value_of_mem_mapM {f : α → Except ε β} {xs : List α} {ys : List β}
    (h : xs.mapM f = .ok ys) {x : α} (hx : x ∈ xs) : ∃ y ∈ ys, f x = .ok y := by
  have hvalues := forall₂_mapM h
  clear h
  induction hvalues with
  | nil => cases hx
  | cons hy _ ih =>
    rcases List.mem_cons.mp hx with rfl | hrest
    · exact ⟨_, List.mem_cons_self, hy⟩
    · obtain ⟨y, hmem, hstep⟩ := ih hrest
      exact ⟨y, List.mem_cons_of_mem _ hmem, hstep⟩

/-- A map that did not raise, and whose steps return what a function says. -/
theorem mapM_eq_map {f : α → Except ε β} {g : α → β} {xs : List α} {ys : List β}
    (h : xs.mapM f = .ok ys) (hf : ∀ x ∈ xs, ∀ y, f x = .ok y → y = g x) : ys = xs.map g := by
  induction xs generalizing ys with
  | nil =>
    rw [List.mapM_nil, Except.pure_eq_ok] at h
    exact h.symm
  | cons x xs ih =>
    simp only [List.mapM_cons, Except.bind_eq_ok, Except.pure_eq_ok] at h
    obtain ⟨y, hy, rest, hrest, rfl⟩ := h
    rw [List.map_cons, hf x List.mem_cons_self y hy,
      ih hrest fun x' hx' => hf x' (List.mem_cons_of_mem _ hx')]

/-- Some value of a map that did not raise is true exactly when some step decides so. -/
theorem any_mapM {f : α → Except ε Bool} {xs : List α} {ys : List Bool}
    (h : xs.mapM f = .ok ys) : ys.any id = true ↔ ∃ x ∈ xs, f x = .ok true := by
  induction xs generalizing ys with
  | nil =>
    rw [List.mapM_nil, Except.pure_eq_ok] at h
    simp [← h]
  | cons x xs ih =>
    simp only [List.mapM_cons, Except.bind_eq_ok, Except.pure_eq_ok] at h
    obtain ⟨y, hy, rest, hrest, rfl⟩ := h
    rw [List.any_cons, Bool.or_eq_true, ih hrest]
    simp [hy]

/-- Every value of a map that did not raise is true exactly when every step decides so. -/
theorem all_mapM {f : α → Except ε Bool} {xs : List α} {ys : List Bool}
    (h : xs.mapM f = .ok ys) : ys.all id = true ↔ ∀ x ∈ xs, f x = .ok true := by
  induction xs generalizing ys with
  | nil =>
    rw [List.mapM_nil, Except.pure_eq_ok] at h
    simp [← h]
  | cons x xs ih =>
    simp only [List.mapM_cons, Except.bind_eq_ok, Except.pure_eq_ok] at h
    obtain ⟨y, hy, rest, hrest, rfl⟩ := h
    rw [List.all_cons, Bool.and_eq_true, ih hrest, List.forall_mem_cons, hy, Except.ok.injEq, id]

/-- A search that did not raise found an element exactly when there is one. -/
theorem anyM_ok {p : α → Except ε Bool} {xs : List α} {b : Bool} (h : xs.anyM p = .ok b) :
    b = true ↔ ∃ x ∈ xs, p x = .ok true := by
  induction xs with
  | nil =>
    rw [List.anyM, Except.pure_eq_ok] at h
    subst h
    simp
  | cons x xs ih =>
    rw [List.anyM, Except.bind_eq_ok] at h
    obtain ⟨c, hc, hrest⟩ := h
    cases c with
    | true =>
      rw [Except.pure_eq_ok] at hrest
      subst hrest
      simp [hc]
    | false =>
      rw [ih hrest]
      simp [hc]

/-- A search found nothing exactly when it decided against every element. -/
theorem anyM_eq_ok_false {p : α → Except ε Bool} {xs : List α} :
    xs.anyM p = .ok false ↔ ∀ x ∈ xs, p x = .ok false := by
  induction xs with
  | nil => simp [List.anyM, pure, Except.pure]
  | cons x xs ih =>
    rw [List.anyM, Except.bind_eq_ok, List.forall_mem_cons, ← ih]
    constructor
    · rintro ⟨b, hb, hrest⟩
      cases b with
      | false => exact ⟨hb, hrest⟩
      | true => cases Except.ok.inj hrest
    · rintro ⟨hb, hrest⟩
      exact ⟨false, hb, hrest⟩

/-- A search that raised raised at some element. -/
theorem exists_of_anyM_eq_error {p : α → Except ε Bool} {xs : List α} {e : ε}
    (h : xs.anyM p = .error e) : ∃ x ∈ xs, p x = .error e := by
  induction xs with
  | nil => cases h
  | cons x xs ih =>
    rw [List.anyM, Except.bind_eq_error] at h
    rcases h with hx | ⟨b, _, hrest⟩
    · exact ⟨x, List.mem_cons_self, hx⟩
    · cases b with
      | false =>
        obtain ⟨y, hy, hraise⟩ := ih hrest
        exact ⟨y, List.mem_cons_of_mem _ hy, hraise⟩
      | true => cases hrest

/-- A test that holds of every element. -/
theorem allM_eq_ok_true {p : α → Except ε Bool} {xs : List α} (h : ∀ x ∈ xs, p x = .ok true) :
    xs.allM p = .ok true := by
  induction xs with
  | nil => rfl
  | cons x xs ih =>
    rw [List.forall_mem_cons] at h
    rw [List.allM, h.1]
    exact ih h.2

/-- A loop whose steps succeed wherever those of another do, with the same state, ends where the other
one does. -/
theorem foldlM_of_ok {σ : Type} {f f' : σ → α → Except ε σ} {xs : List α}
    (hstep : ∀ x ∈ xs, ∀ s s', f s x = .ok s' → f' s x = .ok s') {s t : σ}
    (h : xs.foldlM f s = .ok t) : xs.foldlM f' s = .ok t := by
  induction xs generalizing s with
  | nil => exact h
  | cons x xs ih =>
    simp only [List.foldlM_cons, Except.bind_eq_ok] at h ⊢
    obtain ⟨u, hu, hrest⟩ := h
    refine ⟨u, hstep x List.mem_cons_self s u hu, ?_⟩
    exact ih (fun y hy => hstep y (List.mem_cons_of_mem _ hy)) hrest

/-- A map whose steps succeed wherever those of another do, with the same value, has its values. -/
theorem mapM_of_ok {f f' : α → Except ε β} {xs : List α} {ys : List β}
    (hstep : ∀ x ∈ xs, ∀ y, f x = .ok y → f' x = .ok y) (h : xs.mapM f = .ok ys) :
    xs.mapM f' = .ok ys := by
  induction xs generalizing ys with
  | nil => simpa using h
  | cons x xs ih =>
    simp only [List.mapM_cons, Except.bind_eq_ok, Except.pure_eq_ok] at h ⊢
    obtain ⟨y, hy, rest, hrest, rfl⟩ := h
    refine ⟨y, hstep x List.mem_cons_self y hy, rest, ?_, rfl⟩
    exact ih (fun z hz => hstep z (List.mem_cons_of_mem _ hz)) hrest

/-- A list has one element without repetitions when it has elements and they are equal. -/
theorem length_dedup_eq_one {α : Type} [DecidableEq α] {xs : List α} :
    xs.dedup.length = 1 ↔ xs ≠ [] ∧ ∀ x ∈ xs, ∀ y ∈ xs, x = y := by
  constructor
  · intro h
    obtain ⟨z, hz⟩ := List.length_eq_one_iff.mp h
    have hmem : ∀ x ∈ xs, x = z := by
      intro x hx
      have hdedup := List.mem_dedup.mpr hx
      rw [hz] at hdedup
      exact List.mem_singleton.mp hdedup
    refine ⟨?_, fun x hx y hy => (hmem x hx).trans (hmem y hy).symm⟩
    rintro rfl
    cases hz
  · intro h
    obtain ⟨hsome, hsame⟩ := h
    obtain ⟨x, hx⟩ := List.exists_mem_of_ne_nil xs hsome
    have hall : xs.dedup = List.replicate xs.dedup.length x :=
      List.eq_replicate_of_mem fun y hy => hsame y (List.mem_dedup.mp hy) x hx
    have hnodup := xs.nodup_dedup
    rw [hall, List.nodup_replicate] at hnodup
    have hpos := List.length_pos_of_mem (List.mem_dedup.mpr hx)
    omega

end Library
