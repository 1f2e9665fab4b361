import Mathlib.Data.List.Basic
import Mathlib.Data.List.Nodup
import Mathlib.Tactic.Common

/-!
# Tables

A table is the list of its rows in insertion order. The three statements a store
issues against one are a lookup by a condition (`List.find?`), an insert that
refuses a key already present (`insertRow`) and a conditional update
(`updateRows`). The lemmas say how the statements act on the rows selected by a
condition, and how they keep the keys of a table distinct.
-/

namespace Library

variable {ρ κ : Type}

/-! ## Section 1: Statements -/

/-- Add a row whose key is not in use; `none` is a key conflict. -/
def insertRow [DecidableEq κ] (key : ρ → κ) (row : ρ) (rows : List ρ) : Option (List ρ) :=
  if rows.any (fun r => key r = key row) then none else some (rows ++ [row])

/-- Rewrite the rows that satisfy a condition. -/
def updateRows (p : ρ → Bool) (f : ρ → ρ) (rows : List ρ) : List ρ :=
  rows.map (fun r => if p r then f r else r)

theorem insertRow_eq_some [DecidableEq κ] {key : ρ → κ} {row : ρ} {rows rows' : List ρ} :
    insertRow key row rows = some rows' ↔
      (∀ r ∈ rows, key r ≠ key row) ∧ rows' = rows ++ [row] := by
  unfold insertRow
  by_cases h : rows.any (fun r => key r = key row)
  · simp only [h, if_true, reduceCtorEq, false_iff, not_and]
    intro hne
    obtain ⟨r, hr, hkey⟩ := List.any_eq_true.mp h
    exact absurd (by simpa using hkey) (hne r hr)
  · simp only [h, if_false, Option.some.injEq, Bool.false_eq_true]
    have hne : ∀ r ∈ rows, key r ≠ key row := by
      intro r hr hkey
      exact h (List.any_eq_true.mpr ⟨r, hr, by simpa using hkey⟩)
    exact ⟨fun heq => ⟨hne, heq.symm⟩, fun heq => heq.2.symm⟩

/-- An insert whose key only rows of a selection can have acts on the selection. -/
theorem insertRow_filter [DecidableEq κ] {key : ρ → κ} {q : ρ → Bool} {row : ρ} {rows : List ρ}
    (hrow : q row = true) (hforeign : ∀ r ∈ rows, q r = false → key r ≠ key row) :
    insertRow key row (rows.filter q) = (insertRow key row rows).map (List.filter q) := by
  have hany : (rows.filter q).any (fun r => key r = key row) =
      rows.any (fun r => key r = key row) := by
    rw [Bool.eq_iff_iff, List.any_eq_true, List.any_eq_true]
    constructor
    · rintro ⟨r, hr, hkey⟩
      exact ⟨r, List.mem_of_mem_filter hr, hkey⟩
    · rintro ⟨r, hr, hkey⟩
      refine ⟨r, List.mem_filter.mpr ⟨hr, ?_⟩, hkey⟩
      by_contra hq
      exact hforeign r hr (by simpa using hq) (by simpa using hkey)
  unfold insertRow
  rw [hany]
  split
  · rfl
  · simp [List.filter_append, hrow]

/-! ## Section 2: Updates -/

variable {p q : ρ → Bool} {f : ρ → ρ} {rows : List ρ}

theorem mem_updateRows {r : ρ} :
    r ∈ updateRows p f rows ↔ ∃ r₀ ∈ rows, (if p r₀ then f r₀ else r₀) = r := by
  simp [updateRows]

/-- An update no row satisfies changes nothing. -/
theorem updateRows_eq_self (h : ∀ r ∈ rows, p r = false) : updateRows p f rows = rows := by
  unfold updateRows
  conv_rhs => rw [← List.map_id rows]
  refine List.map_congr_left fun r hr => ?_
  simp [h r hr]

/-- An update that keeps a column leaves the column as it is. -/
theorem map_updateRows {γ : Type} {g : ρ → γ} (h : ∀ r ∈ rows, p r = true → g (f r) = g r) :
    (updateRows p f rows).map g = rows.map g := by
  unfold updateRows
  rw [List.map_map]
  refine List.map_congr_left fun r hr => ?_
  by_cases hp : p r = true
  · simp [hp, h r hr hp]
  · simp [hp]

/-- An update that does not move rows in or out of a selection acts on the selection. -/
theorem filter_updateRows (h : ∀ r ∈ rows, p r = true → q (f r) = q r) :
    (updateRows p f rows).filter q = updateRows p f (rows.filter q) := by
  unfold updateRows
  rw [List.filter_map]
  congr 1
  refine List.filter_congr fun r hr => ?_
  by_cases hp : p r = true
  · simp [hp, h r hr hp]
  · simp [hp]

/-- An update outside a selection leaves the selection unchanged. -/
theorem filter_updateRows_of_disjoint (hp : ∀ r ∈ rows, p r = true → q r = false)
    (hf : ∀ r ∈ rows, p r = true → q (f r) = false) :
    (updateRows p f rows).filter q = rows.filter q := by
  rw [filter_updateRows fun r hr h => by rw [hf r hr h, hp r hr h]]
  refine updateRows_eq_self fun r hr => ?_
  obtain ⟨hmem, hq⟩ := List.mem_filter.mp hr
  by_contra hpr
  have htrue : p r = true := by simpa using hpr
  rw [hp r hmem htrue] at hq
  exact Bool.false_ne_true hq

/-! ## Section 3: Lookups -/

/-- A lookup whose condition implies the selection can be made in the selection. -/
theorem find?_filter_of_imp (h : ∀ r ∈ rows, p r = true → q r = true) :
    (rows.filter q).find? p = rows.find? p := by
  induction rows with
  | nil => rfl
  | cons r rows ih =>
    have htail : ∀ r' ∈ rows, p r' = true → q r' = true :=
      fun r' hr' => h r' (List.mem_cons_of_mem _ hr')
    by_cases hp : p r = true
    · have hq : q r = true := h r List.mem_cons_self hp
      rw [List.filter_cons_of_pos hq, List.find?_cons_of_pos hp, List.find?_cons_of_pos hp]
    · rw [List.find?_cons_of_neg hp]
      by_cases hq : q r = true
      · rw [List.filter_cons_of_pos hq, List.find?_cons_of_neg hp, ih htail]
      · rw [List.filter_cons_of_neg hq, ih htail]

/-- A lookup after an update that keeps the condition looked up finds the updated row. -/
theorem find?_updateRows (h : ∀ r ∈ rows, p r = true → q (f r) = q r) :
    (updateRows p f rows).find? q = (rows.find? q).map (fun r => if p r then f r else r) := by
  induction rows with
  | nil => rfl
  | cons r rows ih =>
    have hhead : q (if p r then f r else r) = q r := by
      by_cases hp : p r = true
      · simp [hp, h r List.mem_cons_self hp]
      · simp [hp]
    have htail := ih fun r' hr' => h r' (List.mem_cons_of_mem _ hr')
    unfold updateRows at htail ⊢
    by_cases hq : q r = true
    · rw [List.map_cons, List.find?_cons_of_pos (hhead.trans hq), List.find?_cons_of_pos hq]
      rfl
    · rw [List.map_cons, List.find?_cons_of_neg (by rwa [hhead]), List.find?_cons_of_neg hq]
      exact htail

/-- Selecting twice, the second condition implying the first, is selecting once. -/
theorem filter_filter_of_imp (h : ∀ r ∈ rows, p r = true → q r = true) :
    (rows.filter q).filter p = rows.filter p := by
  rw [List.filter_filter]
  refine List.filter_congr fun r hr => ?_
  by_cases hp : p r = true
  · simp [hp, h r hr hp]
  · simp [hp]

/-- A count whose condition implies the selection can be made in the selection. -/
theorem countP_filter_of_imp (h : ∀ r ∈ rows, p r = true → q r = true) :
    (rows.filter q).countP p = rows.countP p := by
  rw [List.countP_eq_length_filter, List.countP_eq_length_filter, filter_filter_of_imp h]

/-- In a table with distinct keys, the row found under a key is the row with that key. -/
theorem find?_eq_some_of_nodup [DecidableEq κ] {key : ρ → κ} (hnodup : (rows.map key).Nodup)
    {r : ρ} (hr : r ∈ rows) : rows.find? (fun r' => key r' = key r) = some r := by
  induction rows with
  | nil => simp at hr
  | cons r₀ rows ih =>
    rw [List.map_cons, List.nodup_cons] at hnodup
    rcases List.mem_cons.mp hr with rfl | htail
    · simp
    · have hne : key r₀ ≠ key r := by
        intro heq
        exact hnodup.1 (heq ▸ List.mem_map_of_mem htail)
      rw [List.find?_cons_of_neg (by simpa using hne)]
      exact ih hnodup.2 htail

/-- Two rows of a table with distinct keys and one key are the same row. -/
theorem eq_of_key_eq {key : ρ → κ} (hnodup : (rows.map key).Nodup) {r r' : ρ}
    (hr : r ∈ rows) (hr' : r' ∈ rows) (hkey : key r = key r') : r = r' :=
  List.inj_on_of_nodup_map hnodup hr hr' hkey

/-! ## Section 4: Distinct keys -/

/-- A condition that holds of one row and fixes its key selects exactly that row. -/
theorem countP_eq_one_of_nodup {key : ρ → κ} (hnodup : (rows.map key).Nodup) {r : ρ}
    (hr : r ∈ rows) (hp : p r = true) (hkey : ∀ r' ∈ rows, p r' = true → key r' = key r) :
    rows.countP p = 1 := by
  obtain ⟨before, after, rfl⟩ := List.append_of_mem hr
  have hunique : ∀ r' ∈ before ++ after, ¬ p r' = true := by
    intro r' hr' hpr'
    rw [List.map_append, List.map_cons, List.nodup_middle, List.nodup_cons,
      ← List.map_append] at hnodup
    have hmem : r' ∈ before ++ r :: after := by
      rcases List.mem_append.mp hr' with h | h
      · exact List.mem_append_left _ h
      · exact List.mem_append_right _ (List.mem_cons_of_mem _ h)
    exact hnodup.1 (hkey r' hmem hpr' ▸ List.mem_map_of_mem hr')
  have hnone : (before ++ after).countP p = 0 := List.countP_eq_zero.mpr hunique
  rw [List.countP_append] at hnone
  rw [List.countP_append, List.countP_cons_of_pos hp]
  omega

/-- A row with a new key keeps the keys of a table distinct. -/
theorem nodup_append_row {key : ρ → κ} {row : ρ} (hnodup : (rows.map key).Nodup)
    (hne : ∀ r ∈ rows, key r ≠ key row) : ((rows ++ [row]).map key).Nodup := by
  rw [List.map_append, List.nodup_append]
  refine ⟨hnodup, List.nodup_singleton _, ?_⟩
  intro k hk k' hk'
  obtain ⟨r, hr, rfl⟩ := List.mem_map.mp hk
  obtain rfl := List.mem_singleton.mp hk'
  exact hne r hr

end Library
