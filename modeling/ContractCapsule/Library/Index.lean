import Mathlib.Data.List.Induction
import Mathlib.Data.List.Nodup
import Mathlib.Tactic.Common

/-!
# Dictionaries Keyed by Their Values

A dictionary whose values determine their keys is the list of its values, no two
with one key. `assign` is item assignment, which overwrites the value of a key in
use where it stands; `agree` is `setdefault` followed by a comparison, which refuses
a second value for a key.
-/

namespace Library

variable {α κ : Type} [DecidableEq κ]

/-! ## Section 1: Assignment -/

/-- Store a value under its key. -/
def assign (key : α → κ) (x : α) : List α → List α
  | [] => [x]
  | y :: ys => if key y = key x then x :: ys else y :: assign key x ys

/-- The dictionary of a sequence of values; the last value of a key stays. -/
def index (key : α → κ) (xs : List α) : List α :=
  xs.foldl (fun d x => assign key x d) []

variable {key : α → κ} {x y : α} {d xs : List α}

theorem mem_assign : y ∈ assign key x d → y = x ∨ y ∈ d := by
  induction d with
  | nil => simp [assign]
  | cons z zs ih =>
    unfold assign
    split
    · intro h
      rcases List.mem_cons.mp h with rfl | h
      · exact .inl rfl
      · exact .inr (List.mem_cons_of_mem _ h)
    · intro h
      rcases List.mem_cons.mp h with rfl | h
      · exact .inr List.mem_cons_self
      · exact (ih h).imp_right (List.mem_cons_of_mem _)

/-- Another value of the dictionary stays. -/
theorem mem_assign_of_ne (hy : y ∈ d) (hne : key y ≠ key x) : y ∈ assign key x d := by
  induction d with
  | nil => cases hy
  | cons z d ih =>
    unfold assign
    rcases List.mem_cons.mp hy with rfl | hy
    · rw [if_neg hne]
      exact List.mem_cons_self
    · split
      · exact List.mem_cons_of_mem _ hy
      · exact List.mem_cons_of_mem _ (ih hy)

theorem mem_assign_self : x ∈ assign key x d := by
  induction d with
  | nil => simp [assign]
  | cons z zs ih =>
    unfold assign
    split
    · exact List.mem_cons_self
    · exact List.mem_cons_of_mem _ ih

/-- Assignment keeps the keys in use. -/
theorem keys_assign (key : α → κ) (x : α) (hy : y ∈ d) : ∃ z ∈ assign key x d, key z = key y := by
  induction d with
  | nil => cases hy
  | cons z zs ih =>
    unfold assign
    split
    · rename_i heq
      rcases List.mem_cons.mp hy with rfl | hy
      · exact ⟨x, List.mem_cons_self, heq.symm⟩
      · exact ⟨y, List.mem_cons_of_mem _ hy, rfl⟩
    · rcases List.mem_cons.mp hy with rfl | hy
      · exact ⟨y, List.mem_cons_self, rfl⟩
      · obtain ⟨w, hw, hkey⟩ := ih hy
        exact ⟨w, List.mem_cons_of_mem _ hw, hkey⟩

theorem nodup_assign (h : (d.map key).Nodup) : ((assign key x d).map key).Nodup := by
  induction d with
  | nil => simp [assign]
  | cons z zs ih =>
    rw [List.map_cons, List.nodup_cons] at h
    unfold assign
    split
    · rename_i heq
      rw [List.map_cons, List.nodup_cons, ← heq]
      exact h
    · rename_i hne
      rw [List.map_cons, List.nodup_cons]
      refine ⟨fun hmem => ?_, ih h.2⟩
      obtain ⟨w, hw, hkey⟩ := List.mem_map.mp hmem
      rcases mem_assign hw with rfl | hw
      · exact hne hkey.symm
      · exact h.1 (hkey ▸ List.mem_map_of_mem hw)

theorem index_concat : index key (xs ++ [x]) = assign key x (index key xs) := by
  simp [index]

theorem nodup_index : ((index key xs).map key).Nodup := by
  induction xs using List.reverseRecOn with
  | nil => exact List.nodup_nil
  | append_singleton xs x ih =>
    rw [index_concat]
    exact nodup_assign ih

theorem mem_of_mem_index (h : y ∈ index key xs) : y ∈ xs := by
  induction xs using List.reverseRecOn with
  | nil => exact h
  | append_singleton xs x ih =>
    rw [index_concat] at h
    rcases mem_assign h with rfl | h
    · simp
    · exact List.mem_append_left _ (ih h)

/-- The keys of a dictionary are the keys of the values it was made from. -/
theorem exists_mem_index (key : α → κ) (h : y ∈ xs) : ∃ z ∈ index key xs, key z = key y := by
  induction xs using List.reverseRecOn with
  | nil => cases h
  | append_singleton xs x ih =>
    rw [index_concat]
    rcases List.mem_append.mp h with h | h
    · obtain ⟨z, hz, hkey⟩ := ih h
      obtain ⟨w, hw, hkey'⟩ := keys_assign key x hz
      exact ⟨w, hw, hkey'.trans hkey⟩
    · obtain rfl := List.mem_singleton.mp h
      exact ⟨y, mem_assign_self, rfl⟩

/-- When no two values share a key, the dictionary has all of them. -/
theorem mem_index_iff (hinj : ∀ x ∈ xs, ∀ y ∈ xs, key x = key y → x = y) :
    y ∈ index key xs ↔ y ∈ xs := by
  refine ⟨fun h => mem_of_mem_index h, fun h => ?_⟩
  obtain ⟨z, hz, hkey⟩ := exists_mem_index key h
  rwa [← hinj z (mem_of_mem_index hz) y h hkey]

/-- What is looked up after an assignment. -/
theorem lookup_assign_pair {ν : Type} {k k' : κ} {v : ν} {ms : List (κ × ν)} :
    (assign Prod.fst (k, v) ms).lookup k' = if k' = k then some v else ms.lookup k' := by
  induction ms with
  | nil =>
    by_cases h : k' = k
    · simp [assign, h]
    · simp [assign, List.lookup_cons, h, beq_eq_false_iff_ne.mpr h]
  | cons m ms ih =>
    obtain ⟨l, w⟩ := m
    unfold assign
    by_cases hl : l = k
    · subst hl
      by_cases h : k' = l
      · simp [h]
      · simp [List.lookup_cons, h, beq_eq_false_iff_ne.mpr h]
    · rw [if_neg hl]
      by_cases h : k' = l
      · subst h
        simp [hl]
      · simp only [List.lookup_cons, beq_eq_false_iff_ne.mpr h, ih]

/-- Pairs with distinct keys are looked up alike in any order. -/
theorem lookup_perm {ν : Type} {xs ys : List (κ × ν)} (h : xs.Perm ys)
    (hnodup : (xs.map Prod.fst).Nodup) (k : κ) : xs.lookup k = ys.lookup k := by
  induction h with
  | nil => rfl
  | cons x _ ih =>
    rw [List.lookup_cons, List.lookup_cons, ih (List.nodup_cons.mp hnodup).2]
  | swap x y zs =>
    -- at most one of the two has the key
    have hne : y.1 ≠ x.1 := by
      intro heq
      simp [heq] at hnodup
    obtain ⟨a, u⟩ := x
    obtain ⟨b, v⟩ := y
    rw [List.lookup_cons, List.lookup_cons, List.lookup_cons, List.lookup_cons]
    cases hy : k == b with
    | false => rfl
    | true =>
      have hx : (k == a) = false := by
        rw [eq_of_beq hy]
        exact beq_eq_false_iff_ne.mpr hne
      rw [hx]
  | trans hxy _ ih ih' => rw [ih hnodup, ih' ((hxy.map Prod.fst).nodup_iff.mp hnodup)]


/-- Storing under a new key appends. -/
theorem assign_of_notMem (h : key x ∉ d.map key) : assign key x d = d ++ [x] := by
  induction d with
  | nil => rfl
  | cons z zs ih =>
    rw [List.map_cons, List.mem_cons, not_or] at h
    rw [assign, if_neg (Ne.symm h.1), ih h.2, List.cons_append]

/-- Values with distinct keys are their own dictionary. -/
theorem index_eq_self (h : (xs.map key).Nodup) : index key xs = xs := by
  induction xs using List.reverseRecOn with
  | nil => rfl
  | append_singleton xs x ih =>
    rw [List.map_append, List.nodup_append] at h
    rw [index_concat, ih h.1, assign_of_notMem fun hmem => h.2.2 _ hmem _ (by simp) rfl]

/-! ## Section 2: Lookup -/

def lookup (key : α → κ) (d : List α) (k : κ) : Option α := d.find? fun x => key x = k

theorem lookup_eq_some {k : κ} (hd : (d.map key).Nodup) :
    lookup key d k = some x ↔ x ∈ d ∧ key x = k := by
  constructor
  · intro h
    exact ⟨List.mem_of_find?_eq_some h, by simpa using List.find?_some h⟩
  · rintro ⟨hx, rfl⟩
    cases hfind : lookup key d (key x) with
    | none =>
      have hnone := List.find?_eq_none.mp hfind x hx
      simp at hnone
    | some y =>
      have hkey : key y = key x := by simpa using List.find?_some hfind
      rw [List.inj_on_of_nodup_map hd (List.mem_of_find?_eq_some hfind) hx hkey]

/-- Looking up in a dictionary made from values with distinct keys. -/
theorem lookup_index {k : κ} (hxs : (xs.map key).Nodup) :
    lookup key (index key xs) k = some x ↔ x ∈ xs ∧ key x = k := by
  rw [lookup_eq_some nodup_index, mem_index_iff fun _ hx _ hy h => List.inj_on_of_nodup_map hxs hx hy h]

/-! ## Section 3: Agreement -/

variable [DecidableEq α]

/-- Store a value unless its key is in use by another one. -/
def agree (key : α → κ) (d : List α) (x : α) : Option (List α) :=
  match lookup key d (key x) with
  | none => some (d ++ [x])
  | some y => if y = x then some d else none

def agreeAll (key : α → κ) (d xs : List α) : Option (List α) :=
  xs.foldlM (agree key) d

/-- The dictionary after an agreement: still one value a key, and with the value that agreed. -/
theorem agree_eq_some {d' : List α} (h : agree key d x = some d') (hd : (d.map key).Nodup) :
    (d'.map key).Nodup ∧ (∀ y ∈ d, y ∈ d') ∧ x ∈ d' := by
  unfold agree at h
  cases hfind : lookup key d (key x) with
  | none =>
    rw [hfind] at h
    obtain rfl := Option.some.inj h
    have hnew : ∀ y ∈ d, ¬ key y = key x := by simpa using List.find?_eq_none.mp hfind
    refine ⟨?_, fun y hy => List.mem_append_left _ hy, by simp⟩
    rw [List.map_append, List.nodup_append]
    refine ⟨hd, by simp, fun k hk k' hk' => ?_⟩
    obtain ⟨y, hy, rfl⟩ := List.mem_map.mp hk
    obtain rfl := List.mem_singleton.mp hk'
    exact hnew y hy
  | some y =>
    rw [hfind] at h
    simp only at h
    split at h
    · rename_i heq
      obtain rfl := Option.some.inj h
      exact ⟨hd, fun _ hy => hy, heq ▸ List.mem_of_find?_eq_some hfind⟩
    · cases h

theorem agreeAll_eq_some {d' : List α} (h : agreeAll key d xs = some d')
    (hd : (d.map key).Nodup) :
    (d'.map key).Nodup ∧ (∀ y ∈ d, y ∈ d') ∧ ∀ x ∈ xs, x ∈ d' := by
  induction xs generalizing d with
  | nil =>
    obtain rfl := Option.some.inj h
    exact ⟨hd, fun _ hy => hy, by simp⟩
  | cons x xs ih =>
    obtain ⟨d₁, hx, hrest⟩ := Option.bind_eq_some_iff.mp h
    obtain ⟨hnodup, hold, hnew⟩ := agree_eq_some hx hd
    obtain ⟨hnodup', hold', hall⟩ := ih hrest hnodup
    refine ⟨hnodup', fun y hy => hold' y (hold y hy), fun y hy => ?_⟩
    rcases List.mem_cons.mp hy with rfl | hy
    · exact hold' y hnew
    · exact hall y hy

end Library
