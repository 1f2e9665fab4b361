import Mathlib.Data.List.Dedup
import Mathlib.Data.List.Sort
import Mathlib.Data.List.TakeWhile

/-!
# Sorting by a Key

What a stable sort by a key makes of a list that comes in another order. Elements with one key keep
the order of the list, so a function of the sorted list is free of that order exactly when it does
not tell such elements apart.
-/

namespace Library

variable {α β κ : Type} [LinearOrder κ]

/-! ## Section 1: Relations -/

/-- Sorting depends on the relation only. -/
theorem insertionSort_congr {r r' : α → α → Prop} [DecidableRel r] [DecidableRel r']
    (h : ∀ a b, r a b ↔ r' a b) (xs : List α) : xs.insertionSort r = xs.insertionSort r' := by
  have hsame : r = r' := funext fun a => funext fun b => propext (h a b)
  subst hsame
  congr

/-- The list in the order of the keys. -/
abbrev sortBy (key : α → κ) (xs : List α) : List α := xs.insertionSort fun a b => key a ≤ key b

variable {key : α → κ}

theorem pairwise_sortBy (key : α → κ) (xs : List α) :
    (sortBy key xs).Pairwise fun a b => key a ≤ key b := by
  have : Std.Total (fun a b => key a ≤ key b) := ⟨fun a b => le_total (key a) (key b)⟩
  have : IsTrans α (fun a b => key a ≤ key b) := ⟨fun _ _ _ => le_trans⟩
  exact List.pairwise_insertionSort _ xs

theorem perm_sortBy (key : α → κ) (xs : List α) : (sortBy key xs).Perm xs :=
  List.perm_insertionSort _ xs

/-- An element in front of an ascending list stays there. -/
theorem orderedInsert_of_le {a : α} {xs : List α} (h : ∀ b ∈ xs, key a ≤ key b) :
    xs.orderedInsert (fun a b => key a ≤ key b) a = a :: xs := by
  cases xs with
  | nil => rfl
  | cons b xs => rw [List.orderedInsert_cons, if_pos (h b List.mem_cons_self)]

/-- The last element goes to the front of an ascending list if it belongs before all of it. -/
theorem sortBy_concat {xs : List α} {b : α} (hxs : xs.Pairwise fun a c => key a ≤ key c)
    (hb : ∀ a ∈ xs, key b < key a) : sortBy key (xs ++ [b]) = b :: xs := by
  induction xs with
  | nil => rfl
  | cons a xs ih =>
    obtain ⟨ha, hxs⟩ := List.pairwise_cons.mp hxs
    have hlater := ih hxs fun c hc => hb c (List.mem_cons_of_mem _ hc)
    simp only [sortBy] at hlater ⊢
    rw [List.cons_append, List.insertionSort_cons, hlater, List.orderedInsert_cons,
      if_neg (not_le.mpr (hb a List.mem_cons_self)), orderedInsert_of_le ha]

/-! ## Section 2: Ties -/

/-- When elements with one key have one image, the images of the sorted list are those of any
other order. -/
theorem map_sortBy_perm {g : α → β} {xs ys : List α} (h : xs.Perm ys)
    (hties : ∀ a ∈ xs, ∀ b ∈ xs, key a = key b → g a = g b) :
    (sortBy key xs).map g = (sortBy key ys).map g := by
  have hpairs : (sortBy key xs).map (fun a => (key a, g a)) =
      (sortBy key ys).map (fun a => (key a, g a)) := by
    let firstLe : κ × β → κ × β → Prop := fun p q => p.1 ≤ q.1
    apply @List.Perm.eq_of_pairwise _ firstLe
    · intro p q hp hq hle hge
      obtain ⟨a, ha, rfl⟩ := List.mem_map.mp hp
      obtain ⟨b, hb, rfl⟩ := List.mem_map.mp hq
      have hkey : key a = key b := le_antisymm hle hge
      have ha' := (perm_sortBy key xs).mem_iff.mp ha
      have hb' := h.mem_iff.mpr ((perm_sortBy key ys).mem_iff.mp hb)
      exact Prod.ext hkey (hties a ha' b hb' hkey)
    · exact List.pairwise_map.mpr (pairwise_sortBy key xs)
    · exact List.pairwise_map.mpr (pairwise_sortBy key ys)
    · exact (((perm_sortBy key xs).trans h).trans (perm_sortBy key ys).symm).map _
  have hsecond := congrArg (List.map Prod.snd) hpairs
  rwa [List.map_map, List.map_map] at hsecond

/-- The keys of the sorted list are those of any other order. -/
theorem keys_sortBy_perm {xs ys : List α} (h : xs.Perm ys) :
    (sortBy key xs).map key = (sortBy key ys).map key :=
  map_sortBy_perm h fun _ _ _ _ heq => heq

/-- The first element of a list comes first among those with its key. -/
theorem head?_ties_sortBy (a : α) (xs : List α) :
    ((sortBy key (a :: xs)).filter fun b => key b = key a).head? = some a := by
  have hbefore : ((sortBy key xs).takeWhile fun b => ¬ key a ≤ key b).filter
      (fun b => key b = key a) = [] := by
    rw [List.filter_eq_nil_iff]
    intro b hb
    have hlt := List.mem_takeWhile_imp hb
    rw [decide_eq_true_eq] at hlt ⊢
    intro hkey
    exact hlt hkey.ge
  rw [sortBy, List.insertionSort_cons_eq_take_drop, List.filter_append, hbefore, List.nil_append,
    List.filter_cons_of_pos (by simp), List.head?_cons]

/-- Two orders of a list that sort to the same images have the same image first among the elements
with one key. -/
theorem tie_of_map_sortBy {g : α → β} {a b : α} {xs ys : List α} (h : (a :: xs).Perm (b :: ys))
    (hkey : key a = key b) (himages : (sortBy key (a :: xs)).map g = (sortBy key (b :: ys)).map g) :
    g a = g b := by
  have hpairs : (sortBy key (a :: xs)).map (fun c => (key c, g c)) =
      (sortBy key (b :: ys)).map (fun c => (key c, g c)) := by
    rw [← List.zip_map', ← List.zip_map', keys_sortBy_perm h, himages]
  have hfirst : ∀ (c : α) (cs : List α), key c = key a →
      (((sortBy key (c :: cs)).map fun c => (key c, g c)).filter fun p => p.1 = key a).head? =
        some (key c, g c) := by
    intro c cs hc
    rw [List.filter_map]
    have hcomp : ((fun p : κ × β => decide (p.1 = key a)) ∘ fun d => (key d, g d)) =
        fun d => decide (key d = key c) := by
      funext d
      simp [hc]
    rw [hcomp, List.head?_map, head?_ties_sortBy, Option.map_some]
  have hleft := hfirst a xs rfl
  rw [hpairs, hfirst b ys hkey.symm, Option.some.injEq, Prod.mk.injEq] at hleft
  exact hleft.2.symm

/-- The elements of a list, each once and in order, are the same for any other order. -/
theorem sort_dedup_perm {γ : Type} [DecidableEq γ] {le : γ → γ → Prop} [DecidableRel le]
    {order : γ → κ} (hle : ∀ a b, le a b ↔ order a ≤ order b) (horder : Function.Injective order)
    {xs ys : List γ} (h : xs.Perm ys) :
    xs.dedup.insertionSort le = ys.dedup.insertionSort le := by
  rw [insertionSort_congr hle, insertionSort_congr hle]
  have hsame : (sortBy order xs.dedup).map id = (sortBy order ys.dedup).map id :=
    map_sortBy_perm h.dedup fun a _ b _ heq => horder heq
  rwa [List.map_id, List.map_id] at hsame

/-! ## Section 3: Limits -/

/-- Lists in strictly ascending order that have the same elements are equal. -/
theorem eq_of_ascending {xs ys : List α}
    (hxs : xs.Pairwise fun a b => key a < key b) (hys : ys.Pairwise fun a b => key a < key b)
    (h : ∀ a, a ∈ xs ↔ a ∈ ys) : xs = ys := by
  have hnodup : ∀ {zs : List α}, zs.Pairwise (fun a b => key a < key b) → zs.Nodup := by
    intro zs hzs
    apply hzs.imp
    intro a b hlt heq
    exact hlt.ne (congrArg key heq)
  have hperm : xs.Perm ys := (List.perm_ext_iff_of_nodup (hnodup hxs) (hnodup hys)).mpr h
  apply hperm.eq_of_pairwise _ hxs hys
  intro a b _ _ hlt hgt
  exact absurd hlt hgt.asymm

/-- The first `n` elements, filtered, are the first `n` of the filtered list exactly when all of
them pass or none behind them does. -/
theorem filter_take_eq_take_filter_iff {p : α → Bool} {xs : List α} {n : ℕ} :
    (xs.take n).filter p = (xs.filter p).take n ↔
      (∀ a ∈ xs.take n, p a = true) ∨ ∀ a ∈ xs.drop n, p a = false := by
  have hsplit : xs.filter p = (xs.take n).filter p ++ (xs.drop n).filter p := by
    rw [← List.filter_append, List.take_append_drop]
  have hfew : ((xs.take n).filter p).length ≤ n :=
    (List.length_filter_le _ _).trans (List.length_take_le _ _)
  rw [hsplit, List.take_append, List.take_of_length_le hfew, eq_comm, List.append_right_eq_self,
    List.take_eq_nil_iff]
  constructor
  · rintro (hroom | hnone)
    · -- no room is left, so nothing was dropped from the first elements
      left
      apply List.length_filter_eq_length_iff.mp
      have := List.length_take_le n xs
      have := List.length_filter_le p (xs.take n)
      omega
    · right
      simpa using List.filter_eq_nil_iff.mp hnone
  · rintro (hall | hnone)
    · by_cases hlong : n ≤ xs.length
      · left
        rw [List.length_filter_eq_length_iff.mpr hall, List.length_take, Nat.min_eq_left hlong,
          Nat.sub_self]
      · right
        rw [List.drop_of_length_le (by omega), List.filter_nil]
    · right
      simpa [List.filter_eq_nil_iff] using hnone

end Library
