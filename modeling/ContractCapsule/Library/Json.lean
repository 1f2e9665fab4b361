import Mathlib.Data.List.Sort
import Mathlib.Data.List.Nodup
import Mathlib.Tactic.Common
import ContractCapsule.Library.Index

/-!
# JSON Values

JSON values over an arbitrary type of numbers. An object is the list of its members;
`Distinct` says that no object repeats a key, so that the list stands for a mapping,
and `sortKeys` lists the members of every object in the order of their keys.

Two values are the same mapping when their sorted forms are equal:
`sortKeys_object_eq_iff` reads such an equality member by member.
-/

namespace Library

/-- A JSON value with numbers of type `ν`. -/
inductive Json (ν : Type) where
  | null
  | bool (b : Bool)
  | number (n : ν)
  | string (s : String)
  | array (items : List (Json ν))
  | object (members : List (String × Json ν))

namespace Json

variable {ν μ ρ : Type}

/-! ## Section 1: Induction over values -/

section Induction

variable {P : Json ν → Prop}

mutual

private theorem inductValue (null : P .null) (bool : ∀ b, P (.bool b)) (number : ∀ n, P (.number n))
    (string : ∀ s, P (.string s)) (array : ∀ items, (∀ x ∈ items, P x) → P (.array items))
    (object : ∀ members, (∀ m ∈ members, P m.2) → P (.object members)) : ∀ v, P v
  | .null => null
  | .bool b => bool b
  | .number n => number n
  | .string s => string s
  | .array items => array items (inductItems null bool number string array object items)
  | .object members =>
    object members (inductMembers null bool number string array object members)

private theorem inductItems (null : P .null) (bool : ∀ b, P (.bool b)) (number : ∀ n, P (.number n))
    (string : ∀ s, P (.string s)) (array : ∀ items, (∀ x ∈ items, P x) → P (.array items))
    (object : ∀ members, (∀ m ∈ members, P m.2) → P (.object members)) :
    ∀ items : List (Json ν), ∀ x ∈ items, P x
  | [], _, hx => absurd hx List.not_mem_nil
  | y :: ys, x, hx => by
    have hy := inductValue null bool number string array object y
    have hys := inductItems null bool number string array object ys
    rcases List.mem_cons.mp hx with rfl | hx
    · exact hy
    · exact hys x hx

private theorem inductMembers (null : P .null) (bool : ∀ b, P (.bool b))
    (number : ∀ n, P (.number n)) (string : ∀ s, P (.string s))
    (array : ∀ items, (∀ x ∈ items, P x) → P (.array items))
    (object : ∀ members, (∀ m ∈ members, P m.2) → P (.object members)) :
    ∀ members : List (String × Json ν), ∀ m ∈ members, P m.2
  | [], _, hm => absurd hm List.not_mem_nil
  | (k, y) :: ys, m, hm => by
    have hy := inductValue null bool number string array object y
    have hys := inductMembers null bool number string array object ys
    rcases List.mem_cons.mp hm with rfl | hm
    · exact hy
    · exact hys m hm

end

/-- Induction with the hypothesis for every item and every member. -/
@[elab_as_elim, induction_eliminator]
theorem induct (null : P .null) (bool : ∀ b, P (.bool b)) (number : ∀ n, P (.number n))
    (string : ∀ s, P (.string s)) (array : ∀ items, (∀ x ∈ items, P x) → P (.array items))
    (object : ∀ members, (∀ m ∈ members, P m.2) → P (.object members)) (v : Json ν) : P v :=
  inductValue null bool number string array object v

end Induction

section Equality

variable [DecidableEq ν]

mutual

/-- Equality of values is decidable. -/
def decEq : (v w : Json ν) → Decidable (v = w)
  | .null, w => by cases w <;> first | exact isTrue rfl | exact isFalse (by simp)
  | .bool b, w => by
    cases w with
    | bool c => exact decidable_of_iff (b = c) (by simp)
    | _ => exact isFalse (by simp)
  | .number m, w => by
    cases w with
    | number n => exact decidable_of_iff (m = n) (by simp)
    | _ => exact isFalse (by simp)
  | .string s, w => by
    cases w with
    | string t => exact decidable_of_iff (s = t) (by simp)
    | _ => exact isFalse (by simp)
  | .array xs, w => by
    cases w with
    | array ys =>
      have := decEqItems xs ys
      exact decidable_of_iff (xs = ys) (by simp)
    | _ => exact isFalse (by simp)
  | .object ms, w => by
    cases w with
    | object ns =>
      have := decEqMembers ms ns
      exact decidable_of_iff (ms = ns) (by simp)
    | _ => exact isFalse (by simp)

/-- Equality of the items of arrays. -/
def decEqItems : (xs ys : List (Json ν)) → Decidable (xs = ys)
  | [], [] => isTrue rfl
  | [], _ :: _ => isFalse (by simp)
  | _ :: _, [] => isFalse (by simp)
  | x :: xs, y :: ys =>
    have := decEq x y
    have := decEqItems xs ys
    decidable_of_iff (x = y ∧ xs = ys) (by simp)

/-- Equality of the members of objects. -/
def decEqMembers : (ms ns : List (String × Json ν)) → Decidable (ms = ns)
  | [], [] => isTrue rfl
  | [], _ :: _ => isFalse (by simp)
  | _ :: _, [] => isFalse (by simp)
  | (k, x) :: ms, (l, y) :: ns =>
    have := decEq x y
    have := decEqMembers ms ns
    decidable_of_iff (k = l ∧ x = y ∧ ms = ns) (by simp [and_assoc])

end

instance : DecidableEq (Json ν) := decEq

end Equality

/-! ## Section 2: Changing the numbers -/

mutual

/-- Apply a function to every number. -/
def map (f : ν → μ) : Json ν → Json μ
  | .null => .null
  | .bool b => .bool b
  | .number n => .number (f n)
  | .string s => .string s
  | .array items => .array (mapItems f items)
  | .object members => .object (mapMembers f members)

/-- `map` on the items of an array. -/
def mapItems (f : ν → μ) : List (Json ν) → List (Json μ)
  | [] => []
  | x :: xs => map f x :: mapItems f xs

/-- `map` on the members of an object. -/
def mapMembers (f : ν → μ) : List (String × Json ν) → List (String × Json μ)
  | [] => []
  | (k, x) :: ms => (k, map f x) :: mapMembers f ms

end

@[simp]
theorem mapItems_eq (f : ν → μ) (xs : List (Json ν)) : mapItems f xs = xs.map (map f) := by
  induction xs with
  | nil => rfl
  | cons x xs ih => rw [mapItems, ih, List.map_cons]

@[simp]
theorem mapMembers_eq (f : ν → μ) (ms : List (String × Json ν)) :
    mapMembers f ms = ms.map fun m => (m.1, map f m.2) := by
  induction ms with
  | nil => rfl
  | cons m ms ih => rw [mapMembers, ih, List.map_cons]

attribute [simp] map

theorem map_id (v : Json ν) : v.map id = v := by
  induction v with
  | null => rfl
  | bool b => rfl
  | number n => rfl
  | string s => rfl
  | array items ih =>
    simp only [map, mapItems_eq, Json.array.injEq]
    conv_rhs => rw [← List.map_id items]
    exact List.map_congr_left fun x hx => ih x hx
  | object members ih =>
    simp only [map, mapMembers_eq, Json.object.injEq]
    conv_rhs => rw [← List.map_id members]
    exact List.map_congr_left fun m hm => Prod.ext rfl (ih m hm)

theorem map_map (f : ν → μ) (g : μ → ρ) (v : Json ν) : (v.map f).map g = v.map (g ∘ f) := by
  induction v with
  | null => rfl
  | bool b => rfl
  | number n => rfl
  | string s => rfl
  | array items ih =>
    simp only [map, mapItems_eq, List.map_map, Json.array.injEq]
    exact List.map_congr_left fun x hx => ih x hx
  | object members ih =>
    simp only [map, mapMembers_eq, List.map_map, Json.object.injEq]
    exact List.map_congr_left fun m hm => by simp [ih m hm]

mutual

/-- Apply a partial function to every number. -/
def traverse (f : ν → Option μ) : Json ν → Option (Json μ)
  | .null => some .null
  | .bool b => some (.bool b)
  | .number n => (f n).map .number
  | .string s => some (.string s)
  | .array items => (traverseItems f items).map .array
  | .object members => (traverseMembers f members).map .object

/-- `traverse` on the items of an array. -/
def traverseItems (f : ν → Option μ) : List (Json ν) → Option (List (Json μ))
  | [] => some []
  | x :: xs => (traverse f x).bind fun y => (traverseItems f xs).map (y :: ·)

/-- `traverse` on the members of an object. -/
def traverseMembers (f : ν → Option μ) :
    List (String × Json ν) → Option (List (String × Json μ))
  | [] => some []
  | (k, x) :: ms => (traverse f x).bind fun y => (traverseMembers f ms).map ((k, y) :: ·)

end

/-- A partial function that undoes a change of the numbers up to another one. -/
theorem traverse_map {f : ν → μ} {g : μ → Option ρ} {h : ν → ρ} (hg : ∀ n, g (f n) = some (h n))
    (v : Json ν) : traverse g (v.map f) = some (v.map h) := by
  induction v with
  | null => rfl
  | bool b => rfl
  | number n => simp [traverse, hg]
  | string s => rfl
  -- the induction of the value gives each item, that of the list goes through them
  | array items ih =>
    have hitems : traverseItems g (items.map (map f)) = some (items.map (map h)) := by
      induction items with
      | nil => rfl
      | cons x xs ihs =>
        rw [List.map_cons, traverseItems, ih x List.mem_cons_self,
          ihs fun y hy => ih y (List.mem_cons_of_mem _ hy)]
        rfl
    simp [traverse, hitems]
  | object members ih =>
    have hmembers : traverseMembers g (members.map fun m => (m.1, map f m.2)) =
        some (members.map fun m => (m.1, map h m.2)) := by
      induction members with
      | nil => rfl
      | cons m ms ihs =>
        rw [List.map_cons, traverseMembers, ih m List.mem_cons_self,
          ihs fun y hy => ih y (List.mem_cons_of_mem _ hy)]
        rfl
    simp [traverse, hmembers]

/-! ## Section 3: Properties of all keys and all numbers -/

mutual

/-- No object repeats a key. -/
def distinct : Json ν → Bool
  | .array items => distinctItems items
  | .object members => decide (members.map Prod.fst).Nodup && distinctMembers members
  | _ => true

/-- `distinct` on the items of an array. -/
def distinctItems : List (Json ν) → Bool
  | [] => true
  | x :: xs => distinct x && distinctItems xs

/-- `distinct` on the members of an object. -/
def distinctMembers : List (String × Json ν) → Bool
  | [] => true
  | (_, x) :: ms => distinct x && distinctMembers ms

end

@[simp]
theorem distinctItems_eq (xs : List (Json ν)) : distinctItems xs = xs.all distinct := by
  induction xs with
  | nil => rfl
  | cons x xs ih => rw [distinctItems, ih, List.all_cons]

@[simp]
theorem distinctMembers_eq (ms : List (String × Json ν)) :
    distinctMembers ms = ms.all fun m => distinct m.2 := by
  induction ms with
  | nil => rfl
  | cons m ms ih => rw [distinctMembers, ih, List.all_cons]

attribute [simp] distinct

mutual

/-- Make every object a mapping: of the members with one key the last counts. -/
def collapse : Json ν → Json ν
  | .array items => .array (collapseItems items)
  | .object members => .object (index Prod.fst (collapseMembers members))
  | v => v

/-- `collapse` on the items of an array. -/
def collapseItems : List (Json ν) → List (Json ν)
  | [] => []
  | x :: xs => collapse x :: collapseItems xs

/-- `collapse` on the values of an object. -/
def collapseMembers : List (String × Json ν) → List (String × Json ν)
  | [] => []
  | (k, x) :: ms => (k, collapse x) :: collapseMembers ms

end

@[simp]
theorem collapseItems_eq (xs : List (Json ν)) : collapseItems xs = xs.map collapse := by
  induction xs with
  | nil => rfl
  | cons x xs ih => rw [collapseItems, ih, List.map_cons]

@[simp]
theorem collapseMembers_eq (ms : List (String × Json ν)) :
    collapseMembers ms = ms.map fun m => (m.1, collapse m.2) := by
  induction ms with
  | nil => rfl
  | cons m ms ih => rw [collapseMembers, ih, List.map_cons]

/-- A value without repeated keys is not changed. -/
theorem collapse_eq_self {v : Json ν} (h : v.distinct = true) : v.collapse = v := by
  induction v with
  | null => rfl
  | bool b => rfl
  | number n => rfl
  | string s => rfl
  | array items ih =>
    simp only [distinct, distinctItems_eq, List.all_eq_true] at h
    have hvalues : items.map collapse = items :=
      (List.map_congr_left fun x hx => ih x hx (h x hx)).trans (List.map_id items)
    rw [collapse, collapseItems_eq, hvalues]
  | object members ih =>
    simp only [distinct, distinctMembers_eq, List.all_eq_true, Bool.and_eq_true,
      decide_eq_true_eq] at h
    have hvalues : members.map (fun m => (m.1, collapse m.2)) = members := by
      conv_rhs => rw [← List.map_id members]
      exact List.map_congr_left fun m hm => Prod.ext rfl (ih m hm (h.2 m hm))
    rw [collapse, collapseMembers_eq, hvalues, index_eq_self h.1]

/-- Predicates that agree on the elements of a list hold of all of them alike. -/
theorem all_congr_of_mem {α : Type} {p q : α → Bool} {l : List α} (h : ∀ x ∈ l, p x = q x) :
    l.all p = l.all q := by
  induction l with
  | nil => rfl
  | cons x l ih =>
    rw [List.all_cons, List.all_cons, h x List.mem_cons_self,
      ih fun y hy => h y (List.mem_cons_of_mem _ hy)]

theorem all_and_all {α : Type} {p q : α → Bool} (l : List α) :
    (l.all fun x => p x && q x) = (l.all p && l.all q) := by
  rw [Bool.eq_iff_iff]
  simp [forall_and]

theorem distinct_map (f : ν → μ) (v : Json ν) : (v.map f).distinct = v.distinct := by
  induction v with
  | null => rfl
  | bool b => rfl
  | number n => rfl
  | string s => rfl
  | array items ih =>
    simp only [map, mapItems_eq, distinct, distinctItems_eq, List.all_map]
    exact all_congr_of_mem fun x hx => ih x hx
  | object members ih =>
    simp only [map, mapMembers_eq, distinct, distinctMembers_eq, List.all_map, List.map_map]
    congr 1
    exact all_congr_of_mem fun m hm => ih m hm

mutual

/-- Every number has a property. -/
def numbersAll (p : ν → Bool) : Json ν → Bool
  | .number n => p n
  | .array items => itemsAll p items
  | .object members => membersAll p members
  | _ => true

/-- `numbersAll` on the items of an array. -/
def itemsAll (p : ν → Bool) : List (Json ν) → Bool
  | [] => true
  | x :: xs => numbersAll p x && itemsAll p xs

/-- `numbersAll` on the members of an object. -/
def membersAll (p : ν → Bool) : List (String × Json ν) → Bool
  | [] => true
  | (_, x) :: ms => numbersAll p x && membersAll p ms

end

@[simp]
theorem itemsAll_eq (p : ν → Bool) (xs : List (Json ν)) :
    itemsAll p xs = xs.all (numbersAll p) := by
  induction xs with
  | nil => rfl
  | cons x xs ih => rw [itemsAll, ih, List.all_cons]

@[simp]
theorem membersAll_eq (p : ν → Bool) (ms : List (String × Json ν)) :
    membersAll p ms = ms.all fun m => numbersAll p m.2 := by
  induction ms with
  | nil => rfl
  | cons m ms ih => rw [membersAll, ih, List.all_cons]

attribute [simp] numbersAll

theorem numbersAll_map {f : ν → μ} {p : μ → Bool} {q : ν → Bool} (h : ∀ n, p (f n) = q n)
    (v : Json ν) : (v.map f).numbersAll p = v.numbersAll q := by
  induction v with
  | null => rfl
  | bool b => rfl
  | number n => exact h n
  | string s => rfl
  | array items ih =>
    simp only [map, mapItems_eq, numbersAll, itemsAll_eq, List.all_map]
    exact all_congr_of_mem fun x hx => ih x hx
  | object members ih =>
    simp only [map, mapMembers_eq, numbersAll, membersAll_eq, List.all_map]
    exact all_congr_of_mem fun m hm => ih m hm

theorem numbersAll_true (v : Json ν) : v.numbersAll (fun _ => true) = true := by
  induction v with
  | null => rfl
  | bool b => rfl
  | number n => rfl
  | string s => rfl
  | array items ih => simpa using ih
  | object members ih => simpa using ih

theorem numbersAll_and (p q : ν → Bool) (v : Json ν) :
    v.numbersAll (fun n => p n && q n) = (v.numbersAll p && v.numbersAll q) := by
  induction v with
  | null => rfl
  | bool b => rfl
  | number n => rfl
  | string s => rfl
  | array items ih =>
    simp only [numbersAll, itemsAll_eq, all_congr_of_mem fun x hx => ih x hx]
    exact all_and_all items
  | object members ih =>
    simp only [numbersAll, membersAll_eq, all_congr_of_mem fun m hm => ih m hm]
    exact all_and_all members

/-- Number functions that agree on the numbers of a value agree on the value. -/
theorem map_congr_of_numbersAll {f g : ν → μ} {p : ν → Bool} {v : Json ν}
    (hv : v.numbersAll p = true) (h : ∀ n, p n = true → f n = g n) : v.map f = v.map g := by
  induction v with
  | null => rfl
  | bool b => rfl
  | number n => exact congrArg Json.number (h n hv)
  | string s => rfl
  | array items ih =>
    simp only [map, mapItems_eq, numbersAll, itemsAll_eq, List.all_eq_true, Json.array.injEq] at hv ⊢
    exact List.map_congr_left fun x hx => ih x hx (hv x hx)
  | object members ih =>
    simp only [map, mapMembers_eq, numbersAll, membersAll_eq, List.all_eq_true,
      Json.object.injEq] at hv ⊢
    exact List.map_congr_left fun m hm => by rw [ih m hm (hv m hm)]

/-- A number function that separates no more numbers than another one separates no more values. -/
theorem map_eq_map_of_imp {f : ν → μ} {g : ν → ρ} {p : ν → Bool} {v w : Json ν}
    (hv : v.numbersAll p = true) (hw : w.numbersAll p = true)
    (h : ∀ m n, p m = true → p n = true → f m = f n → g m = g n) (hvw : v.map f = w.map f) :
    v.map g = w.map g := by
  -- the two values have one shape, since the images have; within it the claim is about the numbers
  induction v generalizing w with
  | null => cases w <;> simp_all
  | bool b => cases w <;> simp_all
  | number n =>
    cases w with
    | number m => simpa using h n m hv hw (by simpa using hvw)
    | _ => simp at hvw
  | string s => cases w <;> simp_all
  | array items ih =>
    cases w with
    | array items' =>
      simp only [map, mapItems_eq, Json.array.injEq, numbersAll, itemsAll_eq] at hv hw hvw ⊢
      -- the items are compared in step: a list that is longer has another image
      induction items generalizing items' with
      | nil =>
        cases items' with
        | nil => rfl
        | cons y ys => simp at hvw
      | cons x xs ihs =>
        cases items' with
        | nil => simp at hvw
        | cons y ys =>
          simp only [List.map_cons, List.cons.injEq, List.all_cons, Bool.and_eq_true] at hv hw hvw ⊢
          exact ⟨ih x List.mem_cons_self hv.1 hw.1 hvw.1,
            ihs (fun z hz => ih z (List.mem_cons_of_mem _ hz)) ys hv.2 hw.2 hvw.2⟩
    | _ => simp at hvw
  | object members ih =>
    cases w with
    | object members' =>
      simp only [map, mapMembers_eq, Json.object.injEq, numbersAll, membersAll_eq] at hv hw hvw ⊢
      -- the members likewise, under the same keys
      induction members generalizing members' with
      | nil =>
        cases members' with
        | nil => rfl
        | cons y ys => simp at hvw
      | cons x xs ihs =>
        cases members' with
        | nil => simp at hvw
        | cons y ys =>
          simp only [List.map_cons, List.cons.injEq, Prod.mk.injEq, List.all_cons,
            Bool.and_eq_true] at hv hw hvw ⊢
          exact ⟨⟨hvw.1.1, ih x List.mem_cons_self hv.1 hw.1 hvw.1.2⟩,
            ihs (fun z hz => ih z (List.mem_cons_of_mem _ hz)) ys hv.2 hw.2 hvw.2⟩
    | _ => simp at hvw

/-! ## Section 4: Objects in the order of their keys -/

section Sorting

variable {κ : Type} [LinearOrder κ] (key : String → κ)

/-- Members in the order of their keys, the keys compared by `key`. -/
abbrev sortMembers (ms : List (String × Json ν)) : List (String × Json ν) :=
  ms.insertionSort fun m n => key m.1 ≤ key n.1

mutual

/-- List the members of every object in the order of their keys. -/
def sortKeys : Json ν → Json ν
  | .array items => .array (sortItems items)
  | .object members => .object (sortMembers key (sortValues members))
  | v => v

/-- `sortKeys` on the items of an array. -/
def sortItems : List (Json ν) → List (Json ν)
  | [] => []
  | x :: xs => sortKeys x :: sortItems xs

/-- `sortKeys` on the values of an object. -/
def sortValues : List (String × Json ν) → List (String × Json ν)
  | [] => []
  | (k, x) :: ms => (k, sortKeys x) :: sortValues ms

end

@[simp]
theorem sortItems_eq (xs : List (Json ν)) : sortItems key xs = xs.map (sortKeys key) := by
  induction xs with
  | nil => rfl
  | cons x xs ih => rw [sortItems, ih, List.map_cons]

@[simp]
theorem sortValues_eq (ms : List (String × Json ν)) :
    sortValues key ms = ms.map fun m => (m.1, sortKeys key m.2) := by
  induction ms with
  | nil => rfl
  | cons m ms ih => rw [sortValues, ih, List.map_cons]

attribute [simp] sortKeys

theorem mem_sortMembers {ms : List (String × Json ν)} {m : String × Json ν} :
    m ∈ sortMembers key ms ↔ m ∈ ms :=
  List.mem_insertionSort _

/-- Sorting members commutes with a change of their values. -/
theorem sortMembers_map (f : Json ν → Json μ) (ms : List (String × Json ν)) :
    sortMembers key (ms.map fun m => (m.1, f m.2)) =
      (sortMembers key ms).map fun m => (m.1, f m.2) :=
  (List.map_insertionSort _ _ (fun m : String × Json ν => (m.1, f m.2)) ms
    fun _ _ _ _ => Iff.rfl).symm

theorem sortKeys_map (f : ν → μ) (v : Json ν) :
    sortKeys key (v.map f) = (sortKeys key v).map f := by
  induction v with
  | null => rfl
  | bool b => rfl
  | number n => rfl
  | string s => rfl
  | array items ih =>
    simp only [map, mapItems_eq, sortKeys, sortItems_eq, List.map_map, Json.array.injEq]
    exact List.map_congr_left fun x hx => ih x hx
  | object members ih =>
    simp only [map, mapMembers_eq, sortKeys, sortValues_eq, List.map_map, Json.object.injEq]
    rw [← sortMembers_map key (map f), List.map_map]
    congr 1
    exact List.map_congr_left fun m hm => by simp [ih m hm]

/-- Sorting sorted members again changes nothing. -/
theorem sortMembers_sortMembers (ms : List (String × Json ν)) :
    sortMembers key (sortMembers key ms) = sortMembers key ms := by
  have htotal : Std.Total fun m n : String × Json ν => key m.1 ≤ key n.1 :=
    ⟨fun m n => le_total (key m.1) (key n.1)⟩
  have htrans : IsTrans (String × Json ν) fun m n => key m.1 ≤ key n.1 :=
    ⟨fun _ _ _ => le_trans⟩
  exact (List.pairwise_insertionSort _ ms).insertionSort_eq

theorem sortKeys_sortKeys (v : Json ν) : sortKeys key (sortKeys key v) = sortKeys key v := by
  induction v with
  | null => rfl
  | bool b => rfl
  | number n => rfl
  | string s => rfl
  | array items ih =>
    simp only [sortKeys, sortItems_eq, List.map_map, Json.array.injEq]
    exact List.map_congr_left fun x hx => ih x hx
  | object members ih =>
    simp only [sortKeys, sortValues_eq, Json.object.injEq]
    rw [← sortMembers_map key (sortKeys key), sortMembers_sortMembers, List.map_map]
    congr 1
    exact List.map_congr_left fun m hm => by simp [ih m hm]

theorem distinct_sortKeys (v : Json ν) : (sortKeys key v).distinct = v.distinct := by
  induction v with
  | null => rfl
  | bool b => rfl
  | number n => rfl
  | string s => rfl
  | array items ih =>
    simp only [sortKeys, sortItems_eq, distinct, distinctItems_eq, List.all_map]
    exact all_congr_of_mem fun x hx => ih x hx
  | object members ih =>
    simp only [sortKeys, sortValues_eq, distinct, distinctMembers_eq]
    have hperm := List.perm_insertionSort (fun m n : String × Json ν => key m.1 ≤ key n.1)
      (members.map fun m => (m.1, sortKeys key m.2))
    have hnodup := (hperm.map Prod.fst).nodup_iff
    rw [List.map_map] at hnodup
    rw [hperm.all_eq, List.all_map, decide_eq_decide.mpr hnodup]
    congr 1
    exact all_congr_of_mem fun m hm => ih m hm

theorem numbersAll_sortKeys (p : ν → Bool) (v : Json ν) :
    (sortKeys key v).numbersAll p = v.numbersAll p := by
  induction v with
  | null => rfl
  | bool b => rfl
  | number n => rfl
  | string s => rfl
  | array items ih =>
    simp only [sortKeys, sortItems_eq, numbersAll, itemsAll_eq, List.all_map]
    exact all_congr_of_mem fun x hx => ih x hx
  | object members ih =>
    simp only [sortKeys, sortValues_eq, numbersAll, membersAll_eq]
    have hperm := List.perm_insertionSort (fun m n : String × Json ν => key m.1 ≤ key n.1)
      (members.map fun m => (m.1, sortKeys key m.2))
    rw [hperm.all_eq, List.all_map]
    exact all_congr_of_mem fun m hm => ih m hm

/-! ## Section 5: Equality as mappings -/

/-- Equality of values whose numbers are compared by `value` and whose objects are compared as
mappings. -/
def Same (value : ν → μ) (v w : Json ν) : Prop :=
  (sortKeys key v).map value = (sortKeys key w).map value

variable {key} {value : ν → μ}

theorem Same.refl (v : Json ν) : Same key value v v := rfl

theorem Same.symm {v w : Json ν} (h : Same key value v w) : Same key value w v := Eq.symm h

theorem Same.trans {u v w : Json ν} (h : Same key value u v) (h' : Same key value v w) :
    Same key value u w := Eq.trans h h'

@[simp]
theorem same_bool {b c : Bool} : Same key value (.bool b : Json ν) (.bool c) ↔ b = c := by
  simp [Same]

@[simp]
theorem same_number {m n : ν} :
    Same key value (.number m : Json ν) (.number n) ↔ value m = value n := by
  simp [Same]

@[simp]
theorem same_string {s t : String} : Same key value (.string s : Json ν) (.string t) ↔ s = t := by
  simp [Same]

@[simp]
theorem same_null_string {s : String} : ¬ Same key value (.null : Json ν) (.string s) := by
  simp [Same]

@[simp]
theorem same_string_null {s : String} : ¬ Same key value (.string s : Json ν) .null := by
  simp [Same]

theorem same_array {xs ys : List (Json ν)} :
    Same key value (.array xs) (.array ys) ↔ List.Forall₂ (Same key value) xs ys := by
  simp only [Same, sortKeys, sortItems_eq, map, mapItems_eq, List.map_map, Json.array.injEq]
  rw [← List.forall₂_eq_eq_eq, List.forall₂_map_left_iff, List.forall₂_map_right_iff]
  exact Iff.rfl

/-- Members with the same distinct keys in the same order are determined by their set. -/
theorem eq_of_keys_eq {ms ms' : List (String × Json ν)} (hkeys : ms.map Prod.fst = ms'.map Prod.fst)
    (hnodup : (ms.map Prod.fst).Nodup) (hsub : ∀ m ∈ ms, m ∈ ms') : ms = ms' := by
  induction ms generalizing ms' with
  | nil => simpa using hkeys
  | cons m ms ih =>
    cases ms' with
    | nil => simp at hkeys
    | cons m' ms' =>
      simp only [List.map_cons, List.cons.injEq] at hkeys
      rw [List.map_cons, List.nodup_cons] at hnodup
      have hhead : m = m' := by
        rcases List.mem_cons.mp (hsub m List.mem_cons_self) with h | h
        · exact h
        · -- the key of `m` would occur twice
          have : m.1 ∈ ms.map Prod.fst := hkeys.2 ▸ List.mem_map_of_mem h
          exact absurd this hnodup.1
      have htail : ms = ms' := ih hkeys.2 hnodup.2 fun n hn => by
        rcases List.mem_cons.mp (hsub n (List.mem_cons_of_mem _ hn)) with h | h
        · have hkey : n.1 ∈ ms.map Prod.fst := List.mem_map_of_mem hn
          rw [h, ← hkeys.1] at hkey
          exact absurd hkey hnodup.1
        · exact h
      rw [hhead, htail]

/-- Objects with the same distinct keys are the same exactly when their values are. -/
theorem same_object {ms ms' : List (String × Json ν)} (hkeys : ms.map Prod.fst = ms'.map Prod.fst)
    (hnodup : (ms.map Prod.fst).Nodup) :
    Same key value (.object ms) (.object ms') ↔
      List.Forall₂ (Same key value) (ms.map Prod.snd) (ms'.map Prod.snd) := by
  -- sorting keys and translating numbers happen member by member, before the members are sorted
  have hform : ∀ ns : List (String × Json ν), (sortKeys key (.object ns)).map value =
      .object (sortMembers key (ns.map fun m => (m.1, (sortKeys key m.2).map value))) := by
    intro ns
    simp only [sortKeys, sortValues_eq, map, mapMembers_eq]
    rw [← sortMembers_map, List.map_map]
    rfl
  -- so the values agree one by one exactly when the unsorted members agree
  have hvalues : List.Forall₂ (Same key value) (ms.map Prod.snd) (ms'.map Prod.snd) ↔
      ms.map (fun m => (m.1, (sortKeys key m.2).map value)) =
        ms'.map (fun m => (m.1, (sortKeys key m.2).map value)) := by
    rw [List.forall₂_map_left_iff, List.forall₂_map_right_iff]
    induction ms generalizing ms' with
    | nil =>
      cases ms' with
      | nil => simp
      | cons m' ms' => simp at hkeys
    | cons m ms ih =>
      cases ms' with
      | nil => simp at hkeys
      | cons m' ms' =>
        simp only [List.map_cons, List.cons.injEq, List.nodup_cons] at hkeys hnodup
        rw [List.forall₂_cons, List.map_cons, List.map_cons, List.cons.injEq,
          ih hkeys.2 hnodup.2, Prod.mk.injEq]
        simp [hkeys.1, Same]
  rw [hvalues, Same, hform, hform, Json.object.injEq]
  -- sorting keeps the members, and members under distinct keys are determined by their keys
  refine ⟨fun h => eq_of_keys_eq ?_ ?_ fun m hm => ?_, fun h => by rw [h]⟩
  · simpa [Function.comp_def] using hkeys
  · simpa [Function.comp_def] using hnodup
  · have hmem : m ∈ sortMembers key _ := (mem_sortMembers key).mpr hm
    rw [h] at hmem
    exact (mem_sortMembers key).mp hmem

end Sorting

end Json

end Library
