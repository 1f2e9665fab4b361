import Mathlib.Algebra.Order.Ring.Rat
import Mathlib.Data.Rat.Cast.CharZero
import ContractCapsule.Library.Json

/-!
# Python Values That JSON Carries

What a Python program holds where a text has JSON: lists and tuples are two types, both written as
arrays, and `==` compares numbers by what they are worth, sequences of one type item by item, and
dictionaries without regard to the order of their keys.

`equal_reload` says what is lost on the way through JSON: a value read back as tuples, with its keys
in any order, equals the value exactly when no list is in it.
-/

namespace Library

/-- A Python value with numbers of type `ν`. -/
inductive PyData (ν : Type) where
  | null
  | bool (b : Bool)
  | number (n : ν)
  | string (s : String)
  | list (items : List (PyData ν))
  | tuple (items : List (PyData ν))
  | dict (members : List (String × PyData ν))

namespace PyData

variable {ν : Type}

/-! ## Section 1: Induction over values -/

section Induction

variable {P : PyData ν → Prop}

mutual

private theorem inductData (null : P .null) (bool : ∀ b, P (.bool b)) (number : ∀ n, P (.number n))
    (string : ∀ s, P (.string s)) (list : ∀ items, (∀ x ∈ items, P x) → P (.list items))
    (tuple : ∀ items, (∀ x ∈ items, P x) → P (.tuple items))
    (dict : ∀ members, (∀ m ∈ members, P m.2) → P (.dict members)) : ∀ v, P v
  | .null => null
  | .bool b => bool b
  | .number n => number n
  | .string s => string s
  | .list items => list items (inductSequence null bool number string list tuple dict items)
  | .tuple items => tuple items (inductSequence null bool number string list tuple dict items)
  | .dict members =>
    dict members (inductPairs null bool number string list tuple dict members)

private theorem inductSequence (null : P .null) (bool : ∀ b, P (.bool b))
    (number : ∀ n, P (.number n)) (string : ∀ s, P (.string s))
    (list : ∀ items, (∀ x ∈ items, P x) → P (.list items))
    (tuple : ∀ items, (∀ x ∈ items, P x) → P (.tuple items))
    (dict : ∀ members, (∀ m ∈ members, P m.2) → P (.dict members)) :
    ∀ items : List (PyData ν), ∀ x ∈ items, P x
  | [], _, hx => absurd hx List.not_mem_nil
  | y :: ys, x, hx => by
    have hy := inductData null bool number string list tuple dict y
    have hys := inductSequence null bool number string list tuple dict ys
    rcases List.mem_cons.mp hx with rfl | hx
    · exact hy
    · exact hys x hx

private theorem inductPairs (null : P .null) (bool : ∀ b, P (.bool b))
    (number : ∀ n, P (.number n)) (string : ∀ s, P (.string s))
    (list : ∀ items, (∀ x ∈ items, P x) → P (.list items))
    (tuple : ∀ items, (∀ x ∈ items, P x) → P (.tuple items))
    (dict : ∀ members, (∀ m ∈ members, P m.2) → P (.dict members)) :
    ∀ members : List (String × PyData ν), ∀ m ∈ members, P m.2
  | [], _, hm => absurd hm List.not_mem_nil
  | (k, y) :: ys, m, hm => by
    have hy := inductData null bool number string list tuple dict y
    have hys := inductPairs null bool number string list tuple dict ys
    rcases List.mem_cons.mp hm with rfl | hm
    · exact hy
    · exact hys m hm

end

/-- Induction with the hypothesis for every item and every member. -/
@[elab_as_elim, induction_eliminator]
theorem induct (null : P .null) (bool : ∀ b, P (.bool b)) (number : ∀ n, P (.number n))
    (string : ∀ s, P (.string s)) (list : ∀ items, (∀ x ∈ items, P x) → P (.list items))
    (tuple : ∀ items, (∀ x ∈ items, P x) → P (.tuple items))
    (dict : ∀ members, (∀ m ∈ members, P m.2) → P (.dict members)) (v : PyData ν) : P v :=
  inductData null bool number string list tuple dict v

end Induction

/-! ## Section 2: To JSON and back -/

mutual

/-- The JSON value that a Python value is written as. -/
def jsonable : PyData ν → Json ν
  | .null => .null
  | .bool b => .bool b
  | .number n => .number n
  | .string s => .string s
  | .list items => .array (jsonableItems items)
  | .tuple items => .array (jsonableItems items)
  | .dict members => .object (jsonableMembers members)

/-- `jsonable` on the items of a sequence. -/
def jsonableItems : List (PyData ν) → List (Json ν)
  | [] => []
  | x :: xs => jsonable x :: jsonableItems xs

/-- `jsonable` on the members of a dictionary. -/
def jsonableMembers : List (String × PyData ν) → List (String × Json ν)
  | [] => []
  | (k, x) :: ms => (k, jsonable x) :: jsonableMembers ms

end

@[simp]
theorem jsonableItems_eq (xs : List (PyData ν)) : jsonableItems xs = xs.map jsonable := by
  induction xs with
  | nil => rfl
  | cons x xs ih => rw [jsonableItems, ih, List.map_cons]

@[simp]
theorem jsonableMembers_eq (ms : List (String × PyData ν)) :
    jsonableMembers ms = ms.map fun m => (m.1, jsonable m.2) := by
  induction ms with
  | nil => rfl
  | cons m ms ih => rw [jsonableMembers, ih, List.map_cons]

attribute [simp] jsonable

mutual

/-- The Python value of a JSON value with its arrays made tuples. -/
def tuplify : Json ν → PyData ν
  | .null => .null
  | .bool b => .bool b
  | .number n => .number n
  | .string s => .string s
  | .array items => .tuple (tuplifyItems items)
  | .object members => .dict (tuplifyMembers members)

/-- `tuplify` on the items of an array. -/
def tuplifyItems : List (Json ν) → List (PyData ν)
  | [] => []
  | x :: xs => tuplify x :: tuplifyItems xs

/-- `tuplify` on the members of an object. -/
def tuplifyMembers : List (String × Json ν) → List (String × PyData ν)
  | [] => []
  | (k, x) :: ms => (k, tuplify x) :: tuplifyMembers ms

end

@[simp]
theorem tuplifyItems_eq (xs : List (Json ν)) : tuplifyItems xs = xs.map tuplify := by
  induction xs with
  | nil => rfl
  | cons x xs ih => rw [tuplifyItems, ih, List.map_cons]

@[simp]
theorem tuplifyMembers_eq (ms : List (String × Json ν)) :
    tuplifyMembers ms = ms.map fun m => (m.1, tuplify m.2) := by
  induction ms with
  | nil => rfl
  | cons m ms ih => rw [tuplifyMembers, ih, List.map_cons]

attribute [simp] tuplify

/-! ## Section 3: Properties of all parts -/

mutual

/-- No list is in the value. -/
def listFree : PyData ν → Bool
  | .list _ => false
  | .tuple items => itemsListFree items
  | .dict members => membersListFree members
  | _ => true

/-- `listFree` on the items of a tuple. -/
def itemsListFree : List (PyData ν) → Bool
  | [] => true
  | x :: xs => listFree x && itemsListFree xs

/-- `listFree` on the members of a dictionary. -/
def membersListFree : List (String × PyData ν) → Bool
  | [] => true
  | (_, x) :: ms => listFree x && membersListFree ms

end

@[simp]
theorem itemsListFree_eq (xs : List (PyData ν)) : itemsListFree xs = xs.all listFree := by
  induction xs with
  | nil => rfl
  | cons x xs ih => rw [itemsListFree, ih, List.all_cons]

@[simp]
theorem membersListFree_eq (ms : List (String × PyData ν)) :
    membersListFree ms = ms.all fun m => listFree m.2 := by
  induction ms with
  | nil => rfl
  | cons m ms ih => rw [membersListFree, ih, List.all_cons]

attribute [simp] listFree

mutual

/-- The keys of every dictionary are distinct. Every Python dictionary is such. -/
def distinct : PyData ν → Bool
  | .list items => distinctItems items
  | .tuple items => distinctItems items
  | .dict members => decide (members.map Prod.fst).Nodup && distinctMembers members
  | _ => true

/-- `distinct` on the items of a sequence. -/
def distinctItems : List (PyData ν) → Bool
  | [] => true
  | x :: xs => distinct x && distinctItems xs

/-- `distinct` on the members of a dictionary. -/
def distinctMembers : List (String × PyData ν) → Bool
  | [] => true
  | (_, x) :: ms => distinct x && distinctMembers ms

end

@[simp]
theorem distinctItems_eq (xs : List (PyData ν)) : distinctItems xs = xs.all distinct := by
  induction xs with
  | nil => rfl
  | cons x xs ih => rw [distinctItems, ih, List.all_cons]

@[simp]
theorem distinctMembers_eq (ms : List (String × PyData ν)) :
    distinctMembers ms = ms.all fun m => distinct m.2 := by
  induction ms with
  | nil => rfl
  | cons m ms ih => rw [distinctMembers, ih, List.all_cons]

attribute [simp] distinct

/-- The JSON value of a Python value repeats no key. -/
theorem distinct_jsonable (v : PyData ν) : v.jsonable.distinct = v.distinct := by
  induction v with
  | null => rfl
  | bool b => rfl
  | number n => rfl
  | string s => rfl
  | list items ih =>
    simp only [jsonable, jsonableItems_eq, Json.distinct, Json.distinctItems_eq, List.all_map,
      distinct, distinctItems_eq]
    exact Json.all_congr_of_mem ih
  | tuple items ih =>
    simp only [jsonable, jsonableItems_eq, Json.distinct, Json.distinctItems_eq, List.all_map,
      distinct, distinctItems_eq]
    exact Json.all_congr_of_mem ih
  | dict members ih =>
    have hkeys : (members.map fun m => (m.1, jsonable m.2)).map Prod.fst = members.map Prod.fst := by
      rw [List.map_map]
      rfl
    simp only [jsonable, jsonableMembers_eq, Json.distinct, Json.distinctMembers_eq, List.all_map,
      distinct, distinctMembers_eq, hkeys]
    congr 1
    exact Json.all_congr_of_mem ih

/-! ## Section 4: Equality -/

section Equality

variable (worth : ν → ℚ)

/-- What a number is worth; `True` and `False` are numbers. -/
def numeric : PyData ν → Option ℚ
  | .bool b => some (if b then 1 else 0)
  | .number n => some (worth n)
  | _ => none

mutual

/-- `==` -/
def equal : PyData ν → PyData ν → Bool
  | .null, .null => true
  | .null, _ => false
  | .bool b, w => numeric worth w == some (if b then 1 else 0)
  | .number n, w => numeric worth w == some (worth n)
  | .string s, .string t => s == t
  | .string _, _ => false
  | .list xs, .list ys => equalItems xs ys
  | .list _, _ => false
  | .tuple xs, .tuple ys => equalItems xs ys
  | .tuple _, _ => false
  | .dict ms, .dict ns => ms.length == ns.length && equalMembers ms ns
  | .dict _, _ => false

/-- `==` of the items of two sequences. -/
def equalItems : List (PyData ν) → List (PyData ν) → Bool
  | [], ys => ys.isEmpty
  | x :: xs, y :: ys => equal x y && equalItems xs ys
  | _ :: _, [] => false

/-- Every key of a dictionary is a key of another one, with an equal value. -/
def equalMembers : List (String × PyData ν) → List (String × PyData ν) → Bool
  | [], _ => true
  | (k, x) :: ms, ns =>
    (match ns.lookup k with
      | some y => equal x y
      | none => false) && equalMembers ms ns

end

variable {worth}

theorem equalMembers_eq_all (ms ns : List (String × PyData ν)) :
    equalMembers worth ms ns = ms.all fun m =>
      match ns.lookup m.1 with
      | some y => equal worth m.2 y
      | none => false := by
  induction ms with
  | nil => rfl
  | cons m ms ih => rw [equalMembers, ih, List.all_cons]

/-- Items that are each the image of an item are equal to those when each is. -/
theorem equalItems_map (f : PyData ν → PyData ν) (xs : List (PyData ν)) :
    equalItems worth (xs.map f) xs = xs.all fun x => equal worth (f x) x := by
  induction xs with
  | nil => rfl
  | cons x xs ih => rw [List.map_cons, equalItems, ih, List.all_cons]

/-- A dictionary with distinct keys is compared with one of the same keys value by value. -/
theorem equalMembers_map (f : PyData ν → PyData ν) {ms : List (String × PyData ν)}
    (hnodup : (ms.map Prod.fst).Nodup) {ns : List (String × PyData ν)}
    (hperm : ns.Perm (ms.map fun m => (m.1, f m.2))) :
    equalMembers worth ns ms = ms.all fun m => equal worth (f m.2) m.2 := by
  rw [equalMembers_eq_all, hperm.all_eq, List.all_map]
  apply Json.all_congr_of_mem
  intro m hm
  have hlookup : ms.lookup m.1 = some m.2 := by
    have hpairs : ms.Pairwise fun m n => m.1 ≠ n.1 := List.pairwise_map.mp hnodup
    rw [List.lookup_eq_some_iff]
    obtain ⟨front, back, rfl⟩ := List.append_of_mem hm
    refine ⟨front, back, rfl, ?_⟩
    intro n hn
    exact bne_iff_ne.mpr ((List.pairwise_append.mp hpairs).2.2 n hn m List.mem_cons_self).symm
  simp only [Function.comp_apply, hlookup]

end Equality

/-! ## Section 5: What is read back -/

section Reload

variable {κ : Type} [LinearOrder κ] (key : String → κ)

/-- A value after it was written with its keys in order, read again, and its lists made tuples. -/
def reload (v : PyData ν) : PyData ν := tuplify (v.jsonable.sortKeys key)

variable {worth : ν → ℚ}

/-- The members of a dictionary that was read back, in the order of their keys. -/
theorem reload_dict (members : List (String × PyData ν)) :
    ∃ members', reload key (.dict members) = .dict members' ∧
      members'.Perm (members.map fun m => (m.1, reload key m.2)) := by
  have hreload : reload key (.dict members) = .dict (tuplifyMembers
      (Json.sortMembers key (Json.sortValues key (jsonableMembers members)))) := by
    simp only [reload, jsonable, Json.sortKeys, tuplify]
  refine ⟨_, hreload, ?_⟩
  rw [tuplifyMembers_eq]
  apply ((List.perm_insertionSort _ _).map _).trans
  simp only [Json.sortValues_eq, jsonableMembers_eq, List.map_map]
  exact List.Perm.refl _

/-- **The way through JSON.** A value that is read back as tuples equals the value exactly when no
list is in it. -/
theorem equal_reload {v : PyData ν} (hv : v.distinct = true) :
    equal worth (reload key v) v = v.listFree := by
  induction v with
  | null => rfl
  | bool b => cases b <;> simp [reload, equal, numeric]
  | number n => simp [reload, equal, numeric]
  | string s => simp [reload, equal]
  | list items ih => simp [reload, equal]
  | tuple items ih =>
    simp only [distinct, distinctItems_eq, List.all_eq_true] at hv
    have hitems : reload key (.tuple items) = .tuple (items.map (reload key)) := by
      simp only [reload, jsonable, Json.sortKeys, tuplify, Json.sortItems_eq, jsonableItems_eq,
        tuplifyItems_eq, List.map_map]
      rfl
    rw [hitems, equal, equalItems_map, listFree, itemsListFree_eq]
    exact Json.all_congr_of_mem fun x hx => ih x hx (hv x hx)
  | dict members ih =>
    simp only [distinct, distinctMembers_eq, Bool.and_eq_true, decide_eq_true_eq,
      List.all_eq_true] at hv
    -- the keys are the same ones in another order, and each value is compared with its own
    obtain ⟨members', hreload, hperm⟩ := reload_dict key members
    have hlength : members'.length = members.length := by
      rw [hperm.length_eq, List.length_map]
    rw [hreload, equal, hlength, beq_self_eq_true, Bool.true_and,
      equalMembers_map (reload key) hv.1 hperm, listFree, membersListFree_eq]
    exact Json.all_congr_of_mem fun m hm => ih m hm (hv.2 m hm)

end Reload

end PyData

end Library
