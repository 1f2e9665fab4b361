import Mathlib.Data.List.DropRight
import Mathlib.Tactic.Common

/-!
# Backtracking Matchers

A regular expression with quantifiers is searched for by backtracking: a greedy quantifier tries to
take one more character first, a lazy one tries to go on first, and the first way that succeeds
fixes what a group holds. The matchers of this module do that for one class of characters, with
the rest of the expression given as what is tried next.

`greedyStar_of_isSome` and `greedyStar_of_refuses` say when a greedy quantifier takes all that it
can, and `lazyPlus_eq_some` what a lazy group holds.
-/

namespace Library

variable {α β : Type} (p : α → Bool)

/-- `p*`, greedy, of at most so many characters. -/
def greedyStar (next : List α → Option β) : ℕ → List α → Option β
  | 0, t => next t
  | _ + 1, [] => next []
  | bound + 1, c :: rest =>
    if p c then (greedyStar next bound rest).or (next (c :: rest)) else next (c :: rest)

/-- `p+`, greedy, of at most one more character than the bound. -/
def greedyPlus (next : List α → Option β) (bound : ℕ) : List α → Option β
  | [] => none
  | c :: rest => if p c then greedyStar p next bound rest else none

/-- A group of `p+?`, lazy, in front of what has to match the rest. -/
def lazyPlus (closes : List α → Bool) : List α → Option (List α)
  | [] => none
  | c :: rest =>
    if p c then
      if closes rest then some [c] else (lazyPlus closes rest).map (c :: ·)
    else none

variable {p} {next : List α → Option β}

/-- What a greedy quantifier takes is of its class, and the rest matches behind it. -/
theorem greedyStar_eq_some {t : List α} {bound : ℕ} {b : β}
    (h : greedyStar p next bound t = some b) :
    ∃ taken rest, t = taken ++ rest ∧ (∀ c ∈ taken, p c = true) ∧ next rest = some b := by
  induction bound generalizing t with
  | zero => exact ⟨[], t, rfl, by simp, h⟩
  | succ bound ih =>
    cases t with
    | nil => exact ⟨[], [], rfl, by simp, h⟩
    | cons c rest =>
      rw [greedyStar] at h
      cases hc : p c with
      | false =>
        rw [hc, if_neg (by simp)] at h
        exact ⟨[], c :: rest, rfl, by simp, h⟩
      | true =>
        rw [hc, if_pos rfl, Option.or_eq_some_iff] at h
        -- one more was taken, or it was given back
        rcases h with hmore | ⟨_, hhere⟩
        · obtain ⟨taken, behind, hrest, hclass, hnext⟩ := ih hmore
          refine ⟨c :: taken, behind, by rw [hrest, List.cons_append], ?_, hnext⟩
          intro d hd
          rcases List.mem_cons.mp hd with hhead | htail
          · rw [hhead, hc]
          · exact hclass d htail
        · exact ⟨[], c :: rest, rfl, by simp, hhere⟩

/-- A greedy quantifier may take nothing. -/
theorem isSome_greedyStar {t : List α} (bound : ℕ) (h : (next t).isSome = true) :
    (greedyStar p next bound t).isSome = true := by
  cases bound with
  | zero => exact h
  | succ bound =>
    cases t with
    | nil => exact h
    | cons c rest =>
      rw [greedyStar]
      split
      · rw [Option.isSome_or, h, Bool.or_true]
      · exact h

/-- A greedy quantifier takes all the characters of its class if the rest matches behind them. -/
theorem greedyStar_of_isSome {t : List α} {bound : ℕ} (hbound : t.length ≤ bound)
    (h : (next (t.dropWhile p)).isSome = true) :
    greedyStar p next bound t = next (t.dropWhile p) := by
  induction t generalizing bound with
  | nil => cases bound <;> rfl
  | cons c rest ih =>
    obtain ⟨more, rfl⟩ : ∃ k, bound = k + 1 := ⟨bound - 1, by simp at hbound; omega⟩
    rw [greedyStar]
    cases hc : p c with
    | false => rw [List.dropWhile_cons_of_neg (by simp [hc]), if_neg (by simp)]
    | true =>
      rw [List.dropWhile_cons_of_pos hc] at h ⊢
      rw [if_pos rfl, ih (by simpa using hbound) h]
      exact Option.or_of_isSome h

/-- Where the rest refuses the characters of the class, a greedy quantifier takes all of them or
fails. -/
theorem greedyStar_of_refuses (hrefuses : ∀ c rest, p c = true → next (c :: rest) = none)
    (t : List α) (bound : ℕ) :
    greedyStar p next bound t =
      if (t.takeWhile p).length ≤ bound then next (t.dropWhile p) else none := by
  induction t generalizing bound with
  | nil => cases bound <;> rfl
  | cons c rest ih =>
    cases hc : p c with
    | false =>
      rw [List.takeWhile_cons_of_neg (by simp [hc]), List.dropWhile_cons_of_neg (by simp [hc]),
        List.length_nil, if_pos (Nat.zero_le _)]
      cases bound with
      | zero => rfl
      | succ bound => rw [greedyStar, if_neg (by simp [hc])]
    | true =>
      rw [List.takeWhile_cons_of_pos hc, List.dropWhile_cons_of_pos hc, List.length_cons]
      cases bound with
      | zero => rw [greedyStar, hrefuses c rest hc, if_neg (by omega)]
      | succ bound =>
        rw [greedyStar, if_pos hc, hrefuses c rest hc, Option.or_none, ih]
        simp only [Nat.add_le_add_iff_right]

/-- A lazy group holds the shortest nonempty text of its class behind which the rest matches. -/
theorem lazyPlus_eq_some {closes : List α → Bool} {group rest : List α} (hne : group ≠ [])
    (hclass : ∀ c ∈ group, p c = true) (hcloses : closes rest = true)
    (hshortest : ∀ short long, group = short ++ long → short ≠ [] → long ≠ [] →
      closes (long ++ rest) = false) :
    lazyPlus p closes (group ++ rest) = some group := by
  induction group with
  | nil => exact absurd rfl hne
  | cons c group ih =>
    rw [List.cons_append, lazyPlus, if_pos (hclass c List.mem_cons_self)]
    by_cases hnil : group = []
    · rw [hnil, List.nil_append, if_pos hcloses]
    · have hopen : closes (group ++ rest) = false :=
        hshortest [c] group rfl (List.cons_ne_nil _ _) hnil
      rw [if_neg (by simp [hopen]), ih hnil]
      · rfl
      · intro d hd
        exact hclass d (List.mem_cons_of_mem _ hd)
      · intro short long hsplit hshort hlong
        exact hshortest (c :: short) long (by rw [hsplit, List.cons_append])
          (List.cons_ne_nil _ _) hlong

/-- A lazy group is found where the rest may be empty. -/
theorem isSome_lazyPlus {closes : List α → Bool} {t : List α} (hne : t ≠ [])
    (hclass : ∀ c ∈ t, p c = true) (hcloses : closes [] = true) :
    (lazyPlus p closes t).isSome = true := by
  induction t with
  | nil => exact absurd rfl hne
  | cons c rest ih =>
    rw [lazyPlus, if_pos (hclass c List.mem_cons_self)]
    by_cases hnil : rest = []
    · rw [hnil, if_pos hcloses]
      rfl
    · split
      · rfl
      · rw [Option.isSome_map]
        exact ih hnil fun d hd => hclass d (List.mem_cons_of_mem _ hd)

/-- In front of `a*b*` at the end, a lazy group holds what is left when the `b`s and then the `a`s
are taken off the right. -/
theorem lazyPlus_trailing {a b : α → Bool} (hdisjoint : ∀ c, a c = true → b c = false)
    {t : List α} (hclass : ∀ c ∈ t, p c = true) (hne : (t.rdropWhile b).rdropWhile a ≠ []) :
    lazyPlus p (fun rest => (rest.dropWhile a).all b) t = some ((t.rdropWhile b).rdropWhile a) := by
  have hgroup := List.rdropWhile_prefix a (t.rdropWhile b)
  have hmiddle := List.rdropWhile_prefix b t
  generalize hfirst : (t.rdropWhile b).rdropWhile a = group at hne hgroup ⊢
  have hsplit : t.rdropWhile b = group ++ (t.rdropWhile b).rtakeWhile a := by
    rw [← hfirst]
    exact List.rdropWhile_append_rtakeWhile.symm
  have hsplit' : t = group ++ ((t.rdropWhile b).rtakeWhile a ++ t.rtakeWhile b) := by
    rw [← List.append_assoc, ← hsplit]
    exact List.rdropWhile_append_rtakeWhile.symm
  have hlast : a (group.getLast hne) = false := by
    subst hfirst
    simpa using List.rdropWhile_last_not a (t.rdropWhile b) hne
  have has : ∀ c ∈ (t.rdropWhile b).rtakeWhile a, a c = true := fun c => List.mem_rtakeWhile_imp
  have hbs : ∀ c ∈ t.rtakeWhile b, b c = true := fun c => List.mem_rtakeWhile_imp
  conv_lhs => rw [hsplit']
  apply lazyPlus_eq_some hne
  · intro c hc
    exact hclass c ((hgroup.trans hmiddle).mem hc)
  · rw [List.dropWhile_append_of_pos has, List.all_eq_true]
    intro c hc
    exact hbs c ((List.dropWhile_suffix a).mem hc)
  · intro short long hlong _ hnonempty
    -- the last character of the group is no `a`, so the rest would have to begin in front of it
    by_contra hcloses
    rw [Bool.not_eq_false, List.all_eq_true] at hcloses
    have hend : group.getLast hne = long.getLast hnonempty := by
      simp only [hlong, List.getLast_append_of_ne_nil _ hnonempty]
    rw [hend] at hlast
    have hrest : long.dropWhile a ≠ [] := by
      intro hnil
      have hall := List.dropWhile_eq_nil_iff.mp hnil _ (List.getLast_mem hnonempty)
      rw [hlast] at hall
      cases hall
    rw [List.dropWhile_append, if_neg (by simpa using hrest)] at hcloses
    have hmark : b (long.getLast hnonempty) = true := by
      apply hcloses
      apply List.mem_append_left
      rw [← (List.dropWhile_suffix a).getLast hrest]
      exact List.getLast_mem hrest
    have hnone : (t.rdropWhile b).rtakeWhile a = [] := by
      apply List.eq_nil_iff_forall_not_mem.mpr
      intro c hc
      have hb := hcloses c (List.mem_append_right _ (List.mem_append_left _ hc))
      rw [hdisjoint c (has c hc)] at hb
      cases hb
    rw [hnone, List.append_nil] at hsplit
    have hopen := List.rdropWhile_last_not b t (hsplit ▸ hne)
    apply hopen
    simp only [hsplit, hend, hmark]

end Library
