import Mathlib.Tactic.Common

/-!
# Patterns with Wildcards

A pattern is a list of symbols. A wildcard stands for any run of values, also the empty one; every
other symbol stands for one value that it hits. The match is anchored at both ends.

The relation is read from left to right. Algorithms that build it up from the front need
`matches_concat`, which takes the last symbol off.
-/

namespace Library

variable {σ α : Type} {star : σ → Bool} {hit : σ → α → Prop}

/-! ## Section 1: The relation -/

/-- The values match the symbols. -/
inductive Matches (star : σ → Bool) (hit : σ → α → Prop) : List σ → List α → Prop where
  /-- Nothing matches nothing. -/
  | nil : Matches star hit [] []
  /-- A wildcard stands for a run of values. -/
  | wild {s : σ} {symbols : List σ} (run : List α) {values : List α} :
      star s = true → Matches star hit symbols values →
      Matches star hit (s :: symbols) (run ++ values)
  /-- Another symbol stands for one value. -/
  | plain {s : σ} {symbols : List σ} {v : α} {values : List α} :
      star s = false → hit s v → Matches star hit symbols values →
      Matches star hit (s :: symbols) (v :: values)

theorem matches_nil_iff {values : List α} : Matches star hit [] values ↔ values = [] := by
  constructor
  · intro h
    cases h
    rfl
  · rintro rfl
    exact Matches.nil

/-! ## Section 2: Concatenation -/

/-- Two patterns one after the other match two runs of values one after the other. -/
theorem Matches.append {symbols symbols' : List σ} {values values' : List α}
    (h : Matches star hit symbols values) (h' : Matches star hit symbols' values') :
    Matches star hit (symbols ++ symbols') (values ++ values') := by
  induction h with
  | nil => exact h'
  | wild run hstar _ ih =>
    rw [List.append_assoc]
    exact Matches.wild run hstar ih
  | plain hstar hhit _ ih => exact Matches.plain hstar hhit ih

theorem matches_append_iff {symbols symbols' : List σ} {values : List α} :
    Matches star hit (symbols ++ symbols') values ↔
      ∃ front back, values = front ++ back ∧ Matches star hit symbols front ∧
        Matches star hit symbols' back := by
  constructor
  · intro h
    induction symbols generalizing values with
    | nil => exact ⟨[], values, rfl, Matches.nil, h⟩
    | cons s symbols ih =>
      cases h with
      | wild run hstar hrest =>
        obtain ⟨front, back, rfl, hfront, hback⟩ := ih hrest
        exact ⟨run ++ front, back, (List.append_assoc ..).symm, Matches.wild run hstar hfront, hback⟩
      | plain hstar hhit hrest =>
        obtain ⟨front, back, rfl, hfront, hback⟩ := ih hrest
        exact ⟨_ :: front, back, rfl, Matches.plain hstar hhit hfront, hback⟩
  · rintro ⟨front, back, rfl, hfront, hback⟩
    exact hfront.append hback

/-- One wildcard matches everything. -/
theorem matches_wild_iff {s : σ} (hstar : star s = true) (values : List α) :
    Matches star hit [s] values := by
  rw [← List.append_nil values]
  exact Matches.wild values hstar Matches.nil

/-- One other symbol matches the one value that it hits. -/
theorem matches_plain_iff {s : σ} (hstar : star s = false) {values : List α} :
    Matches star hit [s] values ↔ ∃ v, values = [v] ∧ hit s v := by
  constructor
  · intro h
    cases h with
    | wild run hwild _ => exact absurd hwild (by simp [hstar])
    | plain _ hhit hrest =>
      cases hrest
      exact ⟨_, rfl, hhit⟩
  · rintro ⟨v, rfl, hhit⟩
    exact Matches.plain hstar hhit Matches.nil

/-- A trailing wildcard takes one more value, or none. -/
theorem matches_concat_wild {s : σ} (hstar : star s = true) {symbols : List σ} {values : List α}
    {v : α} :
    Matches star hit (symbols ++ [s]) (values ++ [v]) ↔
      Matches star hit symbols (values ++ [v]) ∨ Matches star hit (symbols ++ [s]) values := by
  constructor
  · intro h
    obtain ⟨front, back, hvalues, hfront, _⟩ := matches_append_iff.mp h
    rcases List.eq_nil_or_concat back with rfl | ⟨back', v', rfl⟩
    · -- the wildcard stands for nothing
      rw [List.append_nil] at hvalues
      exact Or.inl (hvalues ▸ hfront)
    · have hinit : values = front ++ back' := by
        rw [List.concat_eq_append, ← List.append_assoc] at hvalues
        exact (List.append_inj' hvalues rfl).1
      exact Or.inr (hinit ▸ hfront.append (matches_wild_iff hstar back'))
  · rintro (h | h)
    · have hnone : Matches star hit [s] [] := matches_wild_iff hstar []
      have happend := h.append hnone
      rwa [List.append_nil] at happend
    · obtain ⟨front, back, rfl, hfront, _⟩ := matches_append_iff.mp h
      rw [List.append_assoc]
      exact hfront.append (matches_wild_iff hstar _)

/-- A trailing symbol that is no wildcard takes the last value. -/
theorem matches_concat_plain {s : σ} (hstar : star s = false) {symbols : List σ} {values : List α}
    {v : α} :
    Matches star hit (symbols ++ [s]) (values ++ [v]) ↔ Matches star hit symbols values ∧ hit s v := by
  rw [matches_append_iff]
  constructor
  · rintro ⟨front, back, hvalues, hfront, hback⟩
    obtain ⟨v', rfl, hhit⟩ := (matches_plain_iff hstar).mp hback
    obtain ⟨rfl, hlast⟩ := List.append_inj' hvalues rfl
    cases hlast
    exact ⟨hfront, hhit⟩
  · rintro ⟨hfront, hhit⟩
    exact ⟨values, [v], rfl, hfront, (matches_plain_iff hstar).mpr ⟨v, rfl, hhit⟩⟩

/-- With one symbol more, nothing is matched only when the symbol is a wildcard. -/
theorem matches_concat_nil {s : σ} {symbols : List σ} :
    Matches star hit (symbols ++ [s]) ([] : List α) ↔
      Matches star hit symbols [] ∧ star s = true := by
  rw [matches_append_iff]
  constructor
  · rintro ⟨front, back, hvalues, hfront, hback⟩
    obtain ⟨rfl, rfl⟩ := List.append_eq_nil_iff.mp hvalues.symm
    refine ⟨hfront, ?_⟩
    by_contra hstar
    obtain ⟨v, hv, _⟩ := (matches_plain_iff (by simpa using hstar)).mp hback
    exact absurd hv (by simp)
  · rintro ⟨hfront, hstar⟩
    exact ⟨[], [], rfl, hfront, matches_wild_iff hstar []⟩

end Library
