import ContractCapsule.Library.Wildcard
import ContractCapsule.Resolve.Scope

/-!
# What Scope Patterns Mean

The rows of `resolve/scope.py` against the declarative meaning of a pattern. The entries of a row
belong to the prefixes of the values, and an entry says whether the symbols read so far match the
prefix it belongs to. That is kept by each new row, for segments over characters and for paths over
segments.
-/

namespace ContractCapsule.Resolve

open Library Models

/-! ## Section 1: The meaning of a pattern -/

/-- A star inside a segment stands for any run of its characters, and every other character for
itself. -/
def SegmentMatches (pattern value : List Char) : Prop :=
  Matches (· == '*') (fun character literal => character = literal) pattern value

/-- The segment `**` stands for any number of whole segments, and every other one for a segment
that it matches. -/
def PathMatches (pattern path : List (List Char)) : Prop :=
  Matches (· == ['*', '*']) SegmentMatches pattern path

/-! ## Section 2: Rows -/

section Rows

variable {σ α : Type} {star : σ → Bool} {hit : σ → α → Bool}

/-- The lists that begin with `front` and go on with a prefix of `values`, from the shortest. -/
def prefixesFrom (front : List α) : List α → List (List α)
  | [] => [front]
  | v :: values => front :: prefixesFrom (front ++ [v]) values

/-- The entries of a row say which of the prefixes satisfy the condition. -/
def RowSays (P : List α → Prop) (row : List Bool) (front values : List α) : Prop :=
  List.Forall₂ (fun entry values => entry = true ↔ P values) row (prefixesFrom front values)

theorem rowSays_cons {P : List α → Prop} {row : List Bool} {front values : List α}
    (h : RowSays P row front values) :
    ∃ entry rest, row = entry :: rest ∧ (entry = true ↔ P front) := by
  cases values <;>
  · obtain ⟨entry, rest, hentry, _, rfl⟩ := List.forall₂_cons_right_iff.mp h
    exact ⟨entry, rest, rfl, hentry⟩

/-- The last entry belongs to all of the values. -/
theorem getLastD_rowSays {P : List α → Prop} {row : List Bool} {front values : List α}
    (h : RowSays P row front values) : row.getLastD false = true ↔ P (front ++ values) := by
  induction values generalizing row front with
  | nil =>
    obtain ⟨entry, rest, hentry, hrest, rfl⟩ := List.forall₂_cons_right_iff.mp h
    rw [List.forall₂_nil_right_iff.mp hrest, List.append_nil]
    exact hentry
  | cons v values ih =>
    obtain ⟨entry, rest, _, hrest, rfl⟩ := List.forall₂_cons_right_iff.mp h
    obtain ⟨entry', rest', rfl, _⟩ := rowSays_cons hrest
    have hlast := ih hrest
    rw [List.append_assoc, List.singleton_append] at hlast
    exact hlast

/-- The first row: no symbol was read, so only the empty prefix matches. -/
theorem rowSays_start (values front : List α) (hfront : front ≠ []) :
    RowSays (fun values => values = []) (List.replicate (values.length + 1) false) front values := by
  induction values generalizing front with
  | nil => exact List.Forall₂.cons (by simpa using hfront) List.Forall₂.nil
  | cons v values ih =>
    exact List.Forall₂.cons (by simpa using hfront) (ih (front ++ [v]) (by simp))

/-- The entries of the next row, from the entry on its left and the row above. -/
theorem rowSays_entries {symbols : List σ} {s : σ} {left diagonal : Bool} {above : List Bool}
    {front values : List α}
    (habove : RowSays (Matches star (fun s v => hit s v = true) symbols) (diagonal :: above) front
      values)
    (hleft : left = true ↔ Matches star (fun s v => hit s v = true) (symbols ++ [s]) front) :
    RowSays (Matches star (fun s v => hit s v = true) (symbols ++ [s]))
      (left :: rowEntries (star s) (hit s) left (diagonal :: above) values) front values := by
  induction values generalizing left diagonal above front with
  | nil =>
    have hnone : rowEntries (star s) (hit s) left (diagonal :: above) [] = [] := by
      cases above <;> rfl
    rw [hnone]
    exact List.Forall₂.cons hleft List.Forall₂.nil
  | cons v values ih =>
    obtain ⟨_, _, hdiagonal, hrest, heq⟩ := List.forall₂_cons_right_iff.mp habove
    rw [List.cons.injEq] at heq
    obtain ⟨rfl, rfl⟩ := heq
    obtain ⟨entry, above', rfl, hentry⟩ := rowSays_cons hrest
    -- the entry of `front ++ [v]`, from its left, above and diagonal neighbours
    have hnew : (if star s then entry || left else diagonal && hit s v) = true ↔
        Matches star (fun s v => hit s v = true) (symbols ++ [s]) (front ++ [v]) := by
      by_cases hstar : star s = true
      · rw [if_pos hstar, Bool.or_eq_true, matches_concat_wild hstar, hentry, hleft]
      · have hplain : star s = false := by simpa using hstar
        rw [if_neg hstar, Bool.and_eq_true, matches_concat_plain hplain, hdiagonal]
    exact List.Forall₂.cons hleft (ih hrest hnew)

/-- Each symbol makes the next row. -/
theorem rowSays_nextRow {symbols : List σ} {s : σ} {row : List Bool} {values : List α}
    (h : RowSays (Matches star (fun s v => hit s v = true) symbols) row [] values) :
    RowSays (Matches star (fun s v => hit s v = true) (symbols ++ [s]))
      (nextRow (star s) (hit s) row values) [] values := by
  obtain ⟨entry, rest, rfl, hentry⟩ := rowSays_cons h
  apply rowSays_entries h
  rw [matches_concat_nil, Bool.and_eq_true, ← hentry]
  rfl

/-- All symbols make the last row. -/
theorem rowSays_foldl {done symbols : List σ} {row : List Bool} {values : List α}
    (h : RowSays (Matches star (fun s v => hit s v = true) done) row [] values) :
    RowSays (Matches star (fun s v => hit s v = true) (done ++ symbols))
      (symbols.foldl (fun previous s => nextRow (star s) (hit s) previous values) row) []
      values := by
  induction symbols generalizing done row with
  | nil => rwa [List.append_nil]
  | cons s symbols ih =>
    have hnext := ih (rowSays_nextRow (s := s) h)
    rwa [List.append_assoc, List.singleton_append] at hnext

/-- The table decides whether the symbols match the values. -/
theorem matchRows_iff {symbols : List σ} {values : List α} :
    matchRows star hit symbols values = true ↔
      Matches star (fun s v => hit s v = true) symbols values := by
  have hstart : RowSays (Matches star (fun s v => hit s v = true) [])
      (true :: List.replicate values.length false) [] values := by
    cases values with
    | nil => exact List.Forall₂.cons (by simp [matches_nil_iff]) List.Forall₂.nil
    | cons v values =>
      apply List.Forall₂.cons (by simp [matches_nil_iff])
      have hrest := rowSays_start values [v] (by simp)
      exact hrest.imp fun _ _ hentry => hentry.trans matches_nil_iff.symm
  exact getLastD_rowSays (rowSays_foldl hstart)

end Rows

/-! ## Section 3: Paths -/

/-- The inner table decides whether a segment matches. -/
theorem segmentMatches_iff {pattern value : List Char} :
    segmentMatches pattern value = true ↔ SegmentMatches pattern value := by
  rw [segmentMatches, matchRows_iff]
  simp only [beq_iff_eq]
  rfl

theorem segmentsMatch_iff {pattern path : List (List Char)} :
    segmentsMatch pattern path = true ↔ PathMatches pattern path := by
  rw [segmentsMatch, matchRows_iff]
  simp only [segmentMatches_iff]
  rfl

/-- **Scope globs mean what they say.** For every pattern and every path that the splitter accepts,
`path_matches` answers, and it answers true exactly when the segments of the path match those of
the pattern. -/
theorem pathMatches_means {pattern path : String} {patternParts pathParts : List (List Char)}
    (hpattern : segments pattern true = .ok patternParts)
    (hpath : segments path false = .ok pathParts) :
    ∃ answer, pathMatches pattern path = .ok answer ∧
      (answer = true ↔ PathMatches patternParts pathParts) := by
  refine ⟨segmentsMatch patternParts pathParts, ?_, segmentsMatch_iff⟩
  rw [pathMatches, hpattern, hpath]
  rfl

theorem pathMatches_means_sample :
    ∃ answer, pathMatches "src/**/api-*.py" "src/a/b/api-v1.py" = .ok answer ∧
      (answer = true ↔ PathMatches ["src".toList, "**".toList, "api-*.py".toList]
        ["src".toList, "a".toList, "b".toList, "api-v1.py".toList]) :=
  pathMatches_means (by decide +kernel) (by decide +kernel)

end ContractCapsule.Resolve
