import Mathlib.Algebra.GroupWithZero.Nat
import Mathlib.Data.List.Chain
import Mathlib.Data.List.Infix
import Mathlib.Tactic.Common

/-!
# Passages of a Text

A text is cut into parts where a pattern matches, and parts are joined by a separator. This module
relates the two, and says when a text is a passage of another one, that is, an infix of it.

`length_intercalate_splitMatches` says that joining the parts by a separator that is no longer than
any match makes no longer text. `not_infix_of_block` keeps a text out of another one: a block of
characters that the text neither begins nor ends with is too long to be covered.
-/

namespace Library

variable {α : Type}

/-! ## Section 1: Joining -/

/-- Every part is a passage of what the parts are joined to. -/
theorem infix_intercalate {separator part : List α} {parts : List (List α)} (h : part ∈ parts) :
    part <:+: separator.intercalate parts := by
  induction parts with
  | nil => cases h
  | cons first later ih =>
    cases later with
    | nil =>
      rw [List.mem_singleton.mp h, List.intercalate_singleton]
    | cons second later =>
      rw [List.intercalate_cons_cons, List.append_assoc]
      rcases List.mem_cons.mp h with hfirst | hlater
      · rw [hfirst]
        exact (List.prefix_append _ _).isInfix
      · apply (ih hlater).trans
        exact ((List.suffix_append _ _).trans (List.suffix_append _ _)).isInfix

/-- The characters of a joined text. -/
theorem mem_intercalate {separator : List α} {parts : List (List α)} {c : α}
    (h : c ∈ separator.intercalate parts) : c ∈ separator ∨ ∃ part ∈ parts, c ∈ part := by
  induction parts with
  | nil => cases h
  | cons first later ih =>
    cases later with
    | nil =>
      rw [List.intercalate_singleton] at h
      exact Or.inr ⟨first, List.mem_cons_self, h⟩
    | cons second later =>
      rw [List.intercalate_cons_cons, List.mem_append, List.mem_append] at h
      rcases h with (hfirst | hseparator) | hlater
      · exact Or.inr ⟨first, List.mem_cons_self, hfirst⟩
      · exact Or.inl hseparator
      · rcases ih hlater with hseparator | ⟨part, hpart, hc⟩
        · exact Or.inl hseparator
        · exact Or.inr ⟨part, List.mem_cons_of_mem _ hpart, hc⟩

/-- The room of parts: each of them and one separator. -/
def room (width : ℕ) (parts : List (List α)) : ℕ := (parts.map fun part => part.length + width).sum

/-- Joined parts leave the room of one separator. -/
theorem length_intercalate {separator : List α} {parts : List (List α)} (h : parts ≠ []) :
    (separator.intercalate parts).length + separator.length = room separator.length parts := by
  induction parts with
  | nil => exact absurd rfl h
  | cons first later ih =>
    cases later with
    | nil => simp [room]
    | cons second later =>
      have hlater := ih (List.cons_ne_nil _ _)
      rw [room, List.map_cons, List.sum_cons, ← room, ← hlater, List.intercalate_cons_cons,
        List.length_append, List.length_append]
      omega

/-- Shorter parts, and fewer of them, have less room. -/
theorem room_filter_map_le (width : ℕ) {f : List α → List α}
    (hf : ∀ part, (f part).length ≤ part.length) (p : List α → Bool) (parts : List (List α)) :
    room width ((parts.map f).filter p) ≤ room width parts := by
  induction parts with
  | nil => exact Nat.le_refl _
  | cons part parts ih =>
    have hpart := hf part
    simp only [room] at ih
    rw [List.map_cons, List.filter_cons]
    split
    · simp only [room, List.map_cons, List.sum_cons]
      omega
    · simp only [room, List.map_cons, List.sum_cons]
      omega

/-! ## Section 2: Splitting -/

/-- `re.split`, of a text with at most so many characters; `next` gives what is behind a match at
the start of a text. -/
def splitMatches (next : List α → Option (List α)) : ℕ → List α → List (List α)
  | 0, text => [text]
  | _ + 1, [] => [[]]
  | fuel + 1, c :: rest =>
    match next (c :: rest) with
    | some behind => [] :: splitMatches next fuel behind
    | none => (splitMatches next fuel rest).modifyHead (c :: ·)

variable {next : List α → Option (List α)}

theorem splitMatches_ne_nil (fuel : ℕ) (text : List α) : splitMatches next fuel text ≠ [] := by
  induction fuel generalizing text with
  | zero => exact List.cons_ne_nil _ _
  | succ fuel ih =>
    cases text with
    | nil => exact List.cons_ne_nil _ _
    | cons c rest =>
      rw [splitMatches]
      split
      · exact List.cons_ne_nil _ _
      · obtain ⟨first, later, hparts⟩ := List.exists_cons_of_ne_nil (ih rest)
        rw [hparts]
        exact List.cons_ne_nil _ _

/-- A text in which nothing matches is one part. -/
theorem splitMatches_of_none {fuel : ℕ} {text : List α}
    (h : ∀ suffix, suffix <:+ text → next suffix = none) :
    splitMatches next fuel text = [text] := by
  induction fuel generalizing text with
  | zero => rfl
  | succ fuel ih =>
    cases text with
    | nil => rfl
    | cons c rest =>
      rw [splitMatches, h _ List.suffix_rfl, ih fun suffix hsuffix =>
        h suffix (hsuffix.trans (List.suffix_cons c rest))]
      rfl

/-- Where something matches, there are two parts at least. -/
theorem two_le_length_splitMatches {fuel : ℕ} {text suffix : List α} (hfuel : text.length ≤ fuel)
    (hsuffix : suffix <:+ text) (hne : suffix ≠ []) (h : (next suffix).isSome = true) :
    2 ≤ (splitMatches next fuel text).length := by
  induction fuel generalizing text with
  | zero =>
    rw [List.length_eq_zero_iff.mp (Nat.le_zero.mp hfuel), List.suffix_nil] at hsuffix
    exact absurd hsuffix hne
  | succ fuel ih =>
    cases text with
    | nil => exact absurd (List.suffix_nil.mp hsuffix) hne
    | cons c rest =>
      rw [splitMatches]
      cases hnext : next (c :: rest) with
      -- a match here is a first cut
      | some behind =>
        have hpos := List.length_pos_iff.mpr (@splitMatches_ne_nil _ next fuel behind)
        rw [List.length_cons]
        omega
      -- no match here: the suffix with the match is further behind
      | none =>
        rw [List.length_modifyHead]
        rcases List.suffix_cons_iff.mp hsuffix with rfl | hrest
        · rw [hnext] at h
          cases h
        · exact ih (by simpa using hfuel) hrest

/-- The characters of the parts are characters of the text. -/
theorem mem_of_mem_splitMatches (hnext : ∀ {t behind}, next t = some behind → behind <:+ t)
    {fuel : ℕ} {text part : List α} (hpart : part ∈ splitMatches next fuel text) {c : α}
    (hc : c ∈ part) : c ∈ text := by
  induction fuel generalizing text part with
  | zero =>
    rw [List.mem_singleton.mp hpart] at hc
    exact hc
  | succ fuel ih =>
    cases text with
    | nil =>
      rw [List.mem_singleton.mp hpart] at hc
      exact hc
    | cons d rest =>
      rw [splitMatches] at hpart
      cases hmatch : next (d :: rest) with
      -- a match ends a part, and the next part begins behind it
      | some behind =>
        rw [hmatch] at hpart
        rcases List.mem_cons.mp hpart with hempty | hlater
        · rw [hempty] at hc
          cases hc
        · exact (hnext hmatch).mem (ih hlater hc)
      -- without a match the character goes in front of the first part of the rest
      | none =>
        rw [hmatch] at hpart
        obtain ⟨first, later, hparts⟩ :=
          List.exists_cons_of_ne_nil (@splitMatches_ne_nil _ next fuel rest)
        simp only [hparts, List.modifyHead_cons] at hpart
        rcases List.mem_cons.mp hpart with hfirst | hlater
        · rw [hfirst] at hc
          rcases List.mem_cons.mp hc with hhead | hc
          · rw [hhead]
            exact List.mem_cons_self
          · exact List.mem_cons_of_mem _ (ih (by rw [hparts]; exact List.mem_cons_self) hc)
        · exact List.mem_cons_of_mem _ (ih (by rw [hparts]; exact List.mem_cons_of_mem _ hlater) hc)

/-- Matches of some width at least leave the parts their room. -/
theorem room_splitMatches_le {width : ℕ}
    (hnext : ∀ {t behind}, next t = some behind → behind.length + width ≤ t.length) (fuel : ℕ)
    (text : List α) : room width (splitMatches next fuel text) ≤ text.length + width := by
  induction fuel generalizing text with
  | zero => simp [splitMatches, room]
  | succ fuel ih =>
    cases text with
    | nil => simp [splitMatches, room]
    | cons c rest =>
      rw [splitMatches]
      cases hmatch : next (c :: rest) with
      -- a match takes at least its width
      | some behind =>
        have hbehind := ih behind
        have hwidth := hnext hmatch
        simp only [room, List.map_cons, List.sum_cons, List.length_nil] at hbehind ⊢
        omega
      -- without one the character joins the first part
      | none =>
        have hrest := ih rest
        obtain ⟨first, later, hparts⟩ :=
          List.exists_cons_of_ne_nil (@splitMatches_ne_nil _ next fuel rest)
        simp only [hparts, List.modifyHead_cons, room, List.map_cons, List.sum_cons,
          List.length_cons] at hrest ⊢
        omega

/-- The first part begins with the first character, unless a match does. -/
theorem head_splitMatches {fuel : ℕ} {c : α} {rest : List α} (h : next (c :: rest) = none) :
    ∃ first later, splitMatches next fuel (c :: rest) = (c :: first) :: later := by
  cases fuel with
  | zero => exact ⟨rest, [], rfl⟩
  | succ fuel =>
    obtain ⟨first, later, hparts⟩ :=
      List.exists_cons_of_ne_nil (@splitMatches_ne_nil _ next fuel rest)
    exact ⟨first, later, by rw [splitMatches, h, hparts]; rfl⟩

/-- The last part has the last character, unless a match ends with it. -/
theorem getLast_splitMatches {c : α}
    (hnext : ∀ {t behind}, next t = some behind → t.getLast? = some c → behind.getLast? = some c)
    {fuel : ℕ} {text : List α} (h : text.getLast? = some c) :
    ∃ last ∈ (splitMatches next fuel text).getLast?, c ∈ last := by
  induction fuel generalizing text with
  | zero => exact ⟨text, rfl, List.mem_of_getLast? h⟩
  | succ fuel ih =>
    cases text with
    | nil => cases h
    | cons d rest =>
      rw [splitMatches]
      cases hmatch : next (d :: rest) with
      | some behind =>
        obtain ⟨last, hlast, hc⟩ := ih (hnext hmatch h)
        refine ⟨last, ?_, hc⟩
        rw [Option.mem_def] at hlast ⊢
        rw [List.getLast?_cons, hlast]
        rfl
      | none =>
        obtain ⟨first, later, hparts⟩ :=
          List.exists_cons_of_ne_nil (@splitMatches_ne_nil _ next fuel rest)
        rw [hparts]
        change ∃ last ∈ ((d :: first) :: later).getLast?, c ∈ last
        cases hrest : rest with
        | nil =>
          -- the character is the last one
          rw [hrest, List.getLast?_singleton, Option.some.injEq] at h
          rw [hrest] at hparts
          have hnil : later = [] := by
            cases fuel with
            | zero => exact (List.cons.inj hparts).2.symm
            | succ fuel => exact (List.cons.inj hparts).2.symm
          rw [hnil, h]
          exact ⟨_, rfl, List.mem_cons_self⟩
        | cons e tail =>
          have htail : rest.getLast? = some c := by
            rw [hrest] at h ⊢
            rw [← h, List.getLast?_cons_cons]
          obtain ⟨last, hlast, hc⟩ := ih htail
          rw [hparts] at hlast
          cases later with
          | nil =>
            rw [Option.mem_def, List.getLast?_singleton, Option.some.injEq] at hlast
            exact ⟨d :: first, rfl, List.mem_cons_of_mem _ (by rw [hlast]; exact hc)⟩
          | cons second later =>
            rw [List.getLast?_cons_cons] at hlast ⊢
            exact ⟨last, hlast, hc⟩

/-! ## Section 3: What is no passage -/

/-- A block as long as the text, of a character that the text neither begins nor ends with, keeps
the text from being a passage, if there is no room for it on either side. -/
theorem not_infix_of_block {text left right : List α} {x : α} {n : ℕ} (hlong : text.length ≤ n)
    (hhead : text.head? ≠ some x) (hlast : text.getLast? ≠ some x)
    (hleft : left.length < text.length) (hright : right.length < text.length) :
    ¬ text <:+: left ++ List.replicate n x ++ right := by
  intro hinfix
  obtain ⟨front, back, hsplit⟩ := hinfix
  have hlength := congrArg List.length hsplit
  simp only [List.length_append, List.length_replicate] at hlength
  -- what stands where the block is
  have hblock : ∀ k, left.length ≤ k → k < left.length + n →
      (left ++ List.replicate n x ++ right)[k]? = some x := by
    intro k hlow hhigh
    rw [List.append_assoc, List.getElem?_append_right hlow,
      List.getElem?_append_left (by rw [List.length_replicate]; omega),
      List.getElem?_replicate, if_pos (by omega)]
  -- and where the text is
  have htext : ∀ k, k < text.length →
      (left ++ List.replicate n x ++ right)[front.length + k]? = text[k]? := by
    intro k hk
    rw [← hsplit, List.append_assoc, List.getElem?_append_right (by omega),
      List.getElem?_append_left (by omega), Nat.add_sub_cancel_left]
  by_cases hstart : left.length ≤ front.length
  · -- the text begins in the block
    apply hhead
    rw [List.head?_eq_getElem?, ← htext 0 (by omega)]
    exact hblock _ (by omega) (by omega)
  · -- the text ends in the block
    apply hlast
    rw [List.getLast?_eq_getElem?, ← htext (text.length - 1) (by omega)]
    exact hblock _ (by omega) (by omega)

end Library
