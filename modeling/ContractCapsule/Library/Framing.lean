import Mathlib.Algebra.BigOperators.Group.List.Lemmas
import Mathlib.Algebra.GroupWithZero.Nat
import Mathlib.Data.List.Forall2
import Mathlib.Data.List.Induction

/-!
# Framing

Texts that are put one after another and can be told apart again: by a character that ends them, by
a length that is written before them, or because what they start with says what they are. Nothing
is assumed of the text that follows.
-/

namespace Library

variable {α β χ : Type}

/-! ## Section 1: Where a text ends -/

/-- Two texts that end before the first delimiter are equal when what they start is. -/
theorem append_delimiter_inj {c : χ} {as bs rest rest' : List χ} (has : c ∉ as) (hbs : c ∉ bs)
    (h : as ++ c :: rest = bs ++ c :: rest') : as = bs ∧ rest = rest' := by
  induction as generalizing bs with
  | nil =>
    cases bs with
    | nil => exact ⟨rfl, (List.cons.inj h).2⟩
    | cons b bs => exact absurd (List.cons.inj h).1 fun heq => hbs (heq ▸ List.mem_cons_self)
  | cons a as ih =>
    cases bs with
    | nil => exact absurd (List.cons.inj h).1.symm fun heq => has (heq ▸ List.mem_cons_self)
    | cons b bs =>
      obtain ⟨rfl, htail⟩ := List.cons.inj h
      obtain ⟨rfl, hrest⟩ := ih (fun hc => has (List.mem_cons_of_mem _ hc))
        (fun hc => hbs (List.mem_cons_of_mem _ hc)) htail
      exact ⟨rfl, hrest⟩

/-- Two texts of one weight are equal when what they start is, if every character weighs. -/
theorem append_weight_inj {weight : χ → ℕ} (hpos : ∀ c, 0 < weight c) {as bs rest rest' : List χ}
    (hweight : (as.map weight).sum = (bs.map weight).sum) (h : as ++ rest = bs ++ rest') :
    as = bs ∧ rest = rest' := by
  induction as generalizing bs with
  | nil =>
    cases bs with
    | nil => exact ⟨rfl, h⟩
    | cons b bs =>
      have hb := hpos b
      simp only [List.map_nil, List.sum_nil, List.map_cons, List.sum_cons] at hweight
      omega
  | cons a as ih =>
    cases bs with
    | nil =>
      have ha := hpos a
      simp only [List.map_nil, List.sum_nil, List.map_cons, List.sum_cons] at hweight
      omega
    | cons b bs =>
      obtain ⟨rfl, htail⟩ := List.cons.inj h
      simp only [List.map_cons, List.sum_cons] at hweight
      obtain ⟨rfl, hrest⟩ := ih (by omega) htail
      exact ⟨rfl, hrest⟩

/-! ## Section 2: Texts that separate -/

/-- The texts of some sources show where they end and what they show of their sources. -/
def Separates (legal : α → Prop) (text : α → List χ) (view : α → β) : Prop :=
  ∀ a b, legal a → legal b → ∀ rest rest', text a ++ rest = text b ++ rest' →
    view a = view b ∧ rest = rest'

/-- A sequence of separating texts that are not empty shows what each of them shows. -/
theorem Separates.flatMap {legal : α → Prop} {text : α → List χ} {view : α → β}
    (h : Separates legal text view) (hne : ∀ a, text a ≠ []) {as bs : List α}
    (has : ∀ a ∈ as, legal a) (hbs : ∀ b ∈ bs, legal b)
    (heq : as.flatMap text = bs.flatMap text) : as.map view = bs.map view := by
  induction as generalizing bs with
  | nil =>
    cases bs with
    | nil => rfl
    | cons b bs => simp [hne] at heq
  | cons a as ih =>
    cases bs with
    | nil => simp [hne] at heq
    | cons b bs =>
      rw [List.forall_mem_cons] at has hbs
      rw [List.flatMap_cons, List.flatMap_cons] at heq
      obtain ⟨hview, hrest⟩ := h a b has.1 hbs.1 _ _ heq
      rw [List.map_cons, List.map_cons, hview, ih has.2 hbs.2 hrest]

/-- Texts that separate once their keys are known separate in a sequence whose keys are known. -/
theorem flatMap_inj_of_keys {κ : Type} {key : α → κ} {text : α → List χ} {view : α → β}
    (h : ∀ a b, key a = key b → ∀ rest rest', text a ++ rest = text b ++ rest' →
      view a = view b ∧ rest = rest')
    {as bs : List α} (hkeys : as.map key = bs.map key) {rest rest' : List χ}
    (heq : as.flatMap text ++ rest = bs.flatMap text ++ rest') :
    as.map view = bs.map view ∧ rest = rest' := by
  induction as generalizing bs with
  | nil =>
    cases bs with
    | nil => exact ⟨rfl, heq⟩
    | cons b bs => simp at hkeys
  | cons a as ih =>
    cases bs with
    | nil => simp at hkeys
    | cons b bs =>
      rw [List.map_cons, List.map_cons, List.cons.injEq] at hkeys
      rw [List.flatMap_cons, List.flatMap_cons, List.append_assoc, List.append_assoc] at heq
      obtain ⟨hview, htail⟩ := h a b hkeys.1 _ _ heq
      obtain ⟨hviews, hrest⟩ := ih hkeys.2 htail
      exact ⟨by rw [List.map_cons, List.map_cons, hview, hviews], hrest⟩

/-! ## Section 3: Lengths in front of a text -/

/-- A number in so many bytes, the most significant one first. -/
def bigEndian : ℕ → ℕ → List UInt8
  | 0, _ => []
  | width + 1, n => bigEndian width (n / 256) ++ [UInt8.ofNat (n % 256)]

/-- The number that bytes stand for. -/
def ofBigEndian (bytes : List UInt8) : ℕ := bytes.foldl (fun n b => n * 256 + b.toNat) 0

theorem length_bigEndian (width n : ℕ) : (bigEndian width n).length = width := by
  induction width generalizing n with
  | zero => rfl
  | succ width ih => rw [bigEndian, List.length_append, ih, List.length_singleton]

theorem ofBigEndian_append (bytes : List UInt8) (b : UInt8) :
    ofBigEndian (bytes ++ [b]) = ofBigEndian bytes * 256 + b.toNat := by
  rw [ofBigEndian, List.foldl_append]
  rfl

/-- A number that fits is read back. -/
theorem ofBigEndian_bigEndian {width n : ℕ} (h : n < 256 ^ width) :
    ofBigEndian (bigEndian width n) = n := by
  induction width generalizing n with
  | zero =>
    rw [pow_zero, Nat.lt_one_iff] at h
    rw [h]
    rfl
  | succ width ih =>
    have hhigh : n / 256 < 256 ^ width := by
      rw [Nat.div_lt_iff_lt_mul (by omega), ← pow_succ]
      exact h
    have hlow : (UInt8.ofNat (n % 256)).toNat = n % 256 := by
      rw [UInt8.toNat_ofNat']
      omega
    rw [bigEndian, ofBigEndian_append, ih hhigh, hlow, Nat.div_add_mod']

/-- Bytes are the number that they stand for, in as many bytes. -/
theorem bigEndian_ofBigEndian (bytes : List UInt8) :
    bigEndian bytes.length (ofBigEndian bytes) = bytes := by
  induction bytes using List.reverseRecOn with
  | nil => rfl
  | append_singleton bytes b ih =>
    have hb := b.toNat_lt
    have hhigh : (ofBigEndian bytes * 256 + b.toNat) / 256 = ofBigEndian bytes := by omega
    have hlow : (ofBigEndian bytes * 256 + b.toNat) % 256 = b.toNat := by omega
    rw [List.length_append, List.length_singleton, ofBigEndian_append, bigEndian, hhigh, ih, hlow,
      UInt8.ofNat_toNat]

/-- What so many bytes stand for fits in them. -/
theorem ofBigEndian_lt (bytes : List UInt8) : ofBigEndian bytes < 256 ^ bytes.length := by
  induction bytes using List.reverseRecOn with
  | nil => exact Nat.one_pos
  | append_singleton bytes b ih =>
    have hb := b.toNat_lt
    rw [List.length_append, List.length_singleton, ofBigEndian_append, pow_succ]
    omega

end Library
