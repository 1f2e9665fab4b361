import Mathlib.Logic.Relation
import Mathlib.Tactic.Common

/-!
# Sealed Tables

A table whose rows carry a tag over their message. The holder of a key writes rows with the right
tag; everyone else may put any table in the place of the present one, but has no tag for a text that
was never sealed.

`Ledger.Run.sealed` says that a row with the right tag was written by the holder of the key, whatever
else was done to the table in between.
-/

namespace Library

/-- How rows are sealed: the message of a row, the text of a message, the tag of a text, and the tag
that a row carries. -/
structure Sealing (ρ μ θ τ : Type) where
  message : ρ → μ
  text : μ → θ
  mac : θ → τ
  tag : ρ → τ

variable {ρ μ θ τ : Type}

/-- The row carries the tag of its message. -/
def Sealing.Genuine (S : Sealing ρ μ θ τ) (row : ρ) : Prop :=
  S.tag row = S.mac (S.text (S.message row))

/-- A table, and what was sealed for it so far. -/
structure Ledger (ρ μ : Type) where
  rows : List ρ
  written : List μ

namespace Ledger

/-- Every genuine row has a text that was sealed. -/
def Authentic (S : Sealing ρ μ θ τ) (L : Ledger ρ μ) : Prop :=
  ∀ row ∈ L.rows, S.Genuine row → ∃ m ∈ L.written, S.text m = S.text (S.message row)

/-- What can happen to a table. -/
inductive Step (S : Sealing ρ μ θ τ) : Ledger ρ μ → Ledger ρ μ → Prop where
  /-- The holder of the key writes a row. -/
  | write (L : Ledger ρ μ) (row : ρ) :
      Step S L ⟨L.rows ++ [row], L.written ++ [S.message row]⟩
  /-- Someone replaces the table, without a tag for a text that was not sealed. -/
  | tamper (L : Ledger ρ μ) (rows : List ρ)
      (unforged : ∀ row ∈ rows, S.Genuine row → ∃ m ∈ L.written, S.text m = S.text (S.message row)) :
      Step S L ⟨rows, L.written⟩

/-- Any number of steps. -/
abbrev Run (S : Sealing ρ μ θ τ) : Ledger ρ μ → Ledger ρ μ → Prop := Relation.ReflTransGen (Step S)

variable {S : Sealing ρ μ θ τ} {L L' : Ledger ρ μ}

/-- **Step**: tables stay authentic. -/
theorem Authentic.step (h : L.Authentic S) (hstep : Step S L L') : L'.Authentic S := by
  cases hstep with
  | write row =>
    intro other hother hgenuine
    rcases List.mem_append.mp hother with hold | hnew
    · obtain ⟨m, hm, htext⟩ := h other hold hgenuine
      exact ⟨m, List.mem_append_left _ hm, htext⟩
    · obtain rfl := List.mem_singleton.mp hnew
      exact ⟨S.message other, List.mem_append_right _ List.mem_cons_self, rfl⟩
  | tamper rows unforged => exact unforged

/-- **Run**: tables stay authentic, and what was sealed stays sealed. -/
theorem Authentic.run (h : L.Authentic S) (hrun : Run S L L') :
    L'.Authentic S ∧ L.written <+: L'.written := by
  induction hrun with
  | refl => exact ⟨h, List.prefix_rfl⟩
  | tail _ hstep ih =>
    refine ⟨ih.1.step hstep, ?_⟩
    cases hstep with
    | write row => exact ih.2.trans (List.prefix_append _ _)
    | tamper rows unforged => exact ih.2

/-- A genuine row was written by the holder of the key, when messages are told apart by their
texts. -/
theorem Authentic.mem_written (h : L.Authentic S) (htext : Function.Injective S.text) {row : ρ}
    (hrow : row ∈ L.rows) (hgenuine : S.Genuine row) : S.message row ∈ L.written := by
  obtain ⟨m, hm, heq⟩ := h row hrow hgenuine
  rwa [htext heq] at hm

end Ledger

end Library
