import Mathlib.Data.Finset.Card
import Mathlib.Data.Finset.SDiff
import Mathlib.Logic.Relation
import Mathlib.Tactic.Common

/-!
# Closing a Set under Edges

A scan walks a list of edges once. An edge whose source is in the set adds its
target when the target is known, and reports it as missing when it is not; an
edge added early in a scan is used by the later ones. Scans are repeated until one
adds nothing.

`saturate_closed` says that the result is the least set that contains the seeds and
is closed under the edges between known elements, and `saturate_missing` that the
report is complete, once there is fuel for one scan more than there are known
elements.
-/

namespace Library

variable {ι : Type} [DecidableEq ι]

/-! ## Section 1: Scans -/

/-- What has been collected so far, and whether the current scan has added to it. -/
structure Scan (ι : Type) where
  closed : Finset ι
  missing : Finset ι
  changed : Bool

/-- Follow one edge. -/
def scanEdge (known : Finset ι) (s : Scan ι) (edge : ι × ι) : Scan ι :=
  if edge.1 ∉ s.closed then s
  else if edge.2 ∉ known then { s with missing := insert edge.2 s.missing }
  else if edge.2 ∉ s.closed then { s with closed := insert edge.2 s.closed, changed := true }
  else s

/-- Follow all edges once. -/
def scanEdges (known : Finset ι) (edges : List (ι × ι)) (closed missing : Finset ι) : Scan ι :=
  edges.foldl (scanEdge known) ⟨closed, missing, false⟩

/-- Scan until nothing changes, at most `fuel` times. -/
def saturate (known : Finset ι) (edges : List (ι × ι)) :
    ℕ → Finset ι → Finset ι → Finset ι × Finset ι
  | 0, closed, missing => (closed, missing)
  | fuel + 1, closed, missing =>
    let s := scanEdges known edges closed missing
    bif s.changed then saturate known edges fuel s.closed s.missing else (s.closed, s.missing)

/-- What the seeds demand through edges to known elements. -/
inductive Demanded (known : Finset ι) (edges : List (ι × ι)) (seeds : Finset ι) : ι → Prop
  | seed {i : ι} (h : i ∈ seeds) : Demanded known edges seeds i
  | edge {i j : ι} (hi : Demanded known edges seeds i) (he : (i, j) ∈ edges) (hj : j ∈ known) :
      Demanded known edges seeds j

omit [DecidableEq ι] in
/-- What is demanded is what the seeds reach along edges to known elements. -/
theorem demanded_iff_reached {known : Finset ι} {edges : List (ι × ι)} {seeds : Finset ι} {j : ι} :
    Demanded known edges seeds j ↔
      ∃ i ∈ seeds, Relation.ReflTransGen (fun a b => (a, b) ∈ edges ∧ b ∈ known) i j := by
  constructor
  · intro h
    induction h with
    | seed h => exact ⟨_, h, Relation.ReflTransGen.refl⟩
    | edge _ he hj ih =>
      obtain ⟨i, hi, hpath⟩ := ih
      exact ⟨i, hi, hpath.tail ⟨he, hj⟩⟩
  · rintro ⟨i, hi, hpath⟩
    induction hpath with
    | refl => exact .seed hi
    | tail _ hedge ih => exact .edge ih hedge.1 hedge.2

/-! ## Section 2: One scan -/

variable {known : Finset ι} {edges : List (ι × ι)} {seeds : Finset ι}

/-- Everything collected is demanded, and everything reported is an unknown target of an edge
from a demanded element. -/
structure Scan.Justified (known : Finset ι) (edges : List (ι × ι)) (seeds : Finset ι)
    (s : Scan ι) : Prop where
  closed : ∀ i ∈ s.closed, Demanded known edges seeds i
  missing : ∀ j ∈ s.missing, j ∉ known ∧ ∃ i, Demanded known edges seeds i ∧ (i, j) ∈ edges

/-- What following an edge can do. -/
theorem scanEdge_cases (known : Finset ι) (s : Scan ι) (edge : ι × ι) :
    (edge.1 ∉ s.closed ∧ scanEdge known s edge = s) ∨
    (edge.1 ∈ s.closed ∧ edge.2 ∉ known ∧
      scanEdge known s edge = { s with missing := insert edge.2 s.missing }) ∨
    (edge.1 ∈ s.closed ∧ edge.2 ∈ known ∧ edge.2 ∉ s.closed ∧
      scanEdge known s edge = { s with closed := insert edge.2 s.closed, changed := true }) ∨
    (edge.2 ∈ known ∧ edge.2 ∈ s.closed ∧ scanEdge known s edge = s) := by
  unfold scanEdge
  by_cases hsource : edge.1 ∈ s.closed
  · by_cases hknown : edge.2 ∈ known
    · by_cases hold : edge.2 ∈ s.closed
      · exact .inr (.inr (.inr ⟨hknown, hold, by simp [hsource, hknown, hold]⟩))
      · exact .inr (.inr (.inl ⟨hsource, hknown, hold, by simp [hsource, hknown, hold]⟩))
    · exact .inr (.inl ⟨hsource, hknown, by simp [hsource, hknown]⟩)
  · exact .inl ⟨hsource, by simp [hsource]⟩

theorem Scan.Justified.scanEdge {s : Scan ι} (h : s.Justified known edges seeds)
    {edge : ι × ι} (he : edge ∈ edges) :
    (scanEdge known s edge).Justified known edges seeds := by
  rcases scanEdge_cases known s edge with ⟨_, heq⟩ | ⟨hsource, hunknown, heq⟩ |
    ⟨hsource, hknown, _, heq⟩ | ⟨_, _, heq⟩ <;> rw [heq]
  · exact h
  · refine ⟨h.closed, fun j hj => ?_⟩
    rcases Finset.mem_insert.mp hj with rfl | hj
    · exact ⟨hunknown, edge.1, h.closed _ hsource, he⟩
    · exact h.missing j hj
  · refine ⟨fun j hj => ?_, h.missing⟩
    rcases Finset.mem_insert.mp hj with rfl | hj
    · exact .edge (h.closed _ hsource) he hknown
    · exact h.closed j hj
  · exact h

theorem Scan.Justified.foldl {s : Scan ι} (h : s.Justified known edges seeds)
    (es : List (ι × ι)) (hes : ∀ e ∈ es, e ∈ edges) :
    (es.foldl (Library.scanEdge known) s).Justified known edges seeds := by
  induction es generalizing s with
  | nil => exact h
  | cons e es ih =>
    exact ih (h.scanEdge (hes e List.mem_cons_self)) fun e' he' =>
      hes e' (List.mem_cons_of_mem _ he')

/-- Following an edge only adds. -/
theorem scanEdge_le (known : Finset ι) (s : Scan ι) (edge : ι × ι) :
    s.closed ⊆ (scanEdge known s edge).closed ∧ s.missing ⊆ (scanEdge known s edge).missing ∧
      (s.changed = true → (scanEdge known s edge).changed = true) := by
  rcases scanEdge_cases known s edge with ⟨_, heq⟩ | ⟨_, _, heq⟩ | ⟨_, _, _, heq⟩ | ⟨_, _, heq⟩ <;>
    rw [heq]
  · exact ⟨subset_rfl, subset_rfl, fun h => h⟩
  · exact ⟨subset_rfl, Finset.subset_insert _ _, fun h => h⟩
  · exact ⟨Finset.subset_insert _ _, subset_rfl, fun _ => rfl⟩
  · exact ⟨subset_rfl, subset_rfl, fun h => h⟩

theorem foldl_scanEdge_le (known : Finset ι) (es : List (ι × ι)) (s : Scan ι) :
    s.closed ⊆ (es.foldl (scanEdge known) s).closed ∧
      s.missing ⊆ (es.foldl (scanEdge known) s).missing ∧
      (s.changed = true → (es.foldl (scanEdge known) s).changed = true) := by
  induction es generalizing s with
  | nil => exact ⟨subset_rfl, subset_rfl, id⟩
  | cons e es ih =>
    obtain ⟨hclosed, hmissing, hchanged⟩ := scanEdge_le known s e
    obtain ⟨hclosed', hmissing', hchanged'⟩ := ih (scanEdge known s e)
    exact ⟨hclosed.trans hclosed', hmissing.trans hmissing', hchanged' ∘ hchanged⟩

/-- A scan that changes nothing has found every edge it follows closed or reported. -/
theorem foldl_scanEdge_stable {es : List (ι × ι)} {s : Scan ι}
    (h : (es.foldl (scanEdge known) s).changed = false) :
    (es.foldl (scanEdge known) s).closed = s.closed ∧
      ∀ e ∈ es, e.1 ∈ s.closed →
        if e.2 ∈ known then e.2 ∈ s.closed
        else e.2 ∈ (es.foldl (scanEdge known) s).missing := by
  induction es generalizing s with
  | nil => exact ⟨rfl, by simp⟩
  | cons e es ih =>
    rw [List.foldl_cons] at h ⊢
    obtain ⟨hclosed, hrest⟩ := ih h
    obtain ⟨_, hmissing, hchanged⟩ := foldl_scanEdge_le known es (scanEdge known s e)
    -- the first edge added nothing, or the scan had changed
    have hhead : (scanEdge known s e).closed = s.closed ∧ (e.1 ∈ s.closed →
        if e.2 ∈ known then e.2 ∈ s.closed else e.2 ∈ (scanEdge known s e).missing) := by
      rcases scanEdge_cases known s e with ⟨hsource, heq⟩ | ⟨_, hunknown, heq⟩ |
        ⟨_, _, _, heq⟩ | ⟨hknown, hold, heq⟩
      · rw [heq]
        exact ⟨rfl, fun hin => absurd hin hsource⟩
      · rw [heq, if_neg hunknown]
        exact ⟨rfl, fun _ => Finset.mem_insert_self _ _⟩
      · rw [hchanged (by rw [heq])] at h
        cases h
      · rw [heq, if_pos hknown]
        exact ⟨rfl, fun _ => hold⟩
    refine ⟨hclosed.trans hhead.1, fun e' he' hsource => ?_⟩
    rcases List.mem_cons.mp he' with rfl | htail
    · have hfound := hhead.2 hsource
      split_ifs at hfound ⊢
      · exact hfound
      · exact hmissing hfound
    · have hfound := hrest e' htail (hhead.1.symm ▸ hsource)
      rwa [hhead.1] at hfound

/-- A scan that changes something leaves fewer known elements outside. -/
theorem foldl_scanEdge_progress {es : List (ι × ι)} {s : Scan ι}
    (hstart : s.changed = false) (h : (es.foldl (scanEdge known) s).changed = true) :
    ((known \ (es.foldl (scanEdge known) s).closed).card) < (known \ s.closed).card := by
  induction es generalizing s with
  | nil => simp [hstart] at h
  | cons e es ih =>
    rw [List.foldl_cons] at h ⊢
    obtain ⟨hgrows, _⟩ := foldl_scanEdge_le known es (scanEdge known s e)
    by_cases hchanged : (scanEdge known s e).changed = true
    · -- the first edge added its target
      have hadded : e.2 ∈ known \ s.closed ∧ e.2 ∈ (scanEdge known s e).closed := by
        rcases scanEdge_cases known s e with ⟨_, heq⟩ | ⟨_, _, heq⟩ | ⟨_, hknown, hnew, heq⟩ |
          ⟨_, _, heq⟩
        · simp [heq, hstart] at hchanged
        · simp [heq, hstart] at hchanged
        · rw [heq]
          exact ⟨Finset.mem_sdiff.mpr ⟨hknown, hnew⟩, Finset.mem_insert_self _ _⟩
        · simp [heq, hstart] at hchanged
      refine Finset.card_lt_card ⟨Finset.sdiff_subset_sdiff subset_rfl
        ((scanEdge_le known s e).1.trans hgrows), fun hsub => ?_⟩
      exact (Finset.mem_sdiff.mp (hsub hadded.1)).2 (hgrows hadded.2)
    · have hsame : (scanEdge known s e).changed = false := by simpa using hchanged
      refine (ih hsame h).trans_le (Finset.card_le_card ?_)
      exact Finset.sdiff_subset_sdiff subset_rfl (scanEdge_le known s e).1

/-! ## Section 3: The result -/

/-- With fuel, saturation ends in a scan that changes nothing. -/
theorem saturate_spec {fuel : ℕ} {closed missing : Finset ι}
    (hfuel : (known \ closed).card < fuel)
    (hjustified : Scan.Justified known edges seeds ⟨closed, missing, false⟩)
    (hseeds : seeds ⊆ closed) :
    let result := saturate known edges fuel closed missing
    Scan.Justified known edges seeds ⟨result.1, result.2, false⟩ ∧ seeds ⊆ result.1 ∧
      ∀ e ∈ edges, e.1 ∈ result.1 → if e.2 ∈ known then e.2 ∈ result.1 else e.2 ∈ result.2 := by
  induction fuel generalizing closed missing with
  | zero => exact absurd hfuel (Nat.not_lt_zero _)
  | succ fuel ih =>
    have hscan := hjustified.foldl edges fun _ he => he
    obtain ⟨hgrows, _⟩ := foldl_scanEdge_le known edges ⟨closed, missing, false⟩
    unfold saturate
    -- a scan that changes nothing has every edge inside already
    cases hchanged : (scanEdges known edges closed missing).changed with
    | false =>
      obtain ⟨hclosed, hedges⟩ := foldl_scanEdge_stable hchanged
      simp only [hchanged, cond_false]
      refine ⟨⟨hscan.closed, hscan.missing⟩, hseeds.trans hgrows, fun e he hsource => ?_⟩
      have hfound := hedges e he (hclosed ▸ hsource)
      split_ifs at hfound ⊢
      · exact hgrows hfound
      · exact hfound
    -- one that changes something closes another known element, so the fuel suffices
    | true =>
      have hless := foldl_scanEdge_progress rfl hchanged
      simp only [hchanged, cond_true]
      exact ih (by simp only at hless; exact lt_of_lt_of_le hless (Nat.lt_succ_iff.mp hfuel))
        ⟨hscan.closed, hscan.missing⟩ (hseeds.trans hgrows)

variable {fuel : ℕ} (hfuel : known.card < fuel)

include hfuel

theorem saturate_seeds (edges : List (ι × ι)) (seeds : Finset ι) :
    let result := saturate known edges fuel seeds ∅
    Scan.Justified known edges seeds ⟨result.1, result.2, false⟩ ∧ seeds ⊆ result.1 ∧
      ∀ e ∈ edges, e.1 ∈ result.1 → if e.2 ∈ known then e.2 ∈ result.1 else e.2 ∈ result.2 :=
  saturate_spec ((Finset.card_le_card Finset.sdiff_subset).trans_lt hfuel)
    ⟨fun _ hi => .seed hi, fun j hj => absurd hj (Finset.notMem_empty j)⟩ subset_rfl

/-- **Leastness**: the result is exactly what the seeds demand. -/
theorem saturate_closed {i : ι} :
    i ∈ (saturate known edges fuel seeds ∅).1 ↔ Demanded known edges seeds i := by
  obtain ⟨hjustified, hseeds, hedges⟩ := saturate_seeds hfuel edges seeds
  refine ⟨fun hi => hjustified.closed i hi, fun hi => ?_⟩
  induction hi with
  | seed h => exact hseeds h
  | edge _ he hj ih =>
    have hfound := hedges _ he ih
    rwa [if_pos hj] at hfound

/-- **Completeness of the report**: the unknown targets of edges from what is demanded. -/
theorem saturate_missing {j : ι} :
    j ∈ (saturate known edges fuel seeds ∅).2 ↔
      j ∉ known ∧ ∃ i, Demanded known edges seeds i ∧ (i, j) ∈ edges := by
  obtain ⟨hjustified, _, hedges⟩ := saturate_seeds hfuel edges seeds
  refine ⟨fun hj => hjustified.missing j hj, fun ⟨hunknown, i, hi, he⟩ => ?_⟩
  have hfound := hedges _ he ((saturate_closed hfuel).mpr hi)
  rwa [if_neg hunknown] at hfound

end Library
