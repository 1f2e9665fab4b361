import ContractCapsule.Library.Loops
import ContractCapsule.Resolve.Scope
import ContractCapsule.Twin.Trees

/-!
# Change Sets of Snapshots

`validate/snapshots.py`: the paths at which two snapshots differ, and the check that every one of
them is in scope. The verdict on the behaviour of a replacement reads the trees through these.

`snapshot_deltas_exact` says what accepted snapshots are, and what their change sets and the check
of the scope tell about them.
-/

namespace ContractCapsule.Twin

open Library Models Resolve

/-! ## Section 1: Change sets -/

/-- `{e.path: e for e in entries}.get(path)`: the last entry with the path. -/
def Snapshot.latest (snapshot : Snapshot) (path : String) : Option TreeEntry :=
  snapshot.entries.reverse.find? fun entry => entry.path = path

/-- `tree_delta` -/
def treeDelta (before after : Snapshot) : List String :=
  let keys := (before.entries.map TreeEntry.path ++ after.entries.map TreeEntry.path).dedup
  (keys.filter fun path => before.latest path ≠ after.latest path).insertionSort
    fun a b => codePoints a ≤ codePoints b

/-- The loop body of `scope_violations`: `any` stops at the first pattern that matches, and a pattern
that is none raises. -/
def violates (allowed forbidden : List String) (path : String) : Except CompileError Bool :=
  if path = "." then .ok true else do
    let inScope ← allowed.anyM fun pattern => pathMatches pattern path
    if inScope = false then .ok true else forbidden.anyM fun pattern => pathMatches pattern path

/-- `scope_violations` -/
def scopeViolations (paths allowed forbidden : List String) : Except CompileError Bool :=
  paths.anyM (violates allowed forbidden)

/-! ## Section 2: Change sets of accepted snapshots -/

/-- Two snapshots differ at a path: one of them has no entry there, or their entries differ. -/
def DiffersAt (before after : Snapshot) (path : String) : Prop :=
  ((∃ e ∈ before.entries, e.path = path) ∧ ∀ e ∈ after.entries, e.path ≠ path) ∨
    ((∃ e ∈ after.entries, e.path = path) ∧ ∀ e ∈ before.entries, e.path ≠ path) ∨
    ∃ e ∈ before.entries, ∃ e' ∈ after.entries, e.path = path ∧ e'.path = path ∧
      (e.kind ≠ e'.kind ∨ e.mode ≠ e'.mode ∨ e.size ≠ e'.size ∨ e.digest ≠ e'.digest)

theorem Snapshot.latest_eq_none {snapshot : Snapshot} {path : String} :
    snapshot.latest path = none ↔ ∀ e ∈ snapshot.entries, e.path ≠ path := by
  simp [Snapshot.latest, List.find?_eq_none]

theorem Snapshot.mem_of_latest {snapshot : Snapshot} {path : String} {entry : TreeEntry}
    (h : snapshot.latest path = some entry) : entry ∈ snapshot.entries ∧ entry.path = path :=
  ⟨List.mem_reverse.mp (List.mem_of_find?_eq_some h), by simpa using List.find?_some h⟩

/-- An accepted snapshot has one entry at a path. -/
theorem Snapshot.Accepted.latest_eq_some {snapshot : Snapshot} (h : snapshot.Accepted)
    {path : String} {entry : TreeEntry} :
    snapshot.latest path = some entry ↔ entry ∈ snapshot.entries ∧ entry.path = path := by
  constructor
  · exact Snapshot.mem_of_latest
  · rintro ⟨hmem, hpath⟩
    cases hlatest : snapshot.latest path with
    | none => exact absurd hpath (Snapshot.latest_eq_none.mp hlatest entry hmem)
    | some found =>
      obtain ⟨hfound, hpath'⟩ := Snapshot.mem_of_latest hlatest
      rw [h.distinct hfound hmem (hpath'.trans hpath.symm)]

/-- The entries of two snapshots at a path are not the same exactly when the snapshots differ
there. -/
theorem latest_ne_iff {before after : Snapshot} (hbefore : before.Accepted)
    (hafter : after.Accepted) (path : String) :
    before.latest path ≠ after.latest path ↔ DiffersAt before after path := by
  unfold DiffersAt
  cases hold : before.latest path with
  | none =>
    have hnone := Snapshot.latest_eq_none.mp hold
    cases hnew : after.latest path with
    | none =>
      have hnone' := Snapshot.latest_eq_none.mp hnew
      constructor
      · intro h
        exact absurd rfl h
      · rintro (⟨⟨e, he, hpath⟩, _⟩ | ⟨⟨e, he, hpath⟩, _⟩ | ⟨e, he, _, _, hpath, _⟩)
        · exact absurd hpath (hnone e he)
        · exact absurd hpath (hnone' e he)
        · exact absurd hpath (hnone e he)
    | some entry' =>
      refine iff_of_true (by simp) (Or.inr (Or.inl ⟨⟨entry', ?_⟩, hnone⟩))
      exact Snapshot.mem_of_latest hnew
  | some entry =>
    have hentry := Snapshot.mem_of_latest hold
    cases hnew : after.latest path with
    | none =>
      exact iff_of_true (by simp)
        (Or.inl ⟨⟨entry, hentry⟩, Snapshot.latest_eq_none.mp hnew⟩)
    | some entry' =>
      have hentry' := Snapshot.mem_of_latest hnew
      rw [ne_eq, Option.some.injEq]
      constructor
      · intro hne
        refine Or.inr (Or.inr ⟨entry, hentry.1, entry', hentry'.1, hentry.2, hentry'.2, ?_⟩)
        -- entries of one path that agree in every other field are the same
        by_contra hsame
        simp only [not_or, not_not] at hsame
        obtain ⟨hkind, hmode, hsize, hdigest⟩ := hsame
        apply hne
        cases entry
        cases entry'
        simp_all
      · rintro (⟨_, hnone⟩ | ⟨_, hnone⟩ | ⟨e, he, e', he', hpath, hpath', hdiffers⟩) heq
        · exact hnone entry' hentry'.1 hentry'.2
        · exact hnone entry hentry.1 hentry.2
        · obtain rfl := Option.some.inj (hold.symm.trans (hbefore.latest_eq_some.mpr ⟨he, hpath⟩))
          obtain rfl := Option.some.inj (hnew.symm.trans (hafter.latest_eq_some.mpr ⟨he', hpath'⟩))
          subst heq
          simp at hdiffers

/-- A change set has exactly the paths at which the snapshots differ. -/
theorem mem_treeDelta {before after : Snapshot} (hbefore : before.Accepted)
    (hafter : after.Accepted) (path : String) :
    path ∈ treeDelta before after ↔ DiffersAt before after path := by
  rw [treeDelta, List.mem_insertionSort, List.mem_filter, decide_eq_true_eq,
    latest_ne_iff hbefore hafter, and_iff_right_iff_imp, List.mem_dedup, List.mem_append,
    List.mem_map, List.mem_map]
  rintro (⟨⟨e, he, rfl⟩, _⟩ | ⟨⟨e, he, rfl⟩, _⟩ | ⟨e, he, _, _, rfl, _⟩)
  · exact Or.inl ⟨e, he, rfl⟩
  · exact Or.inr ⟨e, he, rfl⟩
  · exact Or.inl ⟨e, he, rfl⟩

theorem nodup_treeDelta (before after : Snapshot) : (treeDelta before after).Nodup := by
  apply (List.perm_insertionSort _ _).nodup_iff.mpr
  exact (List.nodup_dedup _).filter _

/-- An accepted snapshot is told by its entries, in whatever order. -/
theorem Snapshot.Accepted.ext {before after : Snapshot} (hbefore : before.Accepted)
    (hafter : after.Accepted) (h : ∀ e, e ∈ before.entries ↔ e ∈ after.entries) :
    before = after := by
  have hascends : ∀ {s : Snapshot}, s.Accepted →
      s.entries.Pairwise fun a b => codePoints a.path < codePoints b.path := fun hs => hs.sorted
  have hnodup : ∀ {s : Snapshot}, s.Accepted → s.entries.Nodup := by
    intro s hs
    apply (hascends hs).imp
    rintro a b hless rfl
    exact lt_irrefl _ hless
  have hperm : before.entries.Perm after.entries :=
    (List.perm_ext_iff_of_nodup (hnodup hbefore) (hnodup hafter)).mpr h
  have hentries : before.entries = after.entries := by
    apply hperm.eq_of_pairwise _ (hascends hbefore) (hascends hafter)
    intro a b _ _ hab hba
    exact absurd hba (lt_asymm hab)
  cases before
  cases after
  rw [Snapshot.mk.injEq]
  exact hentries

/-- A change set is empty exactly between equal snapshots. -/
theorem treeDelta_eq_nil_iff {before after : Snapshot} (hbefore : before.Accepted)
    (hafter : after.Accepted) : treeDelta before after = [] ↔ before = after := by
  rw [List.eq_nil_iff_forall_not_mem]
  simp only [mem_treeDelta hbefore hafter, ← latest_ne_iff hbefore hafter, not_not]
  constructor
  · intro h
    apply hbefore.ext hafter
    intro e
    have hsame := h e.path
    constructor
    · intro he
      exact (hafter.latest_eq_some.mp (hsame ▸ hbefore.latest_eq_some.mpr ⟨he, rfl⟩)).1
    · intro he
      exact (hbefore.latest_eq_some.mp (hsame.symm ▸ hafter.latest_eq_some.mpr ⟨he, rfl⟩)).1
  · rintro rfl path
    rfl

/-! ## Section 3: Scopes -/

/-- A scope that can be matched against: a pattern of segments. -/
def WellFormed (pattern : String) : Prop := ∃ parts, segments pattern true = .ok parts

/-- A path is in scope: below the root, matched by an allowed scope and by no forbidden one. -/
def InScope (allowed forbidden : List String) (path : String) : Prop :=
  path ≠ "." ∧ (∃ pattern ∈ allowed, pathMatches pattern path = .ok true) ∧
    ∀ pattern ∈ forbidden, pathMatches pattern path ≠ .ok true

theorem mem_of_hasDoubleStar {cs : List Char} (h : hasDoubleStar cs = true) : '*' ∈ cs := by
  induction cs with
  | nil => cases h
  | cons c cs ih =>
    unfold hasDoubleStar at h
    split at h
    · next heq =>
      rw [heq]
      exact List.mem_cons_self
    · next heq =>
      obtain ⟨rfl, rfl⟩ := List.cons.inj heq
      exact List.mem_cons_of_mem _ (ih h)
    · cases h

/-- The characters of a part are those of the text. -/
theorem mem_of_mem_splitOn {separator : Char} {cs part : List Char}
    (hpart : part ∈ splitOn separator cs) {c : Char} (hc : c ∈ part) : c ∈ cs := by
  induction cs generalizing part with
  | nil =>
    rw [splitOn, List.mem_singleton] at hpart
    rw [hpart] at hc
    cases hc
  | cons d cs ih =>
    rw [splitOn] at hpart
    split at hpart
    · rcases List.mem_cons.mp hpart with rfl | hrest
      · cases hc
      · exact List.mem_cons_of_mem _ (ih hrest hc)
    -- the character is put in front of the first part
    · cases hparts : splitOn separator cs with
      | nil => exact absurd hparts (splitOn_ne_nil _ _)
      | cons first parts =>
        rw [hparts] at hpart
        rcases List.mem_cons.mp hpart with rfl | hrest
        · rcases List.mem_cons.mp hc with rfl | hfirst
          · exact List.mem_cons_self
          · exact List.mem_cons_of_mem _ (ih (hparts ▸ List.mem_cons_self) hfirst)
        · exact List.mem_cons_of_mem _ (ih (hparts ▸ List.mem_cons_of_mem _ hrest) hc)

/-- The paths below the root of an accepted snapshot can be matched. -/
theorem segments_of_placed {path : String} (hsafe : isSafeRelativePath path "" = true)
    (hplain : path.toList.any isGlobChar = false) :
    segments path false = .ok (splitOn '/' path.toList) := by
  rw [List.any_eq_false] at hplain
  have hnone : ∀ c ∈ path.toList, c ≠ '*' ∧ c ≠ '?' ∧ c ≠ '[' ∧ c ≠ ']' := by
    intro c hc
    have hchar := hplain c hc
    simp only [isGlobChar, Bool.not_eq_true, Bool.or_eq_false_iff, beq_eq_false_iff_ne] at hchar
    exact ⟨hchar.1.1.1, hchar.1.1.2, hchar.1.2, hchar.2⟩
  have hstar : '*' ∉ path.toList := fun hmem => (hnone '*' hmem).1 rfl
  simp only [segments, Except.bind_eq_ok, raiseIf_eq_ok, Except.pure_eq_ok]
  refine ⟨(), by simp [hsafe], (), ?_, (), fun h => hstar h.2, (), ?_, trivial⟩
  · rw [Bool.not_eq_true, List.any_eq_false]
    intro c hc
    obtain ⟨_, hquestion, hopen, hclose⟩ := hnone c hc
    simp [hquestion, hopen, hclose]
  · rintro ⟨part, hpart, hdouble, _⟩
    exact hstar (mem_of_mem_splitOn hpart (mem_of_hasDoubleStar hdouble))

/-- What can be wrong with a pattern or a path has one code. -/
theorem segments_eq_error {value : String} {pattern : Bool} {e : CompileError}
    (h : segments value pattern = .error e) : e = .invalidScope := by
  simp only [segments, Except.bind_eq_error, raiseIf_eq_error, raiseIf_eq_ok] at h
  rcases h with ⟨_, rfl⟩ | ⟨_, _, ⟨_, rfl⟩ | ⟨_, _, ⟨_, rfl⟩ | ⟨_, _, ⟨_, rfl⟩ | ⟨_, _, hpure⟩⟩⟩⟩
  · rfl
  · rfl
  · rfl
  · rfl
  · cases hpure

/-- A path that can be matched is matched against a well-formed pattern, and a malformed one is
refused. -/
theorem pathMatches_cases {path : String} {parts : List (List Char)}
    (hpath : segments path false = .ok parts) (pattern : String) :
    (∃ b, pathMatches pattern path = .ok b) ∨
      pathMatches pattern path = .error .invalidScope ∧ ¬ WellFormed pattern := by
  unfold pathMatches WellFormed
  cases hpattern : segments pattern true with
  | ok patternParts => exact Or.inl ⟨_, by rw [hpath]; rfl⟩
  | error e =>
    rw [segments_eq_error hpattern]
    exact Or.inr ⟨rfl, by simp⟩

theorem violates_eq_ok_false {allowed forbidden : List String} {path : String} :
    violates allowed forbidden path = .ok false ↔
      path ≠ "." ∧ (allowed.anyM fun pattern => pathMatches pattern path) = .ok true ∧
        ∀ pattern ∈ forbidden, pathMatches pattern path = .ok false := by
  unfold violates
  by_cases hroot : path = "."
  · simp [hroot]
  · rw [if_neg hroot, Except.bind_eq_ok, and_iff_right hroot]
    constructor
    · rintro ⟨inScope, hallowed, hforbidden⟩
      cases inScope with
      | false => simp at hforbidden
      | true => exact ⟨hallowed, anyM_eq_ok_false.mp hforbidden⟩
    · rintro ⟨hallowed, hforbidden⟩
      exact ⟨true, hallowed, anyM_eq_ok_false.mpr hforbidden⟩

/-- A path that is cleared is in scope. -/
theorem inScope_of_violates {allowed forbidden : List String} {path : String}
    (h : violates allowed forbidden path = .ok false) : InScope allowed forbidden path := by
  obtain ⟨hroot, hallowed, hforbidden⟩ := violates_eq_ok_false.mp h
  refine ⟨hroot, (anyM_ok hallowed).mp rfl, ?_⟩
  intro pattern hpattern hmatch
  rw [hforbidden pattern hpattern] at hmatch
  cases hmatch

/-- A path of an accepted snapshot is the root, or can be matched. -/
theorem Snapshot.Accepted.segments {snapshot : Snapshot} (h : snapshot.Accepted)
    {entry : TreeEntry} (hentry : entry ∈ snapshot.entries) (hroot : entry.path ≠ ".") :
    ∃ parts, Resolve.segments entry.path false = .ok parts := by
  rcases h.placed entry hentry with hdot | ⟨hsafe, hplain, _⟩
  · exact absurd hdot hroot
  · exact ⟨_, segments_of_placed hsafe hplain⟩

section Violates

variable {allowed forbidden : List String} {path : String} {parts : List (List Char)}

/-- What the check of a path raises is the code of a malformed scope. -/
theorem malformed_of_violates (hpath : path ≠ "." → segments path false = .ok parts)
    {e : CompileError} (h : violates allowed forbidden path = .error e) :
    e = .invalidScope ∧ ∃ pattern ∈ allowed ++ forbidden, ¬ WellFormed pattern := by
  have hpattern : path ≠ "." → ∀ pattern, pathMatches pattern path = .error e →
      e = .invalidScope ∧ ¬ WellFormed pattern := by
    intro hroot pattern hraise
    rcases pathMatches_cases (hpath hroot) pattern with ⟨b, hb⟩ | ⟨hinvalid, hmalformed⟩
    · rw [hb] at hraise
      cases hraise
    · rw [hinvalid] at hraise
      exact ⟨(Except.error.inj hraise).symm, hmalformed⟩
  unfold violates at h
  split at h
  · cases h
  · next hroot =>
    -- the allowed patterns are matched first, so their error is the one that is met
    rcases (Except.bind_eq_error _ _ _).mp h with hallowed | ⟨inScope, _, hrest⟩
    · obtain ⟨pattern, hmem, hraise⟩ := exists_of_anyM_eq_error hallowed
      obtain ⟨hcode, hmalformed⟩ := hpattern hroot pattern hraise
      exact ⟨hcode, pattern, List.mem_append_left _ hmem, hmalformed⟩
    · split at hrest
      · cases hrest
      · obtain ⟨pattern, hmem, hraise⟩ := exists_of_anyM_eq_error hrest
        obtain ⟨hcode, hmalformed⟩ := hpattern hroot pattern hraise
        exact ⟨hcode, pattern, List.mem_append_right _ hmem, hmalformed⟩

/-- With well-formed scopes a path is cleared exactly when it is in scope. -/
theorem violates_eq_ok_false_iff (hpath : path ≠ "." → segments path false = .ok parts)
    (hscopes : ∀ pattern ∈ allowed ++ forbidden, WellFormed pattern) :
    violates allowed forbidden path = .ok false ↔ InScope allowed forbidden path := by
  constructor
  · exact inScope_of_violates
  · rintro ⟨hroot, ⟨pattern, hpattern, hmatch⟩, hforbidden⟩
    apply violates_eq_ok_false.mpr
    refine ⟨hroot, ?_, ?_⟩
    · cases hany : allowed.anyM fun pattern => pathMatches pattern path with
      | ok b =>
        rw [(anyM_ok hany).mpr ⟨pattern, hpattern, hmatch⟩]
      | error e =>
        obtain ⟨other, hother, hraise⟩ := exists_of_anyM_eq_error hany
        rcases pathMatches_cases (hpath hroot) other with ⟨b, hb⟩ | ⟨_, hmalformed⟩
        · rw [hb] at hraise
          cases hraise
        · exact absurd (hscopes other (List.mem_append_left _ hother)) hmalformed
    -- no forbidden pattern matches, and none can raise
    · intro other hother
      rcases pathMatches_cases (hpath hroot) other with ⟨b, hb⟩ | ⟨_, hmalformed⟩
      · cases b with
        | false => exact hb
        | true => exact absurd hb (hforbidden other hother)
      · exact absurd (hscopes other (List.mem_append_right _ hother)) hmalformed

end Violates

/-! ## Section 4: Snapshots and their change sets -/

/-- **Accepted snapshots are trees, and their change sets are exact.** Paths are unique and every
proper ancestor of an entry is a directory entry. A change set has no duplicates, has exactly the
paths at which the snapshots differ, and is empty between equal snapshots only. The check of the
scope clears a change set only when every differing path is in scope; with well-formed scopes it
answers, and clears exactly those; and it raises for a malformed scope only. -/
theorem snapshot_deltas_exact :
    (∀ snapshot limits, validateSnapshot snapshot limits = .ok () →
      (snapshot.entries.map TreeEntry.path).Nodup ∧
        ∀ entry ∈ snapshot.entries, ∀ p, Above p (entryPath entry.path) →
          ∃ parent ∈ snapshot.entries, entryPath parent.path = p ∧ parent.kind = .directory) ∧
    ∀ before after limits limits', validateSnapshot before limits = .ok () →
      validateSnapshot after limits' = .ok () →
        (treeDelta before after).Nodup ∧
        (∀ path, path ∈ treeDelta before after ↔ DiffersAt before after path) ∧
        (treeDelta before after = [] ↔ before = after) ∧
        ∀ allowed forbidden,
          (scopeViolations (treeDelta before after) allowed forbidden = .ok false →
            ∀ path, DiffersAt before after path → InScope allowed forbidden path) ∧
          ((∀ pattern ∈ allowed ++ forbidden, WellFormed pattern) →
            (scopeViolations (treeDelta before after) allowed forbidden = .ok false ↔
              ∀ path, DiffersAt before after path → InScope allowed forbidden path)) ∧
          ∀ e, scopeViolations (treeDelta before after) allowed forbidden = .error e →
            e = .invalidScope ∧ ∃ pattern ∈ allowed ++ forbidden, ¬ WellFormed pattern := by
  constructor
  · intro snapshot limits h
    have haccepted := accepted_of_validateSnapshot h
    refine ⟨?_, fun entry hentry p hp => haccepted.ancestor hentry hp⟩
    apply List.pairwise_map.mpr
    apply haccepted.sorted.imp
    intro a b hless heq
    exact hless.ne (congrArg codePoints heq)
  · intro before after limits limits' hold hnew
    have hbefore := accepted_of_validateSnapshot hold
    have hafter := accepted_of_validateSnapshot hnew
    have hmem := mem_treeDelta hbefore hafter
    -- the paths of a change set are those of entries
    have hpaths : ∀ path ∈ treeDelta before after,
        ∃ parts, path ≠ "." → segments path false = .ok parts := by
      intro path hpath
      by_cases hroot : path = "."
      · exact ⟨[], fun h => absurd hroot h⟩
      · rcases (hmem path).mp hpath with ⟨⟨e, he, rfl⟩, _⟩ | ⟨⟨e, he, rfl⟩, _⟩ | ⟨e, he, _, _, rfl, _⟩
        · exact (hbefore.segments he hroot).imp fun _ h _ => h
        · exact (hafter.segments he hroot).imp fun _ h _ => h
        · exact (hbefore.segments he hroot).imp fun _ h _ => h
    refine ⟨nodup_treeDelta before after, hmem, treeDelta_eq_nil_iff hbefore hafter, ?_⟩
    intro allowed forbidden
    refine ⟨?_, ?_, ?_⟩
    · intro h path hpath
      exact inScope_of_violates (anyM_eq_ok_false.mp h path ((hmem path).mpr hpath))
    · intro hscopes
      rw [scopeViolations, anyM_eq_ok_false]
      constructor
      · intro h path hpath
        exact inScope_of_violates (h path ((hmem path).mpr hpath))
      · intro h path hpath
        obtain ⟨parts, hparts⟩ := hpaths path hpath
        exact (violates_eq_ok_false_iff hparts hscopes).mpr (h path ((hmem path).mp hpath))
    · intro e h
      obtain ⟨path, hpath, hraise⟩ := exists_of_anyM_eq_error h
      obtain ⟨parts, hparts⟩ := hpaths path hpath
      exact malformed_of_violates hparts hraise

/-! ## Section 5: Small snapshots -/

/-- A directory of a snapshot, and a file with these bytes. -/
def directoryAt (path : String) : TreeEntry := ⟨path, .directory, 0o755, none, 0⟩
def fileAt (path : String) (mode : ℕ) (data : Bytes) : TreeEntry :=
  ⟨path, .file, mode, some (sampleDigest data), data.length⟩

/-- Between these snapshots a file has got another mode, one has gone and one has come. -/
def earlierSnapshot : Snapshot :=
  ⟨[directoryAt ".", directoryAt "d", fileAt "d/x" 0o644 [1], fileAt "k" 0o644 []]⟩
def laterSnapshot : Snapshot :=
  ⟨[directoryAt ".", directoryAt "d", fileAt "d/x" 0o755 [1], fileAt "n" 0o644 [2]]⟩

/-- The paths at which the snapshots differ are in a scope of three patterns, and are not without
the last one. -/
theorem snapshot_deltas_exact_changed :
    (∀ path, DiffersAt earlierSnapshot laterSnapshot path ↔ path ∈ ["d/x", "k", "n"]) ∧
      (∀ path, DiffersAt earlierSnapshot laterSnapshot path → InScope ["d/**", "k", "n"] [] path) ∧
      ¬ ∀ path, DiffersAt earlierSnapshot laterSnapshot path → InScope ["d/**", "k"] [] path := by
  have hearlier : validateSnapshot earlierSnapshot sampleConfig = .ok () := by decide +kernel
  have hlater : validateSnapshot laterSnapshot sampleConfig = .ok () := by decide +kernel
  -- three paths differ: a file in a directory, one that is gone, and one that is new
  have hdelta : ∀ path, path ∈ treeDelta earlierSnapshot laterSnapshot ↔
      path ∈ ["d/x", "k", "n"] := by
    have hpaths : (treeDelta earlierSnapshot laterSnapshot).toFinset = ["d/x", "k", "n"].toFinset := by
      decide +kernel
    intro path
    rw [← List.mem_toFinset, hpaths, List.mem_toFinset]
  have hwell : ∀ pattern ∈ ["d/**", "k"] ++ [], WellFormed pattern := by
    refine List.forall_mem_cons.mpr ⟨?_, List.forall_mem_singleton.mpr ?_⟩
    · exact ⟨["d".toList, "**".toList], by decide +kernel⟩
    · exact ⟨["k".toList], by decide +kernel⟩
  obtain ⟨_, hdiffers, _, hscopes⟩ :=
    snapshot_deltas_exact.2 earlierSnapshot laterSnapshot _ _ hearlier hlater
  refine ⟨fun path => (hdiffers path).symm.trans (hdelta path), ?_, ?_⟩
  · exact (hscopes ["d/**", "k", "n"] []).1 (by decide +kernel)
  -- without `n` in its scope the last change is out of it
  · intro hall
    have hcleared := ((hscopes ["d/**", "k"] []).2.1 hwell).mpr hall
    exact absurd hcleared (by decide +kernel)

/-! ## Section 6: A malformed scope -/

/-- A snapshot of the root alone, and one with an empty file below it. -/
def bareSnapshot : Snapshot := ⟨[⟨".", .directory, 0o755, none, 0⟩]⟩
def filledSnapshot : Snapshot :=
  ⟨[⟨".", .directory, 0o755, none, 0⟩, ⟨"a", .file, 0o644, some (sampleDigest []), 0⟩]⟩

/-- The one differing path is allowed by the second scope, and the first one is malformed. -/
theorem malformed_scope_raises :
    validateSnapshot bareSnapshot sampleConfig = .ok () ∧
      validateSnapshot filledSnapshot sampleConfig = .ok () ∧
      (∀ path, DiffersAt bareSnapshot filledSnapshot path → InScope ["a?", "a"] [] path) ∧
      scopeViolations (treeDelta bareSnapshot filledSnapshot) ["a?", "a"] [] =
        .error .invalidScope := by
  have hbare : validateSnapshot bareSnapshot sampleConfig = .ok () := by decide +kernel
  have hfilled : validateSnapshot filledSnapshot sampleConfig = .ok () := by decide +kernel
  have hdelta : treeDelta bareSnapshot filledSnapshot = ["a"] := by decide +kernel
  refine ⟨hbare, hfilled, ?_, by decide +kernel⟩
  intro path hpath
  have hmem := (mem_treeDelta (accepted_of_validateSnapshot hbare)
    (accepted_of_validateSnapshot hfilled) path).mpr hpath
  rw [hdelta, List.mem_singleton] at hmem
  subst hmem
  refine ⟨by decide, ⟨"a", by simp, by decide +kernel⟩, ?_⟩
  simp

end ContractCapsule.Twin
