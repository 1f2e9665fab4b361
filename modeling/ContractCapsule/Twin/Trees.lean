import ContractCapsule.Library.FileTree
import ContractCapsule.Library.Transaction
import ContractCapsule.Twin.RunModels
import Mathlib.Data.Finset.Dedup

/-!
# Frozen Trees

`swap/trees.py` and `validate/snapshots.py`: a tree of directories and files with the bytes of its
files, its checks, and how it is written below a fresh root. Both passes of `materialize` go by the
order of the path strings.

`materialize_iff` says when that is an order of the tree: when no path sorts before the path of the
root.
-/

namespace ContractCapsule.Twin

open Library Models

/-! ## Section 1: Paths -/

/-- The text of a path with these parts. -/
def joinParts : List (List Char) → List Char
  | [] => []
  | [part] => part
  | part :: parts => part ++ '/' :: joinParts parts

/-- The path of the parent, as `PurePosixPath` gives it for a safe relative path. -/
def parentOf (path : String) : String :=
  match (splitOn '/' path.toList).dropLast with
  | [] => "."
  | parts => String.ofList (joinParts parts)

/-- Where an entry stands below the root. -/
def entryPath (path : String) : List (List Char) :=
  if path = "." then [] else splitOn '/' path.toList

theorem splitOn_ne_nil (separator : Char) (cs : List Char) : splitOn separator cs ≠ [] := by
  cases cs with
  | nil => simp [splitOn]
  | cons c cs =>
    rw [splitOn]
    split
    · simp
    · split <;> simp

theorem joinParts_cons {part : List Char} {parts : List (List Char)} (h : parts ≠ []) :
    joinParts (part :: parts) = part ++ '/' :: joinParts parts := by
  cases parts with
  | nil => exact absurd rfl h
  | cons next parts => rfl

/-- Joining undoes splitting. -/
theorem joinParts_splitOn (cs : List Char) : joinParts (splitOn '/' cs) = cs := by
  induction cs with
  | nil => rfl
  | cons c cs ih =>
    rw [splitOn]
    split
    · next hseparator => rw [joinParts_cons (splitOn_ne_nil _ _), ih, hseparator, List.nil_append]
    · cases hparts : splitOn '/' cs with
      | nil => exact absurd hparts (splitOn_ne_nil _ _)
      | cons part parts =>
        rw [hparts] at ih
        cases parts with
        | nil =>
          simp only [joinParts] at ih ⊢
          rw [ih]
        | cons next parts =>
          rw [joinParts_cons (by simp)] at ih ⊢
          rw [← ih]
          rfl

/-- No part holds the separator. -/
theorem notMem_splitOn {separator : Char} {cs part : List Char} (h : part ∈ splitOn separator cs) :
    separator ∉ part := by
  induction cs generalizing part with
  | nil =>
    rw [splitOn, List.mem_singleton] at h
    simp [h]
  | cons c cs ih =>
    rw [splitOn] at h
    split at h
    · rcases List.mem_cons.mp h with rfl | hrest
      · simp
      · exact ih hrest
    · next hother =>
      cases hparts : splitOn separator cs with
      | nil => exact absurd hparts (splitOn_ne_nil _ _)
      | cons first parts =>
        rw [hparts] at h
        rcases List.mem_cons.mp h with rfl | hrest
        · rw [List.mem_cons, not_or]
          exact ⟨fun heq => hother heq.symm, ih (hparts ▸ List.mem_cons_self)⟩
        · exact ih (hparts ▸ List.mem_cons_of_mem _ hrest)

/-- Splitting undoes joining. -/
theorem splitOn_joinParts {parts : List (List Char)} (hne : parts ≠ [])
    (h : ∀ part ∈ parts, '/' ∉ part) : splitOn '/' (joinParts parts) = parts := by
  induction parts with
  | nil => exact absurd rfl hne
  | cons part parts ih =>
    by_cases hlast : parts = []
    · subst hlast
      exact splitOn_of_notMem (h part List.mem_cons_self)
    · rw [joinParts_cons hlast, splitOn_append (h part List.mem_cons_self),
        ih hlast fun p hp => h p (List.mem_cons_of_mem _ hp)]

theorem joinParts_append {front back : List (List Char)} (hfront : front ≠ []) (hback : back ≠ []) :
    joinParts (front ++ back) = joinParts front ++ '/' :: joinParts back := by
  induction front with
  | nil => exact absurd rfl hfront
  | cons part front ih =>
    by_cases hlast : front = []
    · subst hlast
      rw [List.singleton_append, joinParts_cons hback]
      rfl
    · rw [List.cons_append, joinParts_cons (by simp [hlast]), ih hlast, joinParts_cons hlast,
        List.append_assoc, List.cons_append]

/-! ## Section 2: Checks -/

/-- What the checks of a tree raise. -/
inductive TreeError where
  /-- pydantic's `ValidationError` -/
  | model
  /-- `RecordError("record rejected")` -/
  | record
  /-- `RunnerError` -/
  | runner (message : String)
deriving DecidableEq, Repr

/-- The entry of a snapshot at a path. -/
def Snapshot.find (snapshot : Snapshot) (path : String) : Option TreeEntry :=
  snapshot.entries.find? fun entry => entry.path = path

/-- The characters that a path may not hold. -/
def isGlobChar (c : Char) : Bool := c == '*' || c == '?' || c == '[' || c == ']'

/-- The loop body of `validate_snapshot`. -/
def validateEntry (snapshot : Snapshot) (entry : TreeEntry) : Except TreeError Unit := do
  raiseIf (entry.kind = .directory ∧ (entry.digest.isSome = true ∨ entry.size ≠ 0)) .record
  raiseIf (entry.kind = .file ∧ entry.digest = none) .record
  if entry.path = "." then .ok () else do
    raiseIf (isSafeRelativePath entry.path "" = false ∨ entry.path.toList.any isGlobChar = true)
      .record
    raiseIf ((snapshot.find (parentOf entry.path)).all (fun parent => parent.kind ≠ .directory))
      .record

/-- `validate_snapshot` -/
def validateSnapshot (snapshot : Snapshot) (limits : RunnerConfig) : Except TreeError Unit := do
  let paths := snapshot.entries.map TreeEntry.path
  raiseIf (¬ paths.Nodup ∨ ¬ paths.Pairwise (fun a b => codePoints a ≤ codePoints b) ∨
      (snapshot.find ".").all (fun root => root.kind ≠ .directory) ∨
      limits.outputTreeFileLimit < snapshot.entries.length ∨
      limits.outputTreeLimitBytes < (snapshot.entries.map TreeEntry.size).sum)
    .record
  checkAll (validateEntry snapshot) snapshot.entries

/-- `FrozenTree` -/
structure FrozenTree where
  snapshot : Snapshot
  files : List (String × Bytes)
deriving DecidableEq, Repr

/-- `dict(tree.files)[path]` -/
def FrozenTree.contents (tree : FrozenTree) (path : String) : Option Bytes :=
  (tree.files.reverse.find? fun file => file.1 = path).map Prod.snd

/-- The paths of the files of a snapshot. -/
def Snapshot.filePaths (snapshot : Snapshot) : List String :=
  (snapshot.entries.filter fun entry => entry.kind = .file).map TreeEntry.path

/-- `validate_tree` -/
def validateTree (digestBytes : Bytes → String) (tree : FrozenTree) (limits : RunnerConfig) :
    Except TreeError Unit := do
  raiseIf (¬ tree.snapshot.entries.all TreeEntry.valid) .model
  validateSnapshot tree.snapshot limits
  raiseIf (¬ (tree.files.map Prod.fst).Nodup ∨
      (tree.files.map Prod.fst).toFinset ≠ tree.snapshot.filePaths.toFinset)
    (.runner "tree bytes incomplete or duplicated")
  checkAll (fun entry => do
      let data ← orRaise (tree.contents entry.path) (.runner "tree bytes incomplete or duplicated")
      raiseIf (data.length ≠ entry.size ∨ some (digestBytes data) ≠ entry.digest)
        (.runner "tree bytes changed"))
    (tree.snapshot.entries.filter fun entry => entry.kind = .file)

/-! ## Section 3: Materialization -/

/-- The node of an entry; a file without bytes is a `KeyError`. -/
def FrozenTree.item (tree : FrozenTree) (entry : TreeEntry) :
    Option (TreeItem (List Char) Bytes) :=
  match entry.kind with
  | .directory => some ⟨entryPath entry.path, ⟨.directory, entry.mode⟩⟩
  | .file => (tree.contents entry.path).map fun bytes =>
      ⟨entryPath entry.path, ⟨.file bytes, entry.mode⟩⟩

/-- The operations of `materialize`. -/
def FrozenTree.operations (tree : FrozenTree) : Option (List (FileOp (List Char) Bytes)) :=
  (tree.snapshot.entries.mapM tree.item).map writing

/-- `FrozenTree.materialize` into a fresh root -/
def FrozenTree.materialize (u : Umask) (tree : FrozenTree) : Option (Files (List Char) Bytes) :=
  tree.operations.bind (runOps u (noFiles _ _))

/-! ## Section 4: Accepted trees -/

/-- What the checks establish of a snapshot. -/
structure Snapshot.Accepted (snapshot : Snapshot) : Prop where
  sorted : snapshot.entries.Pairwise fun a b => codePoints a.path < codePoints b.path
  root : ∃ root ∈ snapshot.entries, root.path = "." ∧ root.kind = .directory
  placed : ∀ entry ∈ snapshot.entries, entry.path = "." ∨
    isSafeRelativePath entry.path "" = true ∧ entry.path.toList.any isGlobChar = false ∧
      ∃ parent ∈ snapshot.entries, parent.path = parentOf entry.path ∧ parent.kind = .directory

/-- What the checks establish of a tree. -/
structure FrozenTree.Accepted (tree : FrozenTree) : Prop where
  sorted : tree.snapshot.entries.Pairwise fun a b => codePoints a.path < codePoints b.path
  root : ∃ root ∈ tree.snapshot.entries, root.path = "." ∧ root.kind = .directory
  placed : ∀ entry ∈ tree.snapshot.entries, entry.path = "." ∨
    isSafeRelativePath entry.path "" = true ∧
      ∃ parent ∈ tree.snapshot.entries, parent.path = parentOf entry.path ∧ parent.kind = .directory
  contents : ∀ entry ∈ tree.snapshot.entries, entry.kind = .file →
    ∃ bytes, tree.contents entry.path = some bytes

theorem mem_of_find {snapshot : Snapshot} {path : String} {entry : TreeEntry}
    (h : snapshot.find path = some entry) : entry ∈ snapshot.entries ∧ entry.path = path :=
  ⟨List.mem_of_find?_eq_some h, by simpa using List.find?_some h⟩

theorem accepted_of_validateSnapshot {snapshot : Snapshot} {limits : RunnerConfig}
    (h : validateSnapshot snapshot limits = .ok ()) : snapshot.Accepted := by
  simp only [validateSnapshot, Except.bind_eq_ok, raiseIf_eq_ok, not_or, not_not] at h
  obtain ⟨_, ⟨hdistinct, hsorted, hroot, _, _⟩, hentries⟩ := h
  rw [checkAll_eq_ok] at hentries
  -- a sorted list without repetitions ascends strictly
  have hascending : snapshot.entries.Pairwise
      fun a b => codePoints a.path < codePoints b.path := by
    apply ((List.pairwise_map.mp hsorted).and (List.pairwise_map.mp hdistinct)).imp
    intro a b hab
    exact lt_of_le_of_ne hab.1 fun heq => hab.2 (codePoints_injective heq)
  refine ⟨hascending, ?_, ?_⟩
  · cases hfind : snapshot.find "." with
    | none => simp [hfind] at hroot
    | some root =>
      obtain ⟨hmem, hpath⟩ := mem_of_find hfind
      exact ⟨root, hmem, hpath, by simpa [hfind] using hroot⟩
  · intro entry hentry
    have hplace := hentries entry hentry
    simp only [validateEntry, Except.bind_eq_ok, raiseIf_eq_ok] at hplace
    obtain ⟨_, _, _, _, hplace⟩ := hplace
    split at hplace
    · next hdot => exact Or.inl hdot
    · simp only [Except.bind_eq_ok, raiseIf_eq_ok, not_or] at hplace
      obtain ⟨_, ⟨hsafe, hplain⟩, hparent⟩ := hplace
      refine Or.inr ⟨by simpa using hsafe, by simpa using hplain, ?_⟩
      cases hfind : snapshot.find (parentOf entry.path) with
      | none => simp [hfind] at hparent
      | some parent =>
        obtain ⟨hmem, hpath⟩ := mem_of_find hfind
        exact ⟨parent, hmem, hpath, by simpa [hfind] using hparent⟩

theorem accepted_of_validateTree {digestBytes : Bytes → String} {tree : FrozenTree}
    {limits : RunnerConfig} (h : validateTree digestBytes tree limits = .ok ()) :
    tree.snapshot.Accepted ∧ tree.Accepted := by
  simp only [validateTree, Except.bind_eq_ok, raiseIf_eq_ok] at h
  obtain ⟨_, _, ⟨⟩, hsnapshot, _, _, hfiles⟩ := h
  rw [checkAll_eq_ok] at hfiles
  have haccepted := accepted_of_validateSnapshot hsnapshot
  refine ⟨haccepted, haccepted.sorted, haccepted.root, ?_, ?_⟩
  · intro entry hentry
    rcases haccepted.placed entry hentry with hdot | ⟨hsafe, _, hparent⟩
    · exact Or.inl hdot
    · exact Or.inr ⟨hsafe, hparent⟩
  · intro entry hentry hkind
    have hfile := hfiles entry (List.mem_filter.mpr ⟨hentry, by simpa using hkind⟩)
    obtain ⟨bytes, hbytes, _⟩ := (Except.bind_eq_ok _ _ _).mp hfile
    exact ⟨bytes, (orRaise_eq_ok _ _ _).mp hbytes⟩

/-! ## Section 5: The order of the paths -/

/-- A list comes before every longer one that begins with it. -/
theorem lt_append_cons (front : List ℕ) (n : ℕ) (rest : List ℕ) :
    front < front ++ n :: rest := by
  induction front with
  | nil => exact List.nil_lt_cons n rest
  | cons m front ih => exact List.cons_lt_cons_self.mpr ih

section Order

variable {tree : FrozenTree}

/-- A safe path is none of the root, and has parts. -/
theorem entryPath_of_safe {path : String} (h : path ≠ ".") :
    entryPath path = splitOn '/' path.toList ∧ entryPath path ≠ [] ∧
      joinParts (entryPath path) = path.toList := by
  have hpath : entryPath path = splitOn '/' path.toList := if_neg h
  exact ⟨hpath, hpath ▸ splitOn_ne_nil _ _, by rw [hpath, joinParts_splitOn]⟩

theorem entryPath_eq_nil_iff {path : String} : entryPath path = [] ↔ path = "." := by
  constructor
  · intro h
    by_contra hpath
    exact (entryPath_of_safe hpath).2.1 h
  · rintro rfl
    rfl

theorem entryPath_injective : Function.Injective entryPath := by
  intro a b h
  by_cases ha : a = "."
  · subst ha
    exact (entryPath_eq_nil_iff.mp h.symm).symm
  · have hb : b ≠ "." := by
      rintro rfl
      exact ha (entryPath_eq_nil_iff.mp h)
    have hchars : a.toList = b.toList := by
      rw [← (entryPath_of_safe ha).2.2, ← (entryPath_of_safe hb).2.2, h]
    exact String.toList_injective hchars

/-- A path below another one comes after it, except below the root. -/
theorem lt_of_above {a b : String} (ha : a ≠ ".") (h : Above (entryPath a) (entryPath b)) :
    codePoints a < codePoints b := by
  obtain ⟨c, rest, hparts⟩ := h
  have hb : b ≠ "." := by
    rintro rfl
    have hnil : entryPath "." = [] := rfl
    rw [hnil] at hparts
    simp at hparts
  have hchars : b.toList = a.toList ++ '/' :: joinParts (c :: rest) := by
    rw [← (entryPath_of_safe hb).2.2, hparts,
      joinParts_append (entryPath_of_safe ha).2.1 (by simp), (entryPath_of_safe ha).2.2]
  rw [codePoints, codePoints, hchars, List.map_append, List.map_cons]
  exact lt_append_cons _ _ _

/-- The parent of a safe path has all its parts but the last. -/
theorem entryPath_parentOf {path : String} (hsafe : isSafeRelativePath path "" = true) :
    entryPath (parentOf path) = (splitOn '/' path.toList).dropLast := by
  have hparts : ∀ part ∈ splitOn '/' path.toList, part ≠ ['.'] := by
    simp only [isSafeRelativePath, Bool.and_eq_true, List.all_eq_true] at hsafe
    intro part hpart
    have hcheck := hsafe.1.2 part hpart
    simpa using hcheck.1.2
  have hinit : ∀ part ∈ (splitOn '/' path.toList).dropLast, part ∈ splitOn '/' path.toList :=
    fun part hpart => List.mem_of_mem_dropLast hpart
  unfold parentOf
  cases hdrop : (splitOn '/' path.toList).dropLast with
  | nil => rfl
  | cons first rest =>
    have hsplit : splitOn '/' (joinParts (first :: rest)) = first :: rest := by
      apply splitOn_joinParts (by simp)
      intro part hpart
      exact notMem_splitOn (hinit part (hdrop ▸ hpart))
    -- the parts are not the single dot, so neither is their path
    have hdot : String.ofList (joinParts (first :: rest)) ≠ "." := by
      intro heq
      have hchars : joinParts (first :: rest) = ['.'] := by
        rw [← String.toList_ofList (l := joinParts _), heq]
        rfl
      rw [hchars] at hsplit
      have hmem : ['.'] ∈ first :: rest := by
        rw [← hsplit]
        exact List.mem_singleton_self _
      exact hparts _ (hinit _ (hdrop ▸ hmem)) rfl
    show entryPath (String.ofList (joinParts (first :: rest))) = first :: rest
    rw [(entryPath_of_safe hdot).1, String.toList_ofList, hsplit]

/-- Every proper ancestor of an entry is a directory of the snapshot, when the parent of every entry
is one. -/
theorem exists_ancestor {snapshot : Snapshot}
    (hplaced : ∀ entry ∈ snapshot.entries, entry.path = "." ∨
      isSafeRelativePath entry.path "" = true ∧ ∃ parent ∈ snapshot.entries,
        parent.path = parentOf entry.path ∧ parent.kind = .directory)
    {entry : TreeEntry} (hentry : entry ∈ snapshot.entries) {p : List (List Char)}
    (hp : Above p (entryPath entry.path)) :
    ∃ parent ∈ snapshot.entries, entryPath parent.path = p ∧ parent.kind = .directory := by
  -- by induction on the number of parts of the entry
  generalize hn : (entryPath entry.path).length = n
  induction n using Nat.strongRecOn generalizing entry with
  | ind n ih =>
    obtain ⟨c, rest, hparts⟩ := hp
    rcases hplaced entry hentry with hroot | ⟨hsafe, parent, hparent, hpath, hkind⟩
    · rw [hroot, show entryPath "." = [] from rfl] at hparts
      simp at hparts
    have hdot : entry.path ≠ "." := by
      intro heq
      rw [heq, show entryPath "." = [] from rfl] at hparts
      simp at hparts
    have hup : entryPath parent.path = (entryPath entry.path).dropLast := by
      rw [hpath, entryPath_parentOf hsafe, (entryPath_of_safe hdot).1]
    rw [hparts] at hup
    rcases List.eq_nil_or_concat rest with rfl | ⟨init, last, rfl⟩
    · refine ⟨parent, hparent, ?_, hkind⟩
      rw [hup, List.dropLast_concat]
    · have hshort : entryPath parent.path = p ++ c :: init := by
        rw [hup, List.concat_eq_append, ← List.cons_append, ← List.append_assoc,
          List.dropLast_concat]
      have hless : (entryPath parent.path).length < n := by
        rw [← hn, hshort, hparts]
        simp
      exact ih _ hless hparent ⟨c, init, hshort⟩ rfl

theorem FrozenTree.Accepted.ancestor (h : tree.Accepted) {entry : TreeEntry}
    (hentry : entry ∈ tree.snapshot.entries) {p : List (List Char)}
    (hp : Above p (entryPath entry.path)) :
    ∃ parent ∈ tree.snapshot.entries, entryPath parent.path = p ∧ parent.kind = .directory :=
  exists_ancestor h.placed hentry hp

theorem Snapshot.Accepted.ancestor {snapshot : Snapshot} (h : snapshot.Accepted)
    {entry : TreeEntry} (hentry : entry ∈ snapshot.entries) {p : List (List Char)}
    (hp : Above p (entryPath entry.path)) :
    ∃ parent ∈ snapshot.entries, entryPath parent.path = p ∧ parent.kind = .directory := by
  apply exists_ancestor _ hentry hp
  intro other hother
  rcases h.placed other hother with hdot | ⟨hsafe, _, hparent⟩
  · exact Or.inl hdot
  · exact Or.inr ⟨hsafe, hparent⟩

/-- An accepted snapshot has one entry at a path. -/
theorem Snapshot.Accepted.distinct {snapshot : Snapshot} (h : snapshot.Accepted)
    {a b : TreeEntry} (ha : a ∈ snapshot.entries) (hb : b ∈ snapshot.entries)
    (hpath : a.path = b.path) : a = b := by
  apply List.inj_on_of_nodup_map _ ha hb hpath
  apply List.pairwise_map.mpr
  apply h.sorted.imp
  intro x y hless heq
  exact hless.ne (congrArg codePoints heq)

/-! ## Section 6: Materialization -/

/-- The node that an entry records. -/
def FrozenTree.recorded (tree : FrozenTree) (entry : TreeEntry) : Node Bytes :=
  match entry.kind with
  | .directory => ⟨.directory, entry.mode⟩
  | .file => ⟨.file ((tree.contents entry.path).getD []), entry.mode⟩

/-- The entries of an accepted tree as nodes at their paths. -/
def FrozenTree.items (tree : FrozenTree) : List (TreeItem (List Char) Bytes) :=
  tree.snapshot.entries.map fun entry => ⟨entryPath entry.path, tree.recorded entry⟩

theorem FrozenTree.Accepted.operations_eq (h : tree.Accepted) :
    tree.operations = some (writing tree.items) := by
  have hitems : tree.snapshot.entries.mapM tree.item = some tree.items := by
    rw [FrozenTree.items]
    have hcontents := h.contents
    generalize tree.snapshot.entries = entries at hcontents
    induction entries with
    | nil => rfl
    | cons entry entries ih =>
      have hitem : tree.item entry = some ⟨entryPath entry.path, tree.recorded entry⟩ := by
        rw [FrozenTree.item, FrozenTree.recorded]
        cases hkind : entry.kind with
        | directory => rfl
        | file =>
          obtain ⟨bytes, hbytes⟩ := hcontents entry List.mem_cons_self hkind
          simp [hbytes]
      have hrest := ih fun e he => hcontents e (List.mem_cons_of_mem _ he)
      rw [List.mapM_cons, hitem, hrest]
      rfl
  rw [FrozenTree.operations, hitems, Option.map_some]

theorem recorded_content_of_directory {entry : TreeEntry} (h : entry.kind = .directory) :
    (tree.recorded entry).content = .directory := by
  rw [FrozenTree.recorded, h]

theorem FrozenTree.Accepted.distinct (h : tree.Accepted) {a b : TreeEntry}
    (ha : a ∈ tree.snapshot.entries) (hb : b ∈ tree.snapshot.entries) (hpath : a.path = b.path) :
    a = b := by
  apply List.inj_on_of_nodup_map _ ha hb hpath
  apply List.pairwise_map.mpr
  apply h.sorted.imp
  intro x y hless heq
  exact hless.ne (congrArg codePoints heq)

theorem FrozenTree.Accepted.isTree (h : tree.Accepted) : IsTree tree.items := by
  constructor
  · rw [FrozenTree.items, List.map_map]
    apply List.pairwise_map.mpr
    apply h.sorted.imp
    intro a b hless heq
    exact hless.ne (congrArg codePoints (entryPath_injective heq))
  · intro item hitem hpath
    obtain ⟨entry, hentry, rfl⟩ := List.mem_map.mp hitem
    obtain ⟨root, hroot, hdot, hkind⟩ := h.root
    have hsame : entry.path = root.path := (entryPath_eq_nil_iff.mp hpath).trans hdot.symm
    rw [h.distinct hentry hroot hsame]
    exact recorded_content_of_directory hkind

/-- The directories above an entry stand before it. -/
theorem FrozenTree.Accepted.topDown (h : tree.Accepted) : TopDown tree.items := by
  intro done item rest hsplit p hp
  obtain ⟨before, after, hentries, rfl, hafter⟩ := List.map_eq_append_iff.mp hsplit
  obtain ⟨entry, after', rfl, rfl, rfl⟩ := List.map_eq_cons_iff.mp hafter
  have hsorted := h.sorted
  have hentry : entry ∈ tree.snapshot.entries := by simp [hentries]
  obtain ⟨parent, hparent, rfl, hkind⟩ := h.ancestor hentry hp
  by_cases hdot : parent.path = "."
  · exact Or.inl (entryPath_eq_nil_iff.mpr hdot)
  · right
    have hless := lt_of_above hdot hp
    rw [hentries] at hparent hsorted
    rcases List.mem_append.mp hparent with hbefore | hlater
    · exact ⟨_, List.mem_map_of_mem hbefore, rfl, recorded_content_of_directory hkind⟩
    · -- what stands behind the entry does not sort before it
      exfalso
      rcases List.mem_cons.mp hlater with rfl | hbehind
      · exact lt_irrefl _ hless
      · have hsecond := (List.pairwise_append.mp hsorted).2.1
        exact lt_asymm hless ((List.pairwise_cons.mp hsecond).1 parent hbehind)

/-- In the opposite order the directories stand behind their entries, when no path sorts before that
of the root, and only then. -/
theorem FrozenTree.Accepted.bottomUp_iff (h : tree.Accepted) :
    BottomUp tree.items.reverse ↔
      ∀ entry ∈ tree.snapshot.entries, codePoints "." ≤ codePoints entry.path := by
  let place : TreeEntry → TreeItem (List Char) Bytes :=
    fun entry => ⟨entryPath entry.path, tree.recorded entry⟩
  rw [FrozenTree.items, ← List.map_reverse]
  constructor
  · intro hup entry hentry
    by_contra hless
    rw [not_le] at hless
    obtain ⟨root, hroot, hdot, _⟩ := h.root
    obtain ⟨done, rest, hsplit⟩ := List.append_of_mem (List.mem_reverse.mpr hroot)
    have hdescending := List.pairwise_reverse.mpr h.sorted
    rw [hsplit] at hdescending
    -- in the opposite order an entry that sorts before the root stands behind it
    have hbehind : entry ∈ rest := by
      have hmem := List.mem_reverse.mpr hentry
      rw [hsplit] at hmem
      rcases List.mem_append.mp hmem with hdone | hlater
      · have hafter := (List.pairwise_append.mp hdescending).2.2 entry hdone root List.mem_cons_self
        rw [hdot] at hafter
        exact absurd hafter (lt_asymm hless)
      · rcases List.mem_cons.mp hlater with rfl | hrest
        · rw [hdot] at hless
          exact absurd hless (lt_irrefl _)
        · exact hrest
    have hnotRoot : entry.path ≠ "." := by
      intro heq
      rw [heq] at hless
      exact lt_irrefl _ hless
    obtain ⟨c, parts, hparts⟩ := List.exists_cons_of_ne_nil (entryPath_of_safe hnotRoot).2.1
    have hitems : tree.snapshot.entries.reverse.map place =
        done.map place ++ place root :: rest.map place := by
      rw [hsplit, List.map_append, List.map_cons]
    apply hup _ _ _ hitems (place entry) (List.mem_map_of_mem hbehind)
    refine ⟨c, parts, ?_⟩
    rw [show (place root).path = [] from entryPath_eq_nil_iff.mpr hdot, List.nil_append]
    exact hparts
  · intro hroot done item rest hsplit below hbelow habove
    obtain ⟨before, after, hentries, rfl, hafter⟩ := List.map_eq_append_iff.mp hsplit
    obtain ⟨entry, after', rfl, rfl, rfl⟩ := List.map_eq_cons_iff.mp hafter
    obtain ⟨lower, hlower, rfl⟩ := List.mem_map.mp hbelow
    have hdescending := List.pairwise_reverse.mpr h.sorted
    rw [hentries] at hdescending
    have hless : codePoints lower.path < codePoints entry.path :=
      (List.pairwise_cons.mp (List.pairwise_append.mp hdescending).2.1).1 lower hlower
    by_cases hdot : entry.path = "."
    · have hmem : lower ∈ tree.snapshot.entries := by
        rw [← List.mem_reverse, hentries]
        simp [hlower]
      rw [hdot] at hless
      exact absurd hless (hroot lower hmem).not_gt
    · exact lt_asymm hless (lt_of_above hdot habove)

/-- The tree is written as it was accepted: every directory before what is below it, every mode of a
directory after those below it, no operation fails, and every entry ends with its kind, its bytes
and its mode. -/
def Materializes (u : Umask) (tree : FrozenTree) : Prop :=
  ∃ operations files, tree.operations = some operations ∧ CreatesTopDown operations ∧
    ChangesBottomUp operations ∧ tree.materialize u = some files ∧
    ∀ entry ∈ tree.snapshot.entries, files (entryPath entry.path) = some (tree.recorded entry)

/-- **When materialization follows the tree.** For every accepted tree and every mask of the
process, `materialize` into a fresh root writes the tree as it was accepted exactly when no path of
the tree sorts before the path of the root. -/
theorem materialize_iff {digestBytes : Bytes → String} {limits : RunnerConfig} (u : Umask)
    (h : validateTree digestBytes tree limits = .ok ()) :
    Materializes u tree ↔
      ∀ entry ∈ tree.snapshot.entries, codePoints "." ≤ codePoints entry.path := by
  have haccepted := (accepted_of_validateTree h).2
  have hoperations := haccepted.operations_eq
  rw [← haccepted.bottomUp_iff, ← changesBottomUp_writing]
  constructor
  · rintro ⟨operations, files, heq, _, hup, _⟩
    rw [hoperations, Option.some.injEq] at heq
    rw [heq]
    exact hup
  · intro hup
    obtain ⟨files, hrun, hnodes⟩ := run_writing (u := u) haccepted.isTree haccepted.topDown
      (changesBottomUp_writing.mp hup)
    refine ⟨_, files, hoperations, createsTopDown_writing haccepted.topDown, hup, ?_, ?_⟩
    · rw [FrozenTree.materialize, hoperations, Option.bind_some, hrun]
    · intro entry hentry
      exact hnodes _ (List.mem_map_of_mem hentry)

end Order

/-! ## Section 7: A path before the root -/

/-- A digest of bytes that is the same for all of them. -/
def sampleDigest : Bytes → String :=
  fun _ => "sha256:0000000000000000000000000000000000000000000000000000000000000000"

def sampleConfig : RunnerConfig := ⟨300, 4096, 4096, 4096, 10⟩

/-- The usual mask. -/
def sampleMask : Umask := ⟨0o022, rfl⟩

/-- A tree of one empty file below a root that its owner may not search. -/
def lonelyTree (name : String) : FrozenTree where
  snapshot := ⟨[
    ⟨name, .file, 0o644, some (sampleDigest []), 0⟩,
    ⟨".", .directory, 0o600, none, 0⟩].insertionSort
      fun a b => codePoints a.path ≤ codePoints b.path⟩
  files := [(name, [])]

/-- `-x` sorts before the root, so the root loses its permissions before `-x` gets its mode. -/
theorem materialize_fails_before_root :
    validateTree sampleDigest (lonelyTree "-x") sampleConfig = .ok () ∧
      ((lonelyTree "-x").materialize sampleMask).isNone = true ∧
      ¬ Materializes sampleMask (lonelyTree "-x") := by
  have hfails : ((lonelyTree "-x").materialize sampleMask).isNone = true := by decide +kernel
  refine ⟨by decide +kernel, hfails, ?_⟩
  rintro ⟨_, files, _, _, _, hfiles, _⟩
  rw [hfiles] at hfails
  exact absurd hfails (by simp)

theorem materialize_iff_sample : Materializes sampleMask (lonelyTree "x") :=
  (@materialize_iff (lonelyTree "x") sampleDigest sampleConfig sampleMask (by decide +kernel)).mpr
    (by decide +kernel)

end ContractCapsule.Twin
