import ContractCapsule.Library.Drain
import ContractCapsule.Library.Sorting
import ContractCapsule.Library.Unicode
import ContractCapsule.Twin.Trees
import Mathlib.Algebra.BigOperators.Group.List.Basic
import Mathlib.Data.Prod.Lex

/-!
# Trees of a Git Repository

`swap/source.py`: `_walk` reads the tree objects of a commit from an object store that nobody
vouches for. The store may name a tree below itself, or one tree in many places, so the walk keeps
no record of the trees it has seen, and ends because of the limit on entries.

`walk_exact` says that the walk ends with every store, and that the tree it returns holds exactly
the blobs below the root, within the limits.
-/

namespace ContractCapsule.Twin

open Library Models Relation

/-! ## Section 1: Objects -/

/-- The kinds of objects that the walk reads. -/
inductive ObjectKind where
  | tree
  | blob
deriving DecidableEq, Repr

/-- The name of a kind, as `git cat-file` takes it. -/
def ObjectKind.name : ObjectKind → String
  | .tree => "tree"
  | .blob => "blob"

/-- An object store as `git cat-file` shows it, and the digests that object ids are compared with.
A read may fail at any object; it gives the object whole or fails. -/
structure ObjectStore where
  content : ObjectKind → String → Option Bytes
  read : ObjectKind → String → ℕ → Option Bytes
  sha1 : Bytes → String
  sha256 : Bytes → String
  exact : ∀ {kind id limit data}, read kind id limit = some data → content kind id = some data
  bounded : ∀ {kind id limit data}, read kind id limit = some data → data.length ≤ limit

/-- The bytes of an ASCII text. -/
def asciiBytes (text : String) : Bytes := text.toList.map fun c => UInt8.ofNat c.toNat

/-- `digest_bytes` -/
def ObjectStore.digestBytes (store : ObjectStore) (data : Bytes) : String :=
  "sha256:" ++ store.sha256 data

/-- `_object` -/
def ObjectStore.object (store : ObjectStore) (kind : ObjectKind) (objectId : String) (limit : ℕ) :
    Except TreeError Bytes := do
  let data ← orRaise (store.read kind objectId limit) (.runner "bounded command failed")
  let encoded := asciiBytes (kind.name ++ " " ++ toString data.length) ++ 0 :: data
  let hexdigest := if objectId.length = 40 then store.sha1 encoded else store.sha256 encoded
  raiseIf (hexdigest ≠ objectId) (.runner "Git object digest mismatch")
  .ok data

/-! ## Section 2: Tree objects -/

/-- What precedes the first such byte, and what follows it. -/
def cutAt (b : UInt8) : Bytes → Option (Bytes × Bytes)
  | [] => none
  | x :: xs => if x = b then some ([], xs) else (cutAt b xs).map fun cut => (x :: cut.1, cut.2)

/-- `Py_ISSPACE` -/
def isAsciiSpace (b : UInt8) : Bool := (9 ≤ b.toNat && b.toNat ≤ 13) || b.toNat == 32

/-- Octal digits with single underscores between them; the flag says that a digit has to follow. -/
def octalValue : ℕ → Bool → Bytes → Option ℕ
  | value, digitNext, [] => if digitNext then none else some value
  | value, digitNext, b :: rest =>
    if b = 0x5F then
      if digitNext then none else octalValue value true rest
    else if 0x30 ≤ b.toNat ∧ b.toNat ≤ 0x37 then
      octalValue (value * 8 + (b.toNat - 0x30)) false rest
    else none

/-- Drop `0o` or `0O`, and one underscore behind it. -/
def dropOctalMark : Bytes → Bytes
  | 0x30 :: o :: rest =>
    if o = 0x6F ∨ o = 0x4F then
      match rest with
      | 0x5F :: digits => digits
      | digits => digits
    else 0x30 :: o :: rest
  | digits => digits

/-- `int(text, 8)` of bytes -/
def octalInt (text : Bytes) : Option ℤ :=
  let text := ((text.dropWhile isAsciiSpace).reverse.dropWhile isAsciiSpace).reverse
  match text with
  | 0x2D :: digits => (octalValue 0 true (dropOctalMark digits)).map fun n => -(n : ℤ)
  | 0x2B :: digits => (octalValue 0 true (dropOctalMark digits)).map fun n => (n : ℤ)
  | digits => (octalValue 0 true (dropOctalMark digits)).map fun n => (n : ℤ)

/-- `raw.decode("utf-8")` -/
def decodeName (raw : Bytes) : Option String :=
  ((utf8 false).decode raw).map fun text => String.ofList (text.map fun c => Char.ofNat c.val)

/-- The hexadecimal digit of a number below 16. -/
def hexDigitOf (n : ℕ) : Char := if n < 10 then Char.ofNat (0x30 + n) else Char.ofNat (0x57 + n)

/-- `raw.hex()` -/
def hexOf (raw : Bytes) : String :=
  String.ofList (raw.flatMap fun b => [hexDigitOf (b.toNat / 16), hexDigitOf (b.toNat % 16)])

/-- What `_entries` yields for an entry of a tree object. -/
structure GitEntry where
  name : String
  mode : ℕ
  oid : String
  directory : Bool
deriving DecidableEq, Repr

/-- The checks of `_entries` on the parts of an entry. -/
def gitEntry (mode rawName rawOid : Bytes) : Option GitEntry := do
  let name ← decodeName rawName
  let number ← octalInt mode
  if number ≠ 0o40000 ∧ number ≠ 0o100644 ∧ number ≠ 0o100755 then none
  else if isSafeRelativePath name "" = false ∨ '/' ∈ name.toList ∨ '\\' ∈ name.toList then none
  else pure {
    name
    mode := if number = 0o40000 then 0o755 else number.toNat &&& 0o777
    oid := hexOf rawOid
    directory := number = 0o40000 }

/-- The entry in front of the bytes of a tree object. -/
def nextEntry (oidSize : ℕ) (data : Bytes) : Option (GitEntry × Bytes) := do
  let (header, rest) ← cutAt 0 data
  let (mode, rawName) ← cutAt 0x20 header
  let rawOid := rest.take oidSize
  let entry ← gitEntry mode rawName rawOid
  if rawOid.length ≠ oidSize then none else pure (entry, rest.drop oidSize)

/-- The entries one after another, at most so many, and the error that ends them. -/
def entriesWithin (oidSize : ℕ) : ℕ → Bytes → List (Except TreeError GitEntry)
  | _, [] => []
  | 0, _ :: _ => []
  | fuel + 1, b :: data =>
    match nextEntry oidSize (b :: data) with
    | none => [.error (.runner "unsupported or unsafe Git tree entry")]
    | some (entry, rest) => .ok entry :: entriesWithin oidSize fuel rest

/-- `_entries`, as what the generator yields and what it raises at last -/
def treeEntries (oidSize : ℕ) (data : Bytes) : List (Except TreeError GitEntry) :=
  entriesWithin oidSize data.length data

/-! ## Section 3: The walk -/

/-- The lists and the budgets of `_walk`. -/
structure WalkState where
  entries : List TreeEntry
  files : List (String × Bytes)
  remaining : ℕ
  metadata : ℕ

/-- A directory that was found: what its paths begin with, and its object. -/
abbrev PendingTree := String × String

section Walk

variable (store : ObjectStore) (config : RunnerConfig)

/-- The entry of a directory in the snapshot. -/
def directoryEntry (path : String) (mode : ℕ) : TreeEntry := ⟨path, .directory, mode, none, 0⟩

/-- The entry of a file in the snapshot. -/
def ObjectStore.fileEntry (path : String) (mode : ℕ) (blob : Bytes) : TreeEntry :=
  ⟨path, .file, mode, some (store.digestBytes blob), blob.length⟩

/-- `TreeEntry(…)`, which pydantic checks -/
def checkedEntry (entry : TreeEntry) : Except TreeError TreeEntry := do
  raiseIf (¬ entry.valid) .model
  .ok entry

/-- The body of the inner loop of `_walk`. -/
def addEntry (dir : String) (found : List PendingTree × WalkState)
    (item : Except TreeError GitEntry) : Except TreeError (List PendingTree × WalkState) := do
  let item ← item
  let (pending, s) := found
  let path := dir ++ item.name
  raiseIf (config.outputTreeFileLimit ≤ s.entries.length) (.runner "source entry limit")
  if item.directory then do
    let entry ← checkedEntry (directoryEntry path item.mode)
    .ok ((path ++ "/", item.oid) :: pending, { s with entries := s.entries ++ [entry] })
  else do
    let blob ← store.object .blob item.oid s.remaining
    let entry ← checkedEntry (store.fileEntry path item.mode blob)
    .ok (pending, { s with
      entries := s.entries ++ [entry]
      files := s.files ++ [(path, blob)]
      remaining := s.remaining - blob.length })

/-- The body of the outer loop of `_walk`. -/
def visitTree (oidSize : ℕ) (place : PendingTree) (s : WalkState) :
    Except TreeError (List PendingTree × WalkState) := do
  let data ← store.object .tree place.2 s.metadata
  (treeEntries oidSize data).foldlM (addEntry store config place.1)
    ([], { s with metadata := s.metadata - data.length })

/-- The lists and the budgets at the start. -/
def startWalk : WalkState where
  entries := [directoryEntry "." 0o755]
  files := []
  remaining := config.outputTreeLimitBytes
  metadata := config.outputTreeFileLimit * 8192

/-- How tuples of a path and bytes compare. -/
def fileKey (file : String × Bytes) : List ℕ ×ₗ List ℕ :=
  toLex (codePoints file.1, file.2.map UInt8.toNat)

/-- The end of `_walk`. -/
def frozenTree (s : WalkState) : Except TreeError FrozenTree := do
  let result : FrozenTree :=
    ⟨⟨sortBy (fun entry => codePoints entry.path) s.entries⟩, sortBy fileKey s.files⟩
  validateTree store.digestBytes result config
  .ok result

/-- `_walk`, with at most so many tree objects -/
def walk (fuel : ℕ) (treeId : String) : Option (Except TreeError FrozenTree) :=
  (drain (visitTree store config (treeId.length / 2)) fuel [("", treeId)] (startWalk config)).map
    fun ended => ended >>= frozenTree store config

end Walk

/-! ## Section 4: The format of tree objects -/

/-- The bytes of a tree object with these entries: for each a mode, a space, a name, a NUL and the
bytes of an object id. -/
inductive TreeData (oidSize : ℕ) : Bytes → List GitEntry → Prop where
  | nil : TreeData oidSize [] []
  | cons {mode rawName rawOid rest : Bytes} {entry : GitEntry} {entries : List GitEntry} :
      0x20 ∉ mode → 0 ∉ mode → 0 ∉ rawName → rawOid.length = oidSize →
      gitEntry mode rawName rawOid = some entry → TreeData oidSize rest entries →
      TreeData oidSize (mode ++ 0x20 :: rawName ++ 0 :: rawOid ++ rest) (entry :: entries)

theorem cutAt_eq_some {b : UInt8} {data front back : Bytes} :
    cutAt b data = some (front, back) ↔ data = front ++ b :: back ∧ b ∉ front := by
  induction data generalizing front with
  | nil => simp [cutAt]
  | cons x xs ih =>
    rw [cutAt]
    split
    -- the separator stands in front: the cut is here, and nowhere later
    · next hx =>
      subst hx
      cases front with
      | nil => simp
      | cons y front =>
        simp only [Option.some.injEq, Prod.mk.injEq, List.cons_append, List.cons.injEq,
          List.mem_cons, not_or]
        apply iff_of_false (fun h => List.cons_ne_nil y front h.1.symm)
        intro h
        exact h.2.1 h.1.1
    -- the cut is behind this byte, where the rest is cut
    · next hx =>
      cases front with
      | nil =>
        simp only [Option.map_eq_some_iff, Prod.mk.injEq, List.nil_append, List.cons.injEq]
        apply iff_of_false
        · intro h
          obtain ⟨cut, _, hcut, _⟩ := h
          exact List.cons_ne_nil _ _ hcut
        · intro h
          exact hx h.1.1
      | cons y front =>
        have htail := @ih front
        simp only [Option.map_eq_some_iff, Prod.mk.injEq, List.cons_append, List.cons.injEq,
          List.mem_cons, not_or]
        constructor
        · intro h
          obtain ⟨⟨front', back'⟩, hcut, ⟨rfl, rfl⟩, rfl⟩ := h
          obtain ⟨hxs, hfront⟩ := htail.mp hcut
          exact ⟨⟨rfl, hxs⟩, fun heq => hx heq.symm, hfront⟩
        · intro h
          obtain ⟨⟨rfl, hxs⟩, _, hfront⟩ := h
          exact ⟨(front, back), htail.mpr ⟨hxs, hfront⟩, ⟨rfl, rfl⟩, rfl⟩

/-- What is read in front is an entry of the format. -/
theorem nextEntry_eq_some {oidSize : ℕ} {data rest : Bytes} {entry : GitEntry} :
    nextEntry oidSize data = some (entry, rest) ↔
      ∃ mode rawName rawOid, data = mode ++ 0x20 :: rawName ++ 0 :: rawOid ++ rest ∧
        0x20 ∉ mode ∧ 0 ∉ mode ∧ 0 ∉ rawName ∧ rawOid.length = oidSize ∧
          gitEntry mode rawName rawOid = some entry := by
  simp only [nextEntry, Option.bind_eq_bind, Option.bind_eq_some_iff]
  constructor
  -- the header ends at the first NUL, and its mode at the first space
  · intro h
    obtain ⟨⟨header, tail⟩, hheader, ⟨mode, rawName⟩, hmode, entry', hentry, hrest⟩ := h
    obtain ⟨rfl, hnul⟩ := cutAt_eq_some.mp hheader
    obtain ⟨rfl, hspace⟩ := cutAt_eq_some.mp hmode
    split at hrest
    · cases hrest
    · next hlength =>
      rw [Option.pure_def, Option.some.injEq, Prod.mk.injEq] at hrest
      obtain ⟨rfl, rfl⟩ := hrest
      rw [List.mem_append, List.mem_cons, not_or, not_or] at hnul
      refine ⟨mode, rawName, tail.take oidSize, ?_, hspace, hnul.1, hnul.2.2, ?_, hentry⟩
      · simp [List.take_append_drop]
      · simpa using hlength
  -- no NUL before and no space in the mode: the cuts are at these places
  · intro h
    obtain ⟨mode, rawName, rawOid, rfl, hspace, hmode, hname, hlength, hentry⟩ := h
    have hheader : (0 : UInt8) ∉ mode ++ 0x20 :: rawName := by
      rw [List.mem_append, List.mem_cons, not_or, not_or]
      exact ⟨hmode, by decide, hname⟩
    have htake : (rawOid ++ rest).take oidSize = rawOid := by rw [← hlength, List.take_left']; rfl
    have hdrop : (rawOid ++ rest).drop oidSize = rest := by rw [← hlength, List.drop_left']; rfl
    refine ⟨(mode ++ 0x20 :: rawName, rawOid ++ rest), cutAt_eq_some.mpr ⟨?_, hheader⟩,
      (mode, rawName), cutAt_eq_some.mpr ⟨rfl, hspace⟩, entry, ?_, ?_⟩
    · simp
    · rw [htake, hentry]
    · rw [htake, hdrop, if_neg (not_not.mpr hlength), Option.pure_def]

theorem nextEntry_shorter {oidSize : ℕ} {data rest : Bytes} {entry : GitEntry}
    (h : nextEntry oidSize data = some (entry, rest)) : rest.length < data.length := by
  obtain ⟨mode, rawName, rawOid, rfl, _⟩ := nextEntry_eq_some.mp h
  simp only [List.length_append, List.length_cons]
  omega

/-- No bytes are the data of no entries. -/
theorem treeData_nil_iff {oidSize : ℕ} {entries : List GitEntry} :
    TreeData oidSize [] entries ↔ entries = [] := by
  constructor
  · intro h
    generalize hdata : ([] : Bytes) = data at h
    cases h with
    | nil => rfl
    | cons => simp at hdata
  · intro h
    exact h ▸ TreeData.nil

/-- Other bytes are the entry in front and the data of the rest. -/
theorem treeData_cons_iff {oidSize : ℕ} {b : UInt8} {data : Bytes} {entries : List GitEntry} :
    TreeData oidSize (b :: data) entries ↔ ∃ entry rest later,
      nextEntry oidSize (b :: data) = some (entry, rest) ∧ TreeData oidSize rest later ∧
        entries = entry :: later := by
  constructor
  · intro h
    generalize hdata : b :: data = whole at h
    cases h with
    | nil => cases hdata
    | cons hspace hmode hname hlength hentry hrest =>
      exact ⟨_, _, _, nextEntry_eq_some.mpr
        ⟨_, _, _, rfl, hspace, hmode, hname, hlength, hentry⟩, hrest, rfl⟩
  · intro h
    obtain ⟨entry, rest, later, hnext, hrest, rfl⟩ := h
    obtain ⟨mode, rawName, rawOid, heq, hspace, hmode, hname, hlength, hentry⟩ :=
      nextEntry_eq_some.mp hnext
    rw [heq]
    exact TreeData.cons hspace hmode hname hlength hentry hrest

/-- The generator yields the entries of the format, and raises at last on all other bytes. -/
theorem entriesWithin_eq_iff {oidSize fuel : ℕ} {data : Bytes} (hfuel : data.length ≤ fuel)
    {entries : List GitEntry} :
    entriesWithin oidSize fuel data = entries.map Except.ok ↔ TreeData oidSize data entries := by
  induction fuel generalizing data entries with
  | zero =>
    have hnil : data = [] := List.eq_nil_of_length_eq_zero (by omega)
    rw [hnil, entriesWithin, treeData_nil_iff, eq_comm, List.map_eq_nil_iff]
  | succ fuel ih =>
    cases data with
    | nil => rw [entriesWithin, treeData_nil_iff, eq_comm, List.map_eq_nil_iff]
    | cons b data =>
      rw [entriesWithin, treeData_cons_iff]
      -- the generator goes on behind the entry it read, which left fewer bytes
      cases hnext : nextEntry oidSize (b :: data) with
      | none =>
        apply iff_of_false
        · intro h
          obtain ⟨entry, later, _, hraise, _⟩ := List.map_eq_cons_iff.mp h.symm
          cases hraise
        · intro h
          obtain ⟨entry, rest, later, hsome, _⟩ := h
          cases hsome
      | some found =>
        obtain ⟨entry, rest⟩ := found
        have hshorter := nextEntry_shorter hnext
        rw [List.length_cons] at hshorter hfuel
        have htail : ∀ later, entriesWithin oidSize fuel rest = later.map Except.ok ↔
            TreeData oidSize rest later := fun later => ih (by omega)
        constructor
        · intro h
          obtain ⟨entry', later, rfl, hentry, hlater⟩ := List.map_eq_cons_iff.mp h.symm
          rw [Except.ok.inj hentry]
          exact ⟨entry, rest, later, rfl, (htail later).mp hlater.symm, rfl⟩
        · intro h
          obtain ⟨entry', rest', later, hfound, hlater, rfl⟩ := h
          rw [Option.some.injEq, Prod.mk.injEq] at hfound
          obtain ⟨rfl, rfl⟩ := hfound
          rw [List.map_cons, ← (htail later).mpr hlater]

theorem treeEntries_eq_iff {oidSize : ℕ} {data : Bytes} {entries : List GitEntry} :
    treeEntries oidSize data = entries.map Except.ok ↔ TreeData oidSize data entries :=
  entriesWithin_eq_iff le_rfl

/-- Bytes are the data of one list of entries at most. -/
theorem TreeData.unique {oidSize : ℕ} {data : Bytes} {entries entries' : List GitEntry}
    (h : TreeData oidSize data entries) (h' : TreeData oidSize data entries') :
    entries = entries' := by
  apply List.map_injective_iff.mpr (fun a b => Except.ok.inj)
  rw [← treeEntries_eq_iff.mpr h, treeEntries_eq_iff.mpr h']

/-! ## Section 5: What is below the root -/

section Below

variable (store : ObjectStore) (treeId : String)

/-- A tree object of the store has this entry. -/
def ObjectStore.Holds (oidSize : ℕ) (objectId : String) (item : GitEntry) : Prop :=
  ∃ data entries, store.content .tree objectId = some data ∧ TreeData oidSize data entries ∧
    item ∈ entries

/-- The tree objects below a root, each with what its paths begin with. -/
inductive TreeAt : String → String → Prop where
  | root : TreeAt "" treeId
  | child {dir objectId : String} {item : GitEntry} :
      TreeAt dir objectId → store.Holds (treeId.length / 2) objectId item →
      item.directory = true → TreeAt (dir ++ item.name ++ "/") item.oid

/-- An entry of a tree object below the root, at this path. -/
def ItemAt (path : String) (item : GitEntry) : Prop :=
  ∃ dir objectId, TreeAt store treeId dir objectId ∧
    store.Holds (treeId.length / 2) objectId item ∧ path = dir ++ item.name

/-- A blob below the root, at this path and with this mode. -/
def BlobAt (path : String) (mode : ℕ) (blob : Bytes) : Prop :=
  ∃ item, ItemAt store treeId path item ∧ item.directory = false ∧ item.mode = mode ∧
    store.content .blob item.oid = some blob

/-- A directory below the root, at this path and with this mode. -/
def DirectoryAt (path : String) (mode : ℕ) : Prop :=
  ∃ item, ItemAt store treeId path item ∧ item.directory = true ∧ item.mode = mode

/-- What a snapshot of the tree records. -/
def EntryAt (entry : TreeEntry) : Prop :=
  entry = directoryEntry "." 0o755 ∨
    (∃ path mode, DirectoryAt store treeId path mode ∧ entry = directoryEntry path mode) ∨
    ∃ path mode blob, BlobAt store treeId path mode blob ∧ entry = store.fileEntry path mode blob

end Below

/-! ## Section 6: One step of the walk -/

section Steps

variable {store : ObjectStore} {config : RunnerConfig} {treeId : String}

theorem object_eq_ok {kind : ObjectKind} {objectId : String} {limit : ℕ} {data : Bytes}
    (h : store.object kind objectId limit = .ok data) :
    store.content kind objectId = some data ∧ data.length ≤ limit := by
  simp only [ObjectStore.object, Except.bind_eq_ok, orRaise_eq_ok, raiseIf_eq_ok] at h
  obtain ⟨data', hread, _, _, hdata⟩ := h
  cases hdata
  exact ⟨store.exact hread, store.bounded hread⟩

/-- What an entry adds to the lists of the walk. -/
structure Adds (store : ObjectStore) (config : RunnerConfig) (dir : String) (item : GitEntry)
    (new new' : List PendingTree) (s s' : WalkState) : Prop where
  below : s.entries.length < config.outputTreeFileLimit
  added : (item.directory = true ∧ new' = (dir ++ item.name ++ "/", item.oid) :: new ∧
      s'.entries = s.entries ++ [directoryEntry (dir ++ item.name) item.mode] ∧
      s'.files = s.files) ∨
    ∃ blob, item.directory = false ∧ new' = new ∧ store.content .blob item.oid = some blob ∧
      s'.entries = s.entries ++ [store.fileEntry (dir ++ item.name) item.mode blob] ∧
      s'.files = s.files ++ [(dir ++ item.name, blob)]

theorem addEntry_eq_ok {dir : String} {new new' : List PendingTree} {s s' : WalkState}
    {item : Except TreeError GitEntry}
    (h : addEntry store config dir (new, s) item = .ok (new', s')) :
    ∃ value, item = .ok value ∧ Adds store config dir value new new' s s' := by
  simp only [addEntry, Except.bind_eq_ok, raiseIf_eq_ok, not_le] at h
  obtain ⟨value, rfl, _, hbelow, hadded⟩ := h
  refine ⟨value, rfl, hbelow, ?_⟩
  by_cases hdirectory : value.directory = true
  · rw [if_pos hdirectory] at hadded
    simp only [checkedEntry, Except.bind_eq_ok, raiseIf_eq_ok] at hadded
    obtain ⟨entry, ⟨_, _, hentry⟩, hstate⟩ := hadded
    cases hentry
    cases hstate
    exact Or.inl ⟨hdirectory, rfl, rfl, rfl⟩
  · rw [if_neg hdirectory] at hadded
    simp only [checkedEntry, Except.bind_eq_ok, raiseIf_eq_ok] at hadded
    obtain ⟨blob, hblob, entry, ⟨_, _, hentry⟩, hstate⟩ := hadded
    cases hentry
    cases hstate
    exact Or.inr ⟨blob, by simpa using hdirectory, rfl, (object_eq_ok hblob).1, rfl, rfl⟩

/-- The lists of a walk only grow. -/
def Grows (found found' : List PendingTree × WalkState) : Prop :=
  found.1 ⊆ found'.1 ∧ found.2.entries ⊆ found'.2.entries ∧ found.2.files ⊆ found'.2.files

theorem Grows.refl (found : List PendingTree × WalkState) : Grows found found :=
  ⟨List.Subset.refl _, List.Subset.refl _, List.Subset.refl _⟩

theorem Grows.trans {a b c : List PendingTree × WalkState} (h : Grows a b) (h' : Grows b c) :
    Grows a c :=
  ⟨List.Subset.trans h.1 h'.1, List.Subset.trans h.2.1 h'.2.1, List.Subset.trans h.2.2 h'.2.2⟩

theorem addEntry_grows {dir : String} {found found' : List PendingTree × WalkState}
    {item : Except TreeError GitEntry}
    (h : addEntry store config dir found item = .ok found') : Grows found found' := by
  obtain ⟨value, rfl, hadds⟩ := addEntry_eq_ok h
  rcases hadds.added with ⟨_, hnew, hentries, hfiles⟩ | ⟨blob, _, hnew, _, hentries, hfiles⟩
  · refine ⟨?_, ?_, ?_⟩
    · rw [hnew]
      exact List.subset_cons_self _ _
    · rw [hentries]
      exact List.subset_append_left _ _
    · rw [hfiles]
      exact List.Subset.refl _
  · refine ⟨?_, ?_, ?_⟩
    · rw [hnew]
      exact List.Subset.refl _
    · rw [hentries]
      exact List.subset_append_left _ _
    · rw [hfiles]
      exact List.subset_append_left _ _

/-- What a visit of a tree object does. -/
theorem visitTree_eq_ok {oidSize : ℕ} {place : PendingTree} {s : WalkState}
    {found : List PendingTree × WalkState}
    (h : visitTree store config oidSize place s = .ok found) :
    ∃ data items, store.content .tree place.2 = some data ∧ TreeData oidSize data items ∧
      (items.map Except.ok).foldlM (addEntry store config place.1)
        ([], { s with metadata := s.metadata - data.length }) = .ok found := by
  simp only [visitTree, Except.bind_eq_ok] at h
  obtain ⟨data, hdata, hloop⟩ := h
  obtain ⟨_, hvisits⟩ := foldlM_visits Grows Grows.refl Grows.trans
    (fun x _ => addEntry_grows) hloop
  -- the loop went through the generator to its end, so the generator raised nothing
  obtain ⟨items, hitems⟩ : ∃ items : List GitEntry,
      treeEntries oidSize data = items.map Except.ok := by
    apply exists_map_ok
    intro item hitem
    obtain ⟨t, t', _, hstep, _⟩ := hvisits item hitem
    obtain ⟨value, hvalue, _⟩ := addEntry_eq_ok hstep
    exact ⟨value, hvalue⟩
  refine ⟨data, items, (object_eq_ok hdata).1, treeEntries_eq_iff.mp hitems, ?_⟩
  rw [← hitems]
  exact hloop

/-- The entries that the limit still allows. -/
def WalkState.budget (config : RunnerConfig) (s : WalkState) : ℕ :=
  config.outputTreeFileLimit - s.entries.length

/-- Each directory that is found takes an entry from the limit. -/
theorem visitTree_budget {oidSize : ℕ} {place : PendingTree} {s s' : WalkState}
    {new : List PendingTree} (h : visitTree store config oidSize place s = .ok (new, s')) :
    new.length + s'.budget config ≤ s.budget config := by
  obtain ⟨data, items, _, _, hloop⟩ := visitTree_eq_ok h
  refine foldlM_invariant (fun _ (found : List PendingTree × WalkState) =>
    found.1.length + found.2.budget config ≤ s.budget config) ?_ ?_ hloop
  · intro done found item found' hdone hstep
    obtain ⟨value, _, hadds⟩ := addEntry_eq_ok hstep
    have hbelow := hadds.below
    rw [WalkState.budget] at hdone ⊢
    rcases hadds.added with ⟨_, hnew, hentries, _⟩ | ⟨blob, _, hnew, _, hentries, _⟩
    · rw [hnew, hentries, List.length_cons, List.length_append, List.length_singleton]
      omega
    · rw [hnew, hentries, List.length_append, List.length_singleton]
      omega
  · simp [WalkState.budget]

/-- The lists of a walk hold what is below the root, and the sizes are those of the blobs. -/
structure WalkState.Sound (store : ObjectStore) (treeId : String) (s : WalkState) : Prop where
  entries : ∀ entry ∈ s.entries, EntryAt store treeId entry
  files : ∀ file ∈ s.files, ∃ mode, BlobAt store treeId file.1 mode file.2
  sizes : (s.entries.map TreeEntry.size).sum = (s.files.map fun file => file.2.length).sum

/-- A visit of a tree below the root finds trees, entries and blobs below the root. -/
theorem visitTree_sound {place : PendingTree} {s s' : WalkState} {new : List PendingTree}
    (hplace : TreeAt store treeId place.1 place.2) (hs : s.Sound store treeId)
    (h : visitTree store config (treeId.length / 2) place s = .ok (new, s')) :
    s'.Sound store treeId ∧ ∀ found ∈ new, TreeAt store treeId found.1 found.2 := by
  obtain ⟨data, items, hdata, hitems, hloop⟩ := visitTree_eq_ok h
  have hitem : ∀ item ∈ items, ItemAt store treeId (place.1 ++ item.name) item := by
    intro item hmem
    exact ⟨place.1, place.2, hplace, ⟨data, items, hdata, hitems, hmem⟩, rfl⟩
  -- the entries that were added so far keep the state sound, and so does the next one
  refine foldlM_invariant (fun done (found : List PendingTree × WalkState) =>
    done ⊆ items.map Except.ok → found.2.Sound store treeId ∧
      ∀ below ∈ found.1, TreeAt store treeId below.1 below.2) ?_ ?_ hloop (List.Subset.refl _)
  · intro done found item found' hdone hstep hsub
    obtain ⟨hsound, hbelow⟩ := hdone fun x hx => hsub (List.mem_append_left _ hx)
    obtain ⟨value, rfl, hadds⟩ := addEntry_eq_ok hstep
    have hvalue : value ∈ items := by
      have hmem := hsub (List.mem_append_right _ (List.mem_singleton_self _))
      obtain ⟨_, hother, heq⟩ := List.mem_map.mp hmem
      exact Except.ok.inj heq ▸ hother
    have hat := hitem value hvalue
    rcases hadds.added with
      ⟨hdirectory, hnew, hentries, hfiles⟩ | ⟨blob, hfile, hnew, hblob, hentries, hfiles⟩
    · refine ⟨⟨?_, ?_, ?_⟩, ?_⟩
      · -- the entry of the directory
        intro entry hentry
        rw [hentries, List.mem_append, List.mem_singleton] at hentry
        rcases hentry with hentry | rfl
        · exact hsound.entries entry hentry
        · exact Or.inr (Or.inl ⟨_, _, ⟨value, hat, hdirectory, rfl⟩, rfl⟩)
      · rw [hfiles]
        exact hsound.files
      · rw [hentries, hfiles, List.map_append, List.sum_append, hsound.sizes]
        rfl
      · -- the directory is one more tree
        intro below hmem
        rw [hnew, List.mem_cons] at hmem
        rcases hmem with rfl | hmem
        · exact TreeAt.child hplace ⟨data, items, hdata, hitems, hvalue⟩ hdirectory
        · exact hbelow below hmem
    -- the entry of a blob, and its content as a file
    · have hfound : BlobAt store treeId (place.1 ++ value.name) value.mode blob :=
        ⟨value, hat, hfile, rfl, hblob⟩
      refine ⟨⟨?_, ?_, ?_⟩, ?_⟩
      · intro entry hentry
        rw [hentries, List.mem_append, List.mem_singleton] at hentry
        rcases hentry with hentry | rfl
        · exact hsound.entries entry hentry
        · exact Or.inr (Or.inr ⟨_, _, _, hfound, rfl⟩)
      · intro file hfile
        rw [hfiles, List.mem_append, List.mem_singleton] at hfile
        rcases hfile with hfile | rfl
        · exact hsound.files file hfile
        · exact ⟨_, hfound⟩
      · rw [hentries, hfiles, List.map_append, List.sum_append, List.map_append, List.sum_append,
          hsound.sizes]
        rfl
      · rw [hnew]
        exact hbelow
  · intro _
    exact ⟨⟨hs.entries, hs.files, hs.sizes⟩, by simp⟩

/-- The trees of the entries of a tree object. -/
def Subtree (store : ObjectStore) (oidSize : ℕ) (place below : PendingTree) : Prop :=
  ∃ item, store.Holds oidSize place.2 item ∧ item.directory = true ∧
    below = (place.1 ++ item.name ++ "/", item.oid)

/-- A visit adds every entry of its tree object. -/
theorem visitTree_adds {oidSize : ℕ} {place : PendingTree} {s s' : WalkState}
    {new : List PendingTree} (h : visitTree store config oidSize place s = .ok (new, s')) :
    (s.entries ⊆ s'.entries ∧ s.files ⊆ s'.files) ∧
      ∀ item, store.Holds oidSize place.2 item →
        (item.directory = true ∧ (place.1 ++ item.name ++ "/", item.oid) ∈ new ∧
          directoryEntry (place.1 ++ item.name) item.mode ∈ s'.entries) ∨
        ∃ blob, item.directory = false ∧ store.content .blob item.oid = some blob ∧
          store.fileEntry (place.1 ++ item.name) item.mode blob ∈ s'.entries ∧
          (place.1 ++ item.name, blob) ∈ s'.files := by
  obtain ⟨data, items, hdata, hitems, hloop⟩ := visitTree_eq_ok h
  -- the state only grows, so what one entry of the object added is still there at the end
  obtain ⟨hgrows, hvisits⟩ := foldlM_visits Grows Grows.refl Grows.trans
    (fun x _ => addEntry_grows) hloop
  refine ⟨⟨hgrows.2.1, hgrows.2.2⟩, ?_⟩
  intro item hholds
  obtain ⟨data', items', hdata', hitems', hmem⟩ := hholds
  rw [hdata, Option.some.injEq] at hdata'
  subst hdata'
  rw [← hitems.unique hitems'] at hmem
  obtain ⟨t, t', _, hstep, hlater⟩ := hvisits _ (List.mem_map_of_mem hmem)
  obtain ⟨value, hvalue, hadds⟩ := addEntry_eq_ok hstep
  cases hvalue
  rcases hadds.added with
    ⟨hdirectory, hnew, hentries, hfiles⟩ | ⟨blob, hfile, hnew, hblob, hentries, hfiles⟩
  · refine Or.inl ⟨hdirectory, hlater.1 ?_, hlater.2.1 ?_⟩
    · rw [hnew]
      exact List.mem_cons_self
    · rw [hentries]
      exact List.mem_append_right _ (List.mem_singleton_self _)
  · refine Or.inr ⟨blob, hfile, hblob, hlater.2.1 ?_, hlater.2.2 ?_⟩
    · rw [hentries]
      exact List.mem_append_right _ (List.mem_singleton_self _)
    · rw [hfiles]
      exact List.mem_append_right _ (List.mem_singleton_self _)

end Steps

/-! ## Section 7: The whole walk -/

section Runs

variable {store : ObjectStore} {config : RunnerConfig} {treeId : String}

/-- **Termination.** With every store the walk ends, after no more trees than the limit on entries
allows. -/
theorem walk_terminates (store : ObjectStore) (config : RunnerConfig) (treeId : String) :
    ∃ r, ∀ fuel, config.outputTreeFileLimit < fuel → walk store config fuel treeId = some r := by
  have hpaid : [(("", treeId) : PendingTree)].length + (startWalk config).budget config ≤
      config.outputTreeFileLimit + 1 := by
    rw [List.length_singleton, WalkState.budget]
    omega
  obtain ⟨r, hr⟩ := drain_terminates
    (fun place s new s' (h : visitTree store config (treeId.length / 2) place s = .ok (new, s')) =>
      visitTree_budget h) hpaid
  refine ⟨r >>= frozenTree store config, ?_⟩
  intro fuel hfuel
  rw [walk, drain_of_le (by omega) hr, Option.map_some]

/-- What a walk that returned a tree went through. -/
theorem walk_eq_ok {fuel : ℕ} {tree : FrozenTree}
    (h : walk store config fuel treeId = some (.ok tree)) :
    ∃ s, drain (visitTree store config (treeId.length / 2)) fuel [("", treeId)]
        (startWalk config) = some (.ok s) ∧
      tree = ⟨⟨sortBy (fun entry => codePoints entry.path) s.entries⟩, sortBy fileKey s.files⟩ ∧
      validateTree store.digestBytes tree config = .ok () := by
  obtain ⟨ended, hended, hfrozen⟩ := Option.map_eq_some_iff.mp h
  obtain ⟨s, rfl, hresult⟩ := (Except.bind_eq_ok _ _ _).mp hfrozen
  simp only [frozenTree, Except.bind_eq_ok] at hresult
  obtain ⟨_, hvalid, htree⟩ := hresult
  have htree := Except.ok.inj htree
  exact ⟨s, hended, htree.symm, htree ▸ hvalid⟩

/-- All that a walk collects is below the root. -/
theorem drain_sound {fuel : ℕ} {s : WalkState}
    (h : drain (visitTree store config (treeId.length / 2)) fuel [("", treeId)]
      (startWalk config) = some (.ok s)) : s.Sound store treeId := by
  refine drain_invariant (P := fun s => s.Sound store treeId)
    (Q := fun place => TreeAt store treeId place.1 place.2) ?_ ?_ ?_ h
  · intro place s new s' hplace hs hvisit
    exact visitTree_sound hplace hs hvisit
  · intro place hplace
    rw [List.mem_singleton] at hplace
    rw [hplace]
    exact TreeAt.root
  · refine ⟨?_, ?_, rfl⟩
    · intro entry hentry
      exact Or.inl (List.mem_singleton.mp hentry)
    · intro file hfile
      cases hfile

/-- The walk reaches the trees below the root. -/
theorem TreeAt.reached {dir objectId : String} (h : TreeAt store treeId dir objectId) :
    ReflTransGen (Subtree store (treeId.length / 2)) ("", treeId) (dir, objectId) := by
  induction h with
  | root => exact ReflTransGen.refl
  | child _ hholds hdirectory ih => exact ih.tail ⟨_, hholds, hdirectory, rfl⟩

/-- A walk collects all that is below the root. -/
theorem drain_complete {fuel : ℕ} {s : WalkState}
    (h : drain (visitTree store config (treeId.length / 2)) fuel [("", treeId)]
      (startWalk config) = some (.ok s)) :
    (∀ entry, EntryAt store treeId entry → entry ∈ s.entries) ∧
      ∀ path mode blob, BlobAt store treeId path mode blob → (path, blob) ∈ s.files := by
  let R : WalkState → WalkState → Prop := fun s s' => s.entries ⊆ s'.entries ∧ s.files ⊆ s'.files
  obtain ⟨hgrows, hvisits⟩ := drain_visits (E := Subtree store (treeId.length / 2)) R
    (fun s => ⟨List.Subset.refl _, List.Subset.refl _⟩)
    (fun hab hbc => ⟨List.Subset.trans hab.1 hbc.1, List.Subset.trans hab.2 hbc.2⟩)
    (fun hvisit => by
      obtain ⟨hstep, hadds⟩ := visitTree_adds hvisit
      refine ⟨hstep, ?_⟩
      intro below hbelow
      obtain ⟨item, hholds, hdirectory, rfl⟩ := hbelow
      rcases hadds item hholds with ⟨_, hnew, _⟩ | ⟨_, hfile, _⟩
      · exact hnew
      · rw [hdirectory] at hfile
        cases hfile) h
  -- every item below the root was added when its tree was visited
  have hitem : ∀ path item, ItemAt store treeId path item →
      (item.directory = true ∧ directoryEntry path item.mode ∈ s.entries) ∨
      ∃ blob, item.directory = false ∧ store.content .blob item.oid = some blob ∧
        store.fileEntry path item.mode blob ∈ s.entries ∧ (path, blob) ∈ s.files := by
    intro path item hat
    obtain ⟨dir, objectId, htree, hholds, rfl⟩ := hat
    obtain ⟨t, new, t', _, hvisit, hlater⟩ :=
      hvisits _ (List.mem_singleton_self _) _ htree.reached
    rcases (visitTree_adds hvisit).2 item hholds with
      ⟨hdirectory, _, hentry⟩ | ⟨blob, hfile, hblob, hentry, hbytes⟩
    · exact Or.inl ⟨hdirectory, hlater.1 hentry⟩
    · exact Or.inr ⟨blob, hfile, hblob, hlater.1 hentry, hlater.2 hbytes⟩
  have hblobs : ∀ path mode blob, BlobAt store treeId path mode blob →
      store.fileEntry path mode blob ∈ s.entries ∧ (path, blob) ∈ s.files := by
    intro path mode blob hblob
    obtain ⟨item, hat, hfile, rfl, hcontent⟩ := hblob
    rcases hitem path item hat with ⟨hdirectory, _⟩ | ⟨blob', _, hblob', hadded⟩
    · rw [hfile] at hdirectory
      cases hdirectory
    · rw [hcontent, Option.some.injEq] at hblob'
      rw [hblob']
      exact hadded
  refine ⟨?_, fun path mode blob hblob => (hblobs path mode blob hblob).2⟩
  intro entry hentry
  rcases hentry with rfl | ⟨path, mode, hdirectory, rfl⟩ | ⟨path, mode, blob, hblob, rfl⟩
  · exact hgrows.1 (List.mem_singleton_self _)
  · obtain ⟨item, hat, hkind, rfl⟩ := hdirectory
    rcases hitem path item hat with ⟨_, hadded⟩ | ⟨_, hfile, _⟩
    · exact hadded
    · rw [hkind] at hfile
      cases hfile
  · exact (hblobs path mode blob hblob).1

/-- The limits of a tree that `validate_tree` accepts, whose files have one entry each. -/
theorem limits_of_validateTree {digestBytes : Bytes → String} {tree : FrozenTree}
    (h : validateTree digestBytes tree config = .ok ()) :
    tree.snapshot.entries.length ≤ config.outputTreeFileLimit ∧
      (tree.snapshot.entries.map TreeEntry.size).sum ≤ config.outputTreeLimitBytes ∧
      (tree.files.map Prod.fst).Nodup := by
  simp only [validateTree, validateSnapshot, Except.bind_eq_ok, raiseIf_eq_ok, not_or, not_lt,
    not_not] at h
  obtain ⟨_, _, _, ⟨_, ⟨_, _, _, hlength, hsize⟩, _⟩, _, ⟨hdistinct, _⟩, _⟩ := h
  exact ⟨hlength, hsize, hdistinct⟩

/-- **The walk is exact and bounded.** With every object store the walk ends, whatever trees it
names below themselves or in many places, once there is fuel for the limit on entries. A tree that
it returns holds the blobs below the root at their paths and no others, records them and the
directories and nothing else, each path once, is within the limits, and has every proper ancestor
of an entry as a directory. -/
theorem walk_exact (store : ObjectStore) (config : RunnerConfig) (treeId : String) :
    (∃ r, ∀ fuel, config.outputTreeFileLimit < fuel → walk store config fuel treeId = some r) ∧
    ∀ fuel tree, walk store config fuel treeId = some (.ok tree) →
      (∀ path blob, (path, blob) ∈ tree.files ↔ ∃ mode, BlobAt store treeId path mode blob) ∧
      (tree.files.map Prod.fst).Nodup ∧
      (∀ entry, entry ∈ tree.snapshot.entries ↔ EntryAt store treeId entry) ∧
      (tree.snapshot.entries.map TreeEntry.path).Nodup ∧
      tree.snapshot.entries.length ≤ config.outputTreeFileLimit ∧
      (tree.snapshot.entries.map TreeEntry.size).sum ≤ config.outputTreeLimitBytes ∧
      (tree.files.map fun file => file.2.length).sum ≤ config.outputTreeLimitBytes ∧
      ∀ entry ∈ tree.snapshot.entries, ∀ p, Above p (entryPath entry.path) →
        ∃ parent ∈ tree.snapshot.entries, entryPath parent.path = p ∧ parent.kind = .directory := by
  refine ⟨walk_terminates store config treeId, ?_⟩
  intro fuel tree h
  obtain ⟨s, hdrain, htree, hvalid⟩ := walk_eq_ok h
  have hsound := drain_sound hdrain
  obtain ⟨hentries, hblobs⟩ := drain_complete hdrain
  obtain ⟨hlength, hsize, hdistinct⟩ := limits_of_validateTree hvalid
  have haccepted := (accepted_of_validateTree hvalid).1
  -- sorting keeps the entries and the files
  have hsortedEntries : tree.snapshot.entries.Perm s.entries := by
    rw [htree]
    exact perm_sortBy _ _
  have hsortedFiles : tree.files.Perm s.files := by
    rw [htree]
    exact perm_sortBy _ _
  refine ⟨?_, hdistinct, ?_, ?_, hlength, hsize, ?_, ?_⟩
  · intro path blob
    rw [hsortedFiles.mem_iff]
    constructor
    · intro hfile
      exact hsound.files _ hfile
    · intro hblob
      obtain ⟨mode, hblob⟩ := hblob
      exact hblobs path mode blob hblob
  · intro entry
    rw [hsortedEntries.mem_iff]
    exact ⟨hsound.entries entry, hentries entry⟩
  · apply List.pairwise_map.mpr
    apply haccepted.sorted.imp
    intro a b hless heq
    exact hless.ne (congrArg codePoints heq)
  · rw [(hsortedFiles.map _).sum_eq, ← hsound.sizes, ← (hsortedEntries.map _).sum_eq]
    exact hsize
  · intro entry hentry p hp
    exact haccepted.ancestor hentry hp

end Runs

/-! ## Section 8: A small store -/

/-- An object of a store: its kind, the byte that its id repeats, and its data. -/
structure StoredObject where
  kind : ObjectKind
  idByte : UInt8
  data : Bytes

/-- The object id that repeats a byte. -/
def repeatedId (b : UInt8) : String := hexOf (List.replicate 20 b)

/-- The bytes that the id of an object is a digest of. -/
def StoredObject.encoded (object : StoredObject) : Bytes :=
  asciiBytes (object.kind.name ++ " " ++ toString object.data.length) ++ 0 :: object.data

/-- The store of these objects. -/
def storeOf (objects : List StoredObject) : ObjectStore where
  content kind id := (objects.find? fun o => o.kind = kind ∧ repeatedId o.idByte = id).map (·.data)
  read kind id limit :=
    ((objects.find? fun o => o.kind = kind ∧ repeatedId o.idByte = id).map (·.data)).filter
      fun data => data.length ≤ limit
  sha1 encoded := repeatedId (((objects.find? fun o => o.encoded = encoded).map (·.idByte)).getD 0)
  sha256 _ := hexOf (List.replicate 32 0)
  exact h := (Option.filter_eq_some_iff.mp h).1
  bounded h := by simpa using (Option.filter_eq_some_iff.mp h).2

/-- The bytes of a tree object: a mode and a name, and the byte that the id of the entry repeats. -/
def treeDataOf (entries : List (String × UInt8)) : Bytes :=
  entries.flatMap fun entry => asciiBytes entry.1 ++ 0 :: List.replicate 20 entry.2

/-- A file and two names of one tree, which holds a file as well. -/
def sharedStore : ObjectStore := storeOf
  [⟨.tree, 1, treeDataOf [("100644 a", 3), ("40000 d", 2), ("40000 e", 2)]⟩,
   ⟨.tree, 2, treeDataOf [("100755 x", 4)]⟩,
   ⟨.blob, 3, [0x61, 0x0A]⟩,
   ⟨.blob, 4, [0x78]⟩]

theorem walk_exact_shared : ∃ tree, walk sharedStore sampleConfig 11 (repeatedId 1) = some (.ok tree) ∧
    tree.files = [("a", [0x61, 0x0A]), ("d/x", [0x78]), ("e/x", [0x78])] ∧
    tree.snapshot.entries.map TreeEntry.path = [".", "a", "d", "d/x", "e", "e/x"] ∧
    (∀ path blob, (path, blob) ∈ tree.files ↔
      ∃ mode, BlobAt sharedStore (repeatedId 1) path mode blob) ∧
    ∀ entry, entry ∈ tree.snapshot.entries ↔ EntryAt sharedStore (repeatedId 1) entry := by
  have hwalk : walk sharedStore sampleConfig 11 (repeatedId 1) = some (.ok
      ⟨⟨[directoryEntry "." 0o755, sharedStore.fileEntry "a" 0o644 [0x61, 0x0A],
          directoryEntry "d" 0o755, sharedStore.fileEntry "d/x" 0o755 [0x78],
          directoryEntry "e" 0o755, sharedStore.fileEntry "e/x" 0o755 [0x78]]⟩,
        [("a", [0x61, 0x0A]), ("d/x", [0x78]), ("e/x", [0x78])]⟩) := by
    decide +kernel
  obtain ⟨hfiles, _, hentries, _⟩ := (walk_exact sharedStore sampleConfig (repeatedId 1)).2 _ _ hwalk
  exact ⟨_, hwalk, rfl, rfl, hfiles, hentries⟩

/-- A tree that names itself as its only entry ends at the limit. -/
example : walk (storeOf [⟨.tree, 0, treeDataOf [("40000 d", 0)]⟩]) { sampleConfig with outputTreeFileLimit := 2 } 3
    (repeatedId 0) = some (.error (.runner "source entry limit")) := by decide +kernel

end ContractCapsule.Twin
