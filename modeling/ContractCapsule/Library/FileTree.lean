import Mathlib.Data.List.Infix
import Mathlib.Data.Nat.Bitwise
import Mathlib.Tactic.Common

/-!
# Writing a Tree into a File System

Paths below a root, as lists of components, and the operations that make directories, write files
and change modes. An operation on a path fails unless every proper ancestor of the path is a
directory that its owner may search.

`run_creating` and `run_changing` say when a tree can be written: when what is created comes after
the directories above it, and when the mode of a directory is changed after those of the entries
below it.
-/

namespace Library

/-! ## Section 1: Files -/

/-- What stands at a path. -/
inductive Content (β : Type) where
  | directory
  | file (bytes : β)
deriving DecidableEq, Repr

/-- A directory or a file, with its permission bits. -/
structure Node (β : Type) where
  content : Content β
  mode : ℕ
deriving DecidableEq, Repr

/-- The nodes below a root, which is the empty path. -/
abbrev Files (α β : Type) := List α → Option (Node β)

/-- No path is taken. -/
def noFiles (α β : Type) : Files α β := fun _ => none

/-- The owner may search a directory of this mode. -/
def ownerSearches (mode : ℕ) : Bool := mode.testBit 6

/-- The permission bits that the process takes away from what it creates. It leaves the owner the
right to search. -/
structure Umask where
  bits : ℕ
  searchable : bits.testBit 6 = false

/-- The mode of what is created. -/
def Umask.created (u : Umask) (mode : ℕ) : ℕ := Nat.ldiff mode u.bits

variable {α β : Type}

/-- A path is strictly above another one. -/
def Above (p q : List α) : Prop := ∃ c rest, q = p ++ c :: rest

/-- The node is a directory that its owner may search. -/
def Node.searchable (node : Node β) : Bool :=
  match node.content with
  | .directory => ownerSearches node.mode
  | .file _ => false

/-- Every proper ancestor of the path can be passed. -/
def passable (files : Files α β) (path : List α) : Bool :=
  (List.range path.length).all fun i => (files (path.take i)).any Node.searchable

theorem passable_iff {files : Files α β} {path : List α} :
    passable files path = true ↔
      ∀ p, Above p path → ∃ node, files p = some node ∧ node.searchable = true := by
  rw [passable, List.all_eq_true]
  constructor
  · rintro h p ⟨c, rest, rfl⟩
    have hsearch := h p.length (by simp)
    rw [List.take_left', Option.any_eq_true] at hsearch
    · obtain ⟨node, hnode, hsearch⟩ := hsearch
      exact ⟨node, hnode, hsearch⟩
    · rfl
  · intro h i hi
    rw [List.mem_range] at hi
    obtain ⟨node, hnode, hsearch⟩ := h (path.take i) ⟨path[i], path.drop (i + 1), by simp⟩
    rw [hnode]
    exact hsearch

/-! ## Section 2: Operations -/

/-- An operation on a path. -/
inductive FileOp (α β : Type) where
  /-- Make a directory; where it may exist, one that stands there is left as it is. -/
  | makeDirectory (path : List α) (mode : ℕ) (mayExist : Bool)
  /-- Write a file, which is created when nothing stands at the path. -/
  | writeBytes (path : List α) (bytes : β)
  /-- Change the permission bits. -/
  | changeMode (path : List α) (mode : ℕ)

variable [DecidableEq α]

/-- The files with another node at one path. -/
def Files.put (files : Files α β) (path : List α) (node : Node β) : Files α β :=
  fun p => if p = path then some node else files p

/-- Carry out an operation; no value stands for a failure. -/
def FileOp.step (u : Umask) (files : Files α β) : FileOp α β → Option (Files α β)
  | .makeDirectory path mode mayExist =>
    if passable files path then
      match files path with
      | none => some (files.put path ⟨.directory, u.created mode⟩)
      | some ⟨.directory, _⟩ => if mayExist then some files else none
      | some ⟨.file _, _⟩ => none
    else none
  | .writeBytes path bytes =>
    if passable files path then
      match files path with
      | none => some (files.put path ⟨.file bytes, u.created 0o666⟩)
      | some ⟨.file _, mode⟩ => some (files.put path ⟨.file bytes, mode⟩)
      | some ⟨.directory, _⟩ => none
    else none
  | .changeMode path mode =>
    if passable files path then
      (files path).map fun node => files.put path { node with mode := mode }
    else none

/-- Carry out operations one after another; the first failure ends them. -/
def runOps (u : Umask) (files : Files α β) (ops : List (FileOp α β)) : Option (Files α β) :=
  ops.foldlM (FileOp.step u) files

omit [DecidableEq α] in
/-- Where an operation makes something, and where it changes a mode. -/
def FileOp.makes : FileOp α β → Option (List α)
  | .makeDirectory path _ _ => some path
  | .writeBytes path _ => some path
  | .changeMode _ _ => none

omit [DecidableEq α] in
def FileOp.changes : FileOp α β → Option (List α)
  | .changeMode path _ => some path
  | _ => none

/-! ## Section 3: Writing a tree -/

/-- A node of a tree, at its path. -/
structure TreeItem (α β : Type) where
  path : List α
  node : Node β

omit [DecidableEq α] in
/-- Create a node: a directory, or a file with its bytes. -/
def TreeItem.creating (item : TreeItem α β) : FileOp α β :=
  match item.node.content with
  | .directory => .makeDirectory item.path 0o777 true
  | .file bytes => .writeBytes item.path bytes

omit [DecidableEq α] in
/-- Change a node to its recorded mode. -/
def TreeItem.changing (item : TreeItem α β) : FileOp α β := .changeMode item.path item.node.mode

/-- A node as it was created: with the mode that the process gives. -/
def TreeItem.created (u : Umask) (item : TreeItem α β) : Node β :=
  match item.node.content with
  | .directory => ⟨.directory, u.created 0o777⟩
  | .file bytes => ⟨.file bytes, u.created 0o666⟩

/-- The files after these nodes were created below a root. -/
def layout (u : Umask) (items : List (TreeItem α β)) : Files α β := fun p =>
  if p = [] then some ⟨.directory, u.created 0o755⟩
  else (items.find? fun item => item.path = p).map (TreeItem.created u)

/-- The files after the modes of these nodes were changed. -/
def withModes (files : Files α β) (items : List (TreeItem α β)) : Files α β := fun p =>
  match items.find? fun item => item.path = p with
  | some item => (files p).map fun node => { node with mode := item.node.mode }
  | none => files p

/-- Every node comes after the directories above it; the root needs no item. -/
def TopDown (items : List (TreeItem α β)) : Prop :=
  ∀ done item rest, items = done ++ item :: rest → ∀ p, Above p item.path →
    p = [] ∨ ∃ parent ∈ done, parent.path = p ∧ parent.node.content = .directory

/-- No directory comes before a node below it. -/
def BottomUp (items : List (TreeItem α β)) : Prop :=
  ∀ done item rest, items = done ++ item :: rest → ∀ below ∈ rest, ¬ Above item.path below.path

/-- The items are a tree: one for each path, with a directory at the root. -/
structure IsTree (items : List (TreeItem α β)) : Prop where
  distinct : (items.map TreeItem.path).Nodup
  root : ∀ item ∈ items, item.path = [] → item.node.content = .directory

variable {u : Umask} {items : List (TreeItem α β)}

theorem searchable_created (u : Umask) {mode : ℕ} (h : mode.testBit 6 = true) :
    ownerSearches (u.created mode) = true := by
  rw [ownerSearches, Umask.created, Nat.testBit_ldiff, h, u.searchable]
  rfl

omit [DecidableEq α] in
theorem find?_of_distinct [DecidableEq α] (h : (items.map TreeItem.path).Nodup)
    {item : TreeItem α β} (hitem : item ∈ items) :
    items.find? (fun i => i.path = item.path) = some item := by
  induction items with
  | nil => exact absurd hitem (by simp)
  | cons first items ih =>
    rw [List.map_cons, List.nodup_cons] at h
    by_cases hfirst : first.path = item.path
    · rw [List.find?_cons_of_pos (by simpa using hfirst)]
      rcases List.mem_cons.mp hitem with rfl | hrest
      · rfl
      · exact absurd (hfirst ▸ List.mem_map_of_mem hrest) h.1
    · rw [List.find?_cons_of_neg (by simpa using hfirst)]
      rcases List.mem_cons.mp hitem with rfl | hrest
      · exact absurd rfl hfirst
      · exact ih h.2 hrest

/-- A directory that was created can be passed. -/
theorem searchable_layout (h : (items.map TreeItem.path).Nodup) {p : List α}
    (hp : p = [] ∨ ∃ parent ∈ items, parent.path = p ∧ parent.node.content = .directory) :
    ∃ node, layout u items p = some node ∧ node.searchable = true := by
  by_cases hroot : p = []
  · subst hroot
    exact ⟨_, rfl, searchable_created u rfl⟩
  · obtain ⟨parent, hparent, rfl, hcontent⟩ := hp.resolve_left hroot
    refine ⟨parent.created u, ?_, ?_⟩
    · rw [layout, if_neg hroot, find?_of_distinct h hparent, Option.map_some]
    · rw [TreeItem.created, hcontent]
      exact searchable_created u rfl

/-- Creating the next node. -/
theorem step_creating {done : List (TreeItem α β)} {item : TreeItem α β}
    (htree : IsTree (done ++ [item]))
    (habove : ∀ p, Above p item.path →
      p = [] ∨ ∃ parent ∈ done, parent.path = p ∧ parent.node.content = .directory) :
    item.creating.step u (layout u done) = some (layout u (done ++ [item])) := by
  -- the paths so far are distinct, and the new one is none of them
  have hdistinct := htree.distinct
  rw [List.map_append, List.map_singleton, List.nodup_append] at hdistinct
  obtain ⟨hdone, _, hfresh⟩ := hdistinct
  have hpass : passable (layout u done) item.path = true :=
    passable_iff.mpr fun p hp => searchable_layout hdone (habove p hp)
  have hnone : done.find? (fun i => i.path = item.path) = none := by
    rw [List.find?_eq_none]
    intro i hi heq
    exact hfresh _ (List.mem_map_of_mem hi) _ (List.mem_singleton_self _) (by simpa using heq)
  by_cases hroot : item.path = []
  · -- the root stands already
    have hcontent := htree.root item (by simp) hroot
    have hsame : layout u done = layout u (done ++ [item]) := by
      funext p
      by_cases hp : p = []
      · rw [layout, layout, if_pos hp, if_pos hp]
      · have hother : ¬ item.path = p := fun heq => hp (heq ▸ hroot)
        rw [layout, layout, if_neg hp, if_neg hp, List.find?_append,
          List.find?_cons_of_neg (by simpa using hother), List.find?_nil, Option.or_none]
    rw [hroot] at hpass
    rw [TreeItem.creating, hcontent]
    simp only [FileOp.step, hroot, hpass, if_true]
    rw [show layout u done [] = some ⟨.directory, u.created 0o755⟩ from rfl]
    simp [hsame]
  -- any other path is free, so the node is put there and every other path keeps what it had
  · have hfree : layout u done item.path = none := by
      rw [layout, if_neg hroot, hnone, Option.map_none]
    have hput : (layout u done).put item.path (item.created u) = layout u (done ++ [item]) := by
      funext p
      by_cases hp : p = item.path
      · subst hp
        rw [Files.put, if_pos rfl, layout, if_neg hroot, find?_of_distinct htree.distinct (by simp),
          Option.map_some]
      · have hother : ¬ item.path = p := fun heq => hp heq.symm
        rw [Files.put, if_neg hp, layout, layout, List.find?_append,
          List.find?_cons_of_neg (by simpa using hother), List.find?_nil, Option.or_none]
    rw [← hput, TreeItem.creating, TreeItem.created]
    cases hcontent : item.node.content with
    | directory => simp only [FileOp.step, hpass, if_true, hfree]
    | file bytes => simp only [FileOp.step, hpass, if_true, hfree]

/-- **The creating pass**: nodes that come top-down are all created. -/
theorem run_creating (htree : IsTree items) (horder : TopDown items) :
    runOps u (layout u []) (items.map TreeItem.creating) = some (layout u items) := by
  -- the steps that are done have laid out the items before; each next one adds its own
  have hfrom : ∀ done rest, done ++ rest = items →
      runOps u (layout u done) (rest.map TreeItem.creating) = some (layout u items) := by
    intro done rest
    induction rest generalizing done with
    | nil =>
      intro h
      rw [← h, List.append_nil]
      rfl
    | cons item rest ih =>
      intro h
      have hsplit : items = (done ++ [item]) ++ rest := by simp [h]
      -- a part of a tree is one
      have hpart : IsTree (done ++ [item]) := by
        refine ⟨?_, fun i hi => htree.root i ?_⟩
        · have hdistinct := htree.distinct
          rw [hsplit, List.map_append] at hdistinct
          exact (List.nodup_append.mp hdistinct).1
        · rw [hsplit]
          exact List.mem_append_left _ hi
      have hstep := step_creating (u := u) hpart (horder done item rest h.symm)
      rw [List.map_cons, runOps, List.foldlM_cons, hstep]
      exact ih (done ++ [item]) hsplit.symm
  exact hfrom [] items rfl

/-- Changing the mode of the next node. -/
theorem step_changing {files : Files α β} {done : List (TreeItem α β)} {item : TreeItem α β}
    {node : Node β} (hdistinct : ((done ++ [item]).map TreeItem.path).Nodup)
    (hnode : files item.path = some node)
    (habove : ∀ p, Above p item.path →
      (∃ node, files p = some node ∧ node.searchable = true) ∧ ∀ d ∈ done, d.path ≠ p) :
    item.changing.step u (withModes files done) = some (withModes files (done ++ [item])) := by
  have hdone := hdistinct
  rw [List.map_append, List.map_singleton, List.nodup_append] at hdone
  obtain ⟨_, _, hfresh⟩ := hdone
  -- a path that is none of the changed ones still has the node it had
  have huntouched : ∀ p, (∀ d ∈ done, d.path ≠ p) → withModes files done p = files p := by
    intro p hp
    rw [withModes, List.find?_eq_none.mpr fun d hd => by simpa using hp d hd]
  have hself : withModes files done item.path = some node := by
    rw [huntouched, hnode]
    intro d hd
    exact hfresh _ (List.mem_map_of_mem hd) _ (List.mem_singleton_self _)
  -- the parents are not changed yet, so they can be searched
  have hpass : passable (withModes files done) item.path = true := by
    apply passable_iff.mpr
    intro p hp
    obtain ⟨hsearch, hlater⟩ := habove p hp
    rw [huntouched p hlater]
    exact hsearch
  rw [TreeItem.changing, FileOp.step, if_pos hpass, hself, Option.map_some]
  congr 1
  funext p
  by_cases hp : p = item.path
  · subst hp
    rw [Files.put, if_pos rfl, withModes, find?_of_distinct hdistinct (by simp), hnode]
    rfl
  · have hother : ¬ item.path = p := fun heq => hp heq.symm
    rw [Files.put, if_neg hp, withModes, withModes, List.find?_append,
      List.find?_cons_of_neg (by simpa using hother), List.find?_nil, Option.or_none]

/-- **The changing pass**: modes that are changed bottom-up are all changed. -/
theorem run_changing {files : Files α β} (hdistinct : (items.map TreeItem.path).Nodup)
    (hnodes : ∀ item ∈ items, ∃ node, files item.path = some node)
    (habove : ∀ item ∈ items, ∀ p, Above p item.path →
      ∃ node, files p = some node ∧ node.searchable = true)
    (horder : BottomUp items) :
    runOps u files (items.map TreeItem.changing) = some (withModes files items) := by
  have hfrom : ∀ done rest, done ++ rest = items →
      runOps u (withModes files done) (rest.map TreeItem.changing) =
        some (withModes files items) := by
    intro done rest
    induction rest generalizing done with
    | nil =>
      intro h
      rw [← h, List.append_nil]
      rfl
    | cons item rest ih =>
      intro h
      have hsplit : items = (done ++ [item]) ++ rest := by simp [h]
      have hitem : item ∈ items := by simp [hsplit]
      have hpart : ((done ++ [item]).map TreeItem.path).Nodup := by
        rw [hsplit, List.map_append] at hdistinct
        exact (List.nodup_append.mp hdistinct).1
      obtain ⟨node, hnode⟩ := hnodes item hitem
      have hstep := step_changing (u := u) hpart hnode fun p hp => by
        refine ⟨habove item hitem p hp, fun d hd heq => ?_⟩
        -- a directory above the node would have been changed too early
        obtain ⟨before, after, rfl⟩ := List.append_of_mem hd
        have hsplit' : items = before ++ d :: (after ++ item :: rest) := by simp [← h]
        exact horder before d _ hsplit' item (by simp) (heq ▸ hp)
      rw [List.map_cons, runOps, List.foldlM_cons, hstep]
      exact ih (done ++ [item]) hsplit.symm
  have hstart : withModes files [] = files := rfl
  rw [← hstart]
  exact hfrom [] items rfl

/-! ## Section 4: The order of the operations -/

omit [DecidableEq α] in
/-- Whatever is made at a path comes after the directories above it. -/
def CreatesTopDown (ops : List (FileOp α β)) : Prop :=
  ∀ before op after, ops = before ++ op :: after → ∀ path, op.makes = some path →
    ∀ p, Above p path → ∃ mode mayExist, .makeDirectory p mode mayExist ∈ before

omit [DecidableEq α] in
/-- The mode of a directory is changed after the modes of all entries below it. -/
def ChangesBottomUp (ops : List (FileOp α β)) : Prop :=
  ∀ before op after, ops = before ++ op :: after → ∀ path, op.changes = some path →
    ∀ later ∈ after, ∀ below, later.changes = some below → ¬ Above path below

/-- The operations that write a tree: the root, its nodes in their order, and their modes in the
opposite order. -/
def writing (items : List (TreeItem α β)) : List (FileOp α β) :=
  .makeDirectory [] 0o755 false ::
    (items.map TreeItem.creating ++ items.reverse.map TreeItem.changing)

omit [DecidableEq α] in
theorem creating_makes (item : TreeItem α β) :
    item.creating.makes = some item.path ∧ item.creating.changes = none := by
  unfold TreeItem.creating
  split <;> exact ⟨rfl, rfl⟩

omit [DecidableEq α] in
theorem createsTopDown_writing (h : TopDown items) : CreatesTopDown (writing items) := by
  intro before op after hops path hmakes p hp
  rcases List.cons_eq_append_iff.mp hops with ⟨rfl, hop⟩ | ⟨before', rfl, hrest⟩
  · -- nothing is above the root
    obtain ⟨rfl, rfl⟩ := List.cons.inj hop
    cases hmakes
    obtain ⟨c, rest, hnil⟩ := hp
    simp at hnil
  · rcases List.append_eq_append_iff.mp hrest with ⟨mid, rfl, hmid⟩ | ⟨mid, hmid, htail⟩
    · -- an operation that changes a mode makes nothing
      have hop : op ∈ items.reverse.map TreeItem.changing := by
        rw [hmid]
        simp
      obtain ⟨item, _, rfl⟩ := List.mem_map.mp hop
      cases hmakes
    · cases mid with
      | nil =>
        have hop : op ∈ items.reverse.map TreeItem.changing := by
          rw [List.nil_append] at htail
          rw [← htail]
          simp
        obtain ⟨item, _, rfl⟩ := List.mem_map.mp hop
        cases hmakes
      | cons op' mid =>
        obtain ⟨rfl, rfl⟩ := List.cons.inj htail
        obtain ⟨done, rest, rfl, rfl, hrest'⟩ := List.map_eq_append_iff.mp hmid
        obtain ⟨item, rest', rfl, rfl, _⟩ := List.map_eq_cons_iff.mp hrest'
        rw [(creating_makes item).1, Option.some.injEq] at hmakes
        rcases h done item rest' rfl p (hmakes ▸ hp) with rfl | ⟨parent, hparent, rfl, hcontent⟩
        · exact ⟨0o755, false, List.mem_cons_self⟩
        · refine ⟨0o777, true, List.mem_cons_of_mem _ (List.mem_map.mpr ⟨parent, hparent, ?_⟩)⟩
          rw [TreeItem.creating, hcontent]

omit [DecidableEq α] in
theorem changesBottomUp_writing :
    ChangesBottomUp (writing items) ↔ BottomUp items.reverse := by
  constructor
  · intro h done item rest hsplit below hbelow
    have hops : writing items =
        (.makeDirectory [] 0o755 false :: (items.map TreeItem.creating ++
          done.map TreeItem.changing)) ++ item.changing :: rest.map TreeItem.changing := by
      rw [writing, hsplit]
      simp
    exact h _ _ _ hops item.path rfl below.changing (List.mem_map_of_mem hbelow) below.path rfl
  · intro h before op after hops path hchanges later hlater below hbelow
    -- an operation that changes a mode stands in the second part
    have hcreating : ∀ o ∈ (FileOp.makeDirectory [] 0o755 false :: items.map TreeItem.creating :
        List (FileOp α β)), o.changes = none := by
      intro o ho
      rcases List.mem_cons.mp ho with rfl | ho
      · rfl
      · obtain ⟨item, _, rfl⟩ := List.mem_map.mp ho
        exact (creating_makes item).2
    rw [writing, ← List.cons_append] at hops
    rcases List.append_eq_append_iff.mp hops with ⟨mid, _, hmid⟩ | ⟨mid, hmid, htail⟩
    · obtain ⟨done, rest, hreverse, _, hrest⟩ := List.map_eq_append_iff.mp hmid
      obtain ⟨item, rest', rfl, rfl, rfl⟩ := List.map_eq_cons_iff.mp hrest
      obtain ⟨lower, hlower, rfl⟩ := List.mem_map.mp hlater
      cases hchanges
      cases hbelow
      exact h done item rest' hreverse lower hlower
    · cases mid with
      | nil =>
        rw [List.nil_append] at htail
        obtain ⟨item, rest', hreverse, rfl, rfl⟩ := List.map_eq_cons_iff.mp htail.symm
        obtain ⟨lower, hlower, rfl⟩ := List.mem_map.mp hlater
        cases hchanges
        cases hbelow
        exact h [] item rest' hreverse lower hlower
      | cons op' mid =>
        obtain ⟨rfl, _⟩ := List.cons.inj htail
        have hnone := hcreating op (by rw [hmid]; simp)
        rw [hnone] at hchanges
        exact absurd hchanges (by simp)

/-- **Writing a tree** whose nodes come top-down, and whose modes are changed bottom-up, below a
fresh root: no operation fails, and every node is there with its recorded content and mode. -/
theorem run_writing (htree : IsTree items) (hdown : TopDown items)
    (hup : BottomUp items.reverse) :
    ∃ files, runOps u (noFiles α β) (writing items) = some files ∧
      ∀ item ∈ items, files item.path = some item.node := by
  -- the root is made before anything else
  have hroot : (FileOp.makeDirectory [] 0o755 false).step u (noFiles α β) =
      some (layout u []) := by
    rw [FileOp.step, if_pos (by rfl)]
    congr 1
  -- after the creating pass every node is there with its content, but with the mode of its creation
  have hcreated : ∀ item ∈ items, ∃ node, layout u items item.path = some node ∧
      node.content = item.node.content := by
    intro item hitem
    by_cases hpath : item.path = []
    · exact ⟨_, by rw [layout, if_pos hpath], (htree.root item hitem hpath).symm⟩
    · refine ⟨item.created u, ?_, ?_⟩
      · rw [layout, if_neg hpath, find?_of_distinct htree.distinct hitem, Option.map_some]
      · rw [TreeItem.created]
        split <;> next hcontent => exact hcontent.symm
  have hreversed : (items.reverse.map TreeItem.path).Nodup := by
    rw [List.map_reverse]
    exact (List.reverse_perm _).nodup_iff.mpr htree.distinct
  -- changing bottom-up, every parent can still be searched when its child is reached
  have hchanged := run_changing (u := u) hreversed
    (fun item hitem => by
      obtain ⟨node, hnode, _⟩ := hcreated item (List.mem_reverse.mp hitem)
      exact ⟨node, hnode⟩)
    (fun item hitem p hp => by
      obtain ⟨done, rest, hsplit⟩ := List.append_of_mem (List.mem_reverse.mp hitem)
      apply searchable_layout htree.distinct
      rcases hdown done item rest hsplit p hp with rfl | ⟨parent, hparent, hfound⟩
      · exact Or.inl rfl
      · exact Or.inr ⟨parent, hsplit ▸ List.mem_append_left _ hparent, hfound⟩)
    hup
  -- the last change of each node is its recorded mode
  refine ⟨withModes (layout u items) items.reverse, ?_, ?_⟩
  · have hcreating := run_creating (u := u) htree hdown
    rw [runOps] at hcreating hchanged
    rw [writing, runOps, List.foldlM_cons, hroot, Option.bind_eq_bind, Option.bind_some,
      List.foldlM_append, hcreating]
    exact hchanged
  · intro item hitem
    obtain ⟨node, hnode, hcontent⟩ := hcreated item hitem
    rw [withModes, find?_of_distinct hreversed (List.mem_reverse.mpr hitem), hnode]
    simp only [Option.map_some]
    rw [hcontent]

end Library
