import ContractCapsule.Library.Loops
import ContractCapsule.Resolve.Graph

/-!
# The Assembly

What `inventory` writes down of an admission, and that the later steps of the assembly only add
edges.
-/

namespace ContractCapsule.Resolve

open Library Models

variable {F : Type} [FloatText F]

/-! ## Section 1: Keys -/

/-- Texts with a separator that the last part does not have are split at it in one way. -/
theorem append_separator_inj {c : Char} {as bs as' bs' : List Char} (hbs : c ∉ bs) (hbs' : c ∉ bs')
    (h : as ++ c :: bs = as' ++ c :: bs') : as = as' ∧ bs = bs' := by
  have htail : ∀ xs ys : List Char, c ∉ ys →
      (xs ++ c :: ys).reverse.takeWhile (· != c) = ys.reverse := by
    intro xs ys hys
    have hall : ∀ d ∈ ys.reverse, (d != c) = true := by
      intro d hd
      rw [bne_iff_ne]
      rintro rfl
      exact hys (List.mem_reverse.mp hd)
    rw [List.reverse_append, List.reverse_cons, List.append_assoc,
      List.takeWhile_append_of_pos hall, List.singleton_append,
      List.takeWhile_cons_of_neg (by simp), List.append_nil]
  have heq : bs = bs' := by
    rw [← List.reverse_inj, ← htail as bs hbs, ← htail as' bs' hbs', h]
  subst heq
  exact ⟨List.append_cancel_right h, rfl⟩

/-- A digest has no number sign. -/
theorem notMem_digest {s : String} (h : isDigest s = true) : '#' ∉ s.toList := by
  intro hc
  have halphabet := Pattern.accepts_alphabet h hc
  exact absurd halphabet (by decide)

/-- A version has no at sign. -/
theorem notMem_semVer {s : String} (h : isSemVer s = true) : '@' ∉ s.toList := by
  intro hc
  have halphabet := Pattern.accepts_alphabet h hc
  exact absurd halphabet (by decide)

/-- References are told apart by their keys. -/
theorem key_injective {a b : CapsuleRef} (ha : a.valid = true) (hb : b.valid = true)
    (h : a.key = b.key) : a = b := by
  simp only [CapsuleRef.valid, Bool.and_eq_true] at ha hb
  have htext := congrArg String.toList h
  simp only [CapsuleRef.key, String.toList_append, List.append_assoc] at htext
  -- the digest is what stands after the last number sign
  have hkeys : (a.capsuleId.toList ++ '@' :: a.version.toList) ++ '#' :: a.digest.toList =
      (b.capsuleId.toList ++ '@' :: b.version.toList) ++ '#' :: b.digest.toList := by
    simpa using htext
  have hdigest := append_separator_inj (notMem_digest ha.2) (notMem_digest hb.2) hkeys
  -- and the version what stands after the last at sign before it
  have hversion := append_separator_inj (notMem_semVer ha.1.2) (notMem_semVer hb.1.2) hdigest.1
  cases a
  cases b
  simp only [CapsuleRef.mk.injEq]
  exact ⟨String.toList_injective hversion.1, String.toList_injective hversion.2,
    String.toList_injective hdigest.2⟩

/-- The reference of an admitted publication is valid. -/
theorem valid_ref (item : AdmittedCapsule F) : item.ref.valid = true := by
  have hmanifest := (Capsule.valid_iff.mp item.published.property).controlManifest
  simp only [ControlManifest.valid, Bool.and_eq_true] at hmanifest
  obtain ⟨⟨⟨⟨⟨⟨⟨⟨⟨⟨⟨⟨hid, hversion⟩, hdigest⟩, _⟩, _⟩, _⟩, _⟩, _⟩, _⟩, _⟩, _⟩, _⟩, _⟩ := hmanifest
  have hnonempty : isNonEmpty (capsuleOf item.published).controlManifest.capsuleId = true := by
    by_contra hempty
    have hnil : (capsuleOf item.published).controlManifest.capsuleId = "" := by
      simpa [isNonEmpty] using hempty
    rw [hnil] at hid
    exact absurd hid (by decide)
  simp only [CapsuleRef.valid, Bool.and_eq_true]
  exact ⟨⟨hnonempty, hversion⟩, hdigest⟩

theorem isPrivate_presence (ref : CapsuleRef) : isPrivate (presence ref) = true := by
  rw [isPrivate, presence, String.toList_append, String.toList_append, List.append_assoc]
  exact List.isPrefixOf_iff_prefix.mpr (List.prefix_append _ _)

theorem isPrivate_unitNode (ref : CapsuleRef) : isPrivate (unitNode ref) = true := by
  rw [isPrivate, unitNode, String.toList_append, String.toList_append, List.append_assoc]
  exact List.isPrefixOf_iff_prefix.mpr (List.prefix_append _ _)

theorem presence_injective {a b : CapsuleRef} (ha : a.valid = true) (hb : b.valid = true)
    (h : presence a = presence b) : a = b := by
  apply key_injective ha hb
  apply String.toList_injective
  have htext := congrArg String.toList h
  simp only [presence, String.toList_append] at htext
  exact List.append_cancel_left htext

/-! ## Section 2: Edges -/

/-- The wiring has an edge. -/
def Wiring.Has (w : Wiring) (source target : String) (kind : EdgeType) : Prop :=
  ∃ e ∈ w.edges, e.key = (source, target, kind)

/-- The wiring has a mandatory edge of a requirement. -/
def Wiring.Demands (w : Wiring) (source target : String) : Prop :=
  ∃ e ∈ w.edges, e.key = (source, target, .requires) ∧ e.mandatory = true

/-- No edge was lost, and no mandatory edge became optional. -/
def Wiring.Grows (w w' : Wiring) : Prop :=
  ∀ e ∈ w.edges, ∃ e' ∈ w'.edges, e'.key = e.key ∧ (e.mandatory = true → e'.mandatory = true)

theorem Wiring.Grows.refl (w : Wiring) : w.Grows w := fun e he => ⟨e, he, rfl, id⟩

theorem Wiring.Grows.trans {a b c : Wiring} (hab : a.Grows b) (hbc : b.Grows c) : a.Grows c := by
  intro e he
  obtain ⟨e', he', hkey, hmandatory⟩ := hab e he
  obtain ⟨e'', he'', hkey', hmandatory'⟩ := hbc e' he'
  exact ⟨e'', he'', hkey'.trans hkey, hmandatory' ∘ hmandatory⟩

theorem Wiring.Grows.has {w w' : Wiring} (h : w.Grows w') {source target : String}
    {kind : EdgeType} (hw : w.Has source target kind) : w'.Has source target kind := by
  obtain ⟨e, he, hkey⟩ := hw
  obtain ⟨e', he', hkey', _⟩ := h e he
  exact ⟨e', he', hkey'.trans hkey⟩

theorem Wiring.Grows.demands {w w' : Wiring} (h : w.Grows w') {source target : String}
    (hw : w.Demands source target) : w'.Demands source target := by
  obtain ⟨e, he, hkey, hmandatory⟩ := hw
  obtain ⟨e', he', hkey', hmandatory'⟩ := h e he
  exact ⟨e', he', hkey'.trans hkey, hmandatory' hmandatory⟩

/-- Adding an edge loses none. -/
theorem Wiring.grows_add (w : Wiring) (source target : String) (kind : EdgeType)
    (mandatory : Bool) : w.Grows (w.add source target kind mandatory) := by
  intro e he
  by_cases hkey : e.key = (source, target, kind)
  · refine ⟨_, mem_assign_self, hkey.symm, fun hmandatory => ?_⟩
    have hprevious : (w.edges.any fun e => e.key == (source, target, kind) && e.mandatory) = true :=
      List.any_eq_true.mpr ⟨e, he, by rw [hkey, hmandatory, Bool.and_true, beq_self_eq_true]⟩
    show (mandatory || _) = true
    rw [hprevious, Bool.or_true]
  · exact ⟨e, mem_assign_of_ne he hkey, rfl, id⟩

theorem Wiring.has_add (w : Wiring) (source target : String) (kind : EdgeType)
    (mandatory : Bool) : (w.add source target kind mandatory).Has source target kind :=
  ⟨_, mem_assign_self, rfl⟩

theorem Wiring.demands_add (w : Wiring) (source target : String) :
    (w.add source target .requires true).Demands source target :=
  ⟨_, mem_assign_self, rfl, rfl⟩

/-! ## Section 3: The inventory -/

/-- Items of one reference carry one publication. -/
def Coherent (items : List (AdmittedCapsule F)) : Prop :=
  ∀ a ∈ items, ∀ b ∈ items, a.ref = b.ref → a.published = b.published

/-- What the inventory says of the publications. It keeps every one of them only when those of one
reference are the same. -/
structure Inventory.Catalogs (inv : Inventory F) (items : List (AdmittedCapsule F)) : Prop where
  refs : ∀ r, r ∈ inv.refs ↔ ∃ item ∈ items, item.ref = r
  publications : Coherent items →
    ∀ p, p ∈ inv.publications ↔ ∃ item ∈ items, p = (item.ref, item.published)
  known : ∀ id, id ∈ inv.knownAtoms ↔ ∃ item ∈ items, id ∈ item.payload.map Atom.atomId
  complete : ∀ r, r ∈ inv.complete ↔ ∃ item ∈ items, item.ref = r ∧ item.IsComplete

/-- What the inventory and the wiring say of the admitted atoms, each with its capsule. -/
structure Inventory.Admits (inv : Inventory F) (w : Wiring)
    (pairs : List (CapsuleRef × Atom (Number F))) : Prop where
  atoms : ∀ id, id ∈ inv.atoms.map Atom.atomId ↔ ∃ pair ∈ pairs, pair.2.atomId = id
  atomsNodup : (inv.atoms.map Atom.atomId).Nodup
  ownersNodup : (inv.owners.map Prod.fst).Nodup
  owners : ∀ id owners, inv.owners.lookup id = some owners →
    ∀ r, r ∈ owners ↔ ∃ pair ∈ pairs, pair.1 = r ∧ pair.2.atomId = id
  owned : ∀ pair ∈ pairs, (inv.owners.lookup pair.2.atomId).isSome = true
  ownedAtoms : ∀ id, (inv.owners.lookup id).isSome = true → id ∈ inv.atoms.map Atom.atomId
  valid : ∀ pair ∈ pairs, pair.1.valid = true
  present : ∀ pair ∈ pairs, w.Demands pair.2.atomId (presence pair.1)
  united : ∀ pair ∈ pairs, w.Demands (unitNode pair.1) pair.2.atomId

/-- The admitted atoms of an item. -/
def AdmittedCapsule.pairs (item : AdmittedCapsule F) : List (CapsuleRef × Atom (Number F)) :=
  (item.payload.filter fun atom => atom.atomId ∈ item.atomIds).map fun atom => (item.ref, atom)

/-- Storing a value under a key in use by equal values only adds the value. -/
theorem mem_assign_iff {α κ : Type} [DecidableEq κ] {key : α → κ} {x : α} {d : List α}
    (h : ∀ y ∈ d, key y = key x → y = x) (y : α) : y ∈ assign key x d ↔ y = x ∨ y ∈ d := by
  constructor
  · exact mem_assign
  · rintro (rfl | hy)
    · exact mem_assign_self
    · by_cases hkey : key y = key x
      · rw [h y hy hkey]
        exact mem_assign_self
      · exact mem_assign_of_ne hy hkey

/-- What holds of an item of a longer list. -/
theorem exists_mem_concat {α : Type} {P : α → Prop} {xs : List α} {x : α} :
    (∃ y ∈ xs ++ [x], P y) ↔ (∃ y ∈ xs, P y) ∨ P x := by
  simp [or_and_right, exists_or]

/-- The inventory with one more item catalogs it. -/
theorem Inventory.Catalogs.item {inv : Inventory F} {items : List (AdmittedCapsule F)}
    {item : AdmittedCapsule F} (h : inv.Catalogs items) :
    (inv.withItem item).Catalogs (items ++ [item]) := by
  refine ⟨?_, ?_, ?_, ?_⟩
  · intro r
    -- a key names one reference
    have hkeys : ∀ y ∈ inv.refs, y.key = item.ref.key → y = item.ref := by
      intro y hy hkey
      obtain ⟨i, _, rfl⟩ := (h.refs y).mp hy
      exact key_injective (valid_ref i) (valid_ref item) hkey
    rw [exists_mem_concat, ← h.refs, Inventory.withItem, mem_assign_iff hkeys, or_comm]
    exact or_congr_right eq_comm
  · intro hcoherent p
    -- and, among coherent items, one publication
    have hdone : Coherent items := fun a ha b hb =>
      hcoherent a (List.mem_append_left _ ha) b (List.mem_append_left _ hb)
    have hkeys : ∀ y ∈ inv.publications, entryKey y = entryKey (item.ref, item.published) →
        y = (item.ref, item.published) := by
      intro y hy hkey
      obtain ⟨i, hi, rfl⟩ := (h.publications hdone y).mp hy
      have href : i.ref = item.ref := key_injective (valid_ref i) (valid_ref item) hkey
      have hpublished := hcoherent i (List.mem_append_left _ hi) item
        (List.mem_append_right _ (List.mem_singleton_self _)) href
      rw [href, hpublished]
    rw [exists_mem_concat, ← h.publications hdone, Inventory.withItem, mem_assign_iff hkeys, or_comm]
  · intro id
    rw [exists_mem_concat, ← h.known, Inventory.withItem, List.mem_append]
  · intro r
    rw [exists_mem_concat, ← h.complete, Inventory.withItem]
    by_cases hcomplete : item.IsComplete
    · rw [if_pos hcomplete, List.mem_append, List.mem_singleton, and_iff_left hcomplete]
      exact or_congr_right eq_comm
    · rw [if_neg hcomplete, iff_false_intro (fun hr => hcomplete (And.right hr)), or_false]

/-- The owners of an atom are the capsules it is admitted with. -/
theorem Inventory.Admits.mem_owners {inv : Inventory F} {w : Wiring}
    {pairs : List (CapsuleRef × Atom (Number F))} (h : inv.Admits w pairs) (id : String)
    (r : CapsuleRef) : r ∈ (inv.owners.lookup id).getD [] ↔
      ∃ pair ∈ pairs, pair.1 = r ∧ pair.2.atomId = id := by
  cases howners : inv.owners.lookup id with
  | some owners => exact h.owners id owners howners r
  | none =>
    rw [Option.getD_none]
    constructor
    · intro hr
      cases hr
    · rintro ⟨pair, hpair, _, hid⟩
      have howned := h.owned pair hpair
      rw [hid, howners] at howned
      cases howned

omit [FloatText F] in
/-- An atom that is assigned is among the atoms, and the others stay. -/
theorem mem_atoms_assign (a : Atom (Number F)) (atoms : List (Atom (Number F))) (id : String) :
    id ∈ (assign Atom.atomId a atoms).map Atom.atomId ↔
      id = a.atomId ∨ id ∈ atoms.map Atom.atomId := by
  simp only [List.mem_map]
  constructor
  · rintro ⟨b, hb, rfl⟩
    rcases mem_assign hb with rfl | hold
    · exact Or.inl rfl
    · exact Or.inr ⟨b, hold, rfl⟩
  · rintro (rfl | ⟨b, hb, rfl⟩)
    · exact ⟨a, mem_assign_self, rfl⟩
    · obtain ⟨c, hc, hkey⟩ := keys_assign Atom.atomId a hb
      exact ⟨c, hc, hkey⟩

/-- `admitAtom` admits one more atom, and leaves the catalog alone. -/
theorem Inventory.Admits.atom {inv : Inventory F} {w : Wiring} {state : Inventory F × Wiring}
    {ref : CapsuleRef} {pairs : List (CapsuleRef × Atom (Number F))} {a : Atom (Number F)}
    (h : inv.Admits w pairs) (href : ref.valid = true)
    (hstep : admitAtom ref (inv, w) a = .ok state) :
    state.1.Admits state.2 (pairs ++ [(ref, a)]) ∧
      ∀ items, inv.Catalogs items → state.1.Catalogs items := by
  simp only [admitAtom, Except.bind_eq_ok, Except.pure_eq_ok] at hstep
  obtain ⟨_, _, rfl⟩ := hstep
  have hgrows := (w.grows_add a.atomId (presence ref) .requires true).trans
    (Wiring.grows_add _ (unitNode ref) a.atomId .requires true)
  have hmem := h.mem_owners a.atomId
  -- the owners of the atom are those before and its capsule
  have hadd : ∀ r, r ∈ addOwner ref ((inv.owners.lookup a.atomId).getD []) ↔
      r = ref ∨ r ∈ (inv.owners.lookup a.atomId).getD [] := by
    intro r
    rw [addOwner, List.mem_insertionSort]
    apply mem_assign_iff
    intro y hy hkey
    obtain ⟨pair, hpair, rfl, _⟩ := (hmem y).mp hy
    exact key_injective (h.valid pair hpair) href hkey
  refine ⟨⟨?_, ?_, ?_, ?_, ?_, ?_, ?_, ?_, ?_⟩,
    fun items hitems => ⟨hitems.1, hitems.2, hitems.3, hitems.4⟩⟩
  · intro id
    rw [mem_atoms_assign, exists_mem_concat, h.atoms, or_comm, eq_comm]
  · exact nodup_assign h.atomsNodup
  · exact nodup_assign h.ownersNodup
  · intro id owners howners r
    rw [lookup_assign_pair] at howners
    rw [exists_mem_concat]
    split at howners
    · next hid =>
      rw [← Option.some.inj howners, hadd, hmem, or_comm, hid, and_iff_left rfl]
      exact or_congr_right eq_comm
    · next hid =>
      rw [h.owners id owners howners]
      constructor
      · exact Or.inl
      · rintro (hold | ⟨_, heq⟩)
        · exact hold
        · exact absurd heq.symm hid
  · intro pair hpair
    rw [lookup_assign_pair]
    split
    · rfl
    · next hid =>
      rcases List.mem_append.mp hpair with hold | hnew
      · exact h.owned pair hold
      · rw [List.mem_singleton.mp hnew] at hid
        exact absurd rfl hid
  · intro id hsome
    rw [lookup_assign_pair] at hsome
    rw [mem_atoms_assign]
    split at hsome
    · next hid => exact Or.inl hid
    · exact Or.inr (h.ownedAtoms id hsome)
  · intro pair hpair
    rcases List.mem_append.mp hpair with hold | hnew
    · exact h.valid pair hold
    · rw [List.mem_singleton.mp hnew]
      exact href
  · intro pair hpair
    rcases List.mem_append.mp hpair with hold | hnew
    · exact hgrows.demands (h.present pair hold)
    · rw [List.mem_singleton.mp hnew]
      exact (Wiring.grows_add _ _ _ _ _).demands (w.demands_add _ _)
  · intro pair hpair
    rcases List.mem_append.mp hpair with hold | hnew
    · exact hgrows.demands (h.united pair hold)
    · rw [List.mem_singleton.mp hnew]
      exact Wiring.demands_add _ _ _

/-- `inventoryItem` catalogs one more item and admits its atoms. -/
theorem inventoryItem_spec {state state' : Inventory F × Wiring}
    {items : List (AdmittedCapsule F)} {item : AdmittedCapsule F}
    (hcatalogs : state.1.Catalogs items)
    (hadmits : state.1.Admits state.2 (items.flatMap AdmittedCapsule.pairs))
    (h : inventoryItem state item = .ok state') :
    state'.1.Catalogs (items ++ [item]) ∧
      state'.1.Admits state'.2 ((items ++ [item]).flatMap AdmittedCapsule.pairs) := by
  have hstart : (state.1.withItem item).Admits state.2 (items.flatMap AdmittedCapsule.pairs) :=
    ⟨hadmits.atoms, hadmits.atomsNodup, hadmits.ownersNodup, hadmits.owners, hadmits.owned,
      hadmits.ownedAtoms, hadmits.valid, hadmits.present, hadmits.united⟩
  -- the loop over the atoms of the item admits them one by one
  have hloop := foldlM_invariant
    (fun done (s : Inventory F × Wiring) => s.1.Catalogs (items ++ [item]) ∧
      s.1.Admits s.2 (items.flatMap AdmittedCapsule.pairs ++ done.map fun a => (item.ref, a)))
    (by
      intro done s a s' hs hstep
      obtain ⟨hnext, hkeep⟩ := hs.2.atom (valid_ref item) hstep
      refine ⟨hkeep _ hs.1, ?_⟩
      rw [List.map_append, ← List.append_assoc]
      exact hnext)
    ⟨hcatalogs.item, by simpa using hstart⟩ h
  rw [List.flatMap_append, List.flatMap_singleton]
  exact hloop

/-- An admitted atom of an item is one of its pairs. -/
theorem exists_pair_iff {items : List (AdmittedCapsule F)} {r : CapsuleRef} {id : String} :
    (∃ pair ∈ items.flatMap AdmittedCapsule.pairs, pair.1 = r ∧ pair.2.atomId = id) ↔
      ∃ item ∈ items, item.ref = r ∧ item.Admits id := by
  constructor
  · rintro ⟨pair, hpair, rfl, rfl⟩
    obtain ⟨item, hitem, hpair⟩ := List.mem_flatMap.mp hpair
    obtain ⟨a, ha, rfl⟩ := List.mem_map.mp hpair
    obtain ⟨ha, hadmitted⟩ := List.mem_filter.mp ha
    exact ⟨item, hitem, rfl, List.mem_map_of_mem ha, of_decide_eq_true hadmitted⟩
  · rintro ⟨item, hitem, rfl, hpayload, hadmitted⟩
    obtain ⟨a, ha, rfl⟩ := List.mem_map.mp hpayload
    refine ⟨(item.ref, a), List.mem_flatMap.mpr ⟨item, hitem, ?_⟩, rfl, rfl⟩
    exact List.mem_map_of_mem (List.mem_filter.mpr ⟨ha, decide_eq_true hadmitted⟩)

/-- What the inventory and the wiring say of an admission. -/
structure Inventory.Describes (inv : Inventory F) (w : Wiring) (items : List (AdmittedCapsule F)) :
    Prop where
  catalogs : inv.Catalogs items
  atoms : ∀ id, id ∈ inv.atoms.map Atom.atomId ↔ ∃ item ∈ items, item.Admits id
  atomsNodup : (inv.atoms.map Atom.atomId).Nodup
  ownersNodup : (inv.owners.map Prod.fst).Nodup
  owners : ∀ id r, r ∈ (inv.owners.lookup id).getD [] ↔
    ∃ item ∈ items, item.ref = r ∧ item.Admits id
  owned : ∀ id, (inv.owners.lookup id).isSome = true ↔ ∃ item ∈ items, item.Admits id
  present : ∀ item ∈ items, ∀ id, item.Admits id → w.Demands id (presence item.ref)
  united : ∀ item ∈ items, ∀ id, item.Admits id → w.Demands (unitNode item.ref) id
  known : ∀ id ∈ inv.knownAtoms, isPrivate id = false
  named : ∀ item ∈ items, isPrivate item.ref.capsuleId = false

/-- Later steps leave the description true. -/
theorem Inventory.Describes.grows {inv : Inventory F} {w w' : Wiring}
    {items : List (AdmittedCapsule F)} (h : inv.Describes w items) (hgrows : w.Grows w') :
    inv.Describes w' items :=
  { h with
    present := fun item hitem id hid => hgrows.demands (h.present item hitem id hid)
    united := fun item hitem id hid => hgrows.demands (h.united item hitem id hid) }

theorem Inventory.Admits.describes {inv : Inventory F} {w : Wiring}
    {items : List (AdmittedCapsule F)} (hcatalogs : inv.Catalogs items)
    (h : inv.Admits w (items.flatMap AdmittedCapsule.pairs))
    (hnamed : ∀ name ∈ inv.knownAtoms ++ inv.refs.map CapsuleRef.capsuleId,
      isPrivate name = false) : inv.Describes w items := by
  -- an atom is owned by an item when one of the item's pairs has it
  have hatoms : ∀ id, (∃ pair ∈ items.flatMap AdmittedCapsule.pairs, pair.2.atomId = id) ↔
      ∃ item ∈ items, item.Admits id := by
    intro id
    constructor
    · rintro ⟨pair, hpair, hid⟩
      obtain ⟨item, hitem, _, hadmits⟩ := exists_pair_iff.mp ⟨pair, hpair, rfl, hid⟩
      exact ⟨item, hitem, hadmits⟩
    · rintro ⟨item, hitem, hadmits⟩
      obtain ⟨pair, hpair, _, hid⟩ := exists_pair_iff.mpr ⟨item, hitem, rfl, hadmits⟩
      exact ⟨pair, hpair, hid⟩
  have hpairs : ∀ item ∈ items, ∀ id, item.Admits id →
      ∃ pair ∈ items.flatMap AdmittedCapsule.pairs, pair.1 = item.ref ∧ pair.2.atomId = id :=
    fun item hitem id hid => exists_pair_iff.mpr ⟨item, hitem, rfl, hid⟩
  -- what was said of pairs is now said of items and the atoms they admit
  refine ⟨hcatalogs, fun id => (h.atoms id).trans (hatoms id), h.atomsNodup, h.ownersNodup,
    ?_, ?_, ?_, ?_, ?_, ?_⟩
  · intro id r
    rw [h.mem_owners, exists_pair_iff]
  · intro id
    rw [← hatoms]
    constructor
    · intro hsome
      exact (h.atoms id).mp (h.ownedAtoms id hsome)
    · rintro ⟨pair, hpair, rfl⟩
      exact h.owned pair hpair
  · intro item hitem id hid
    obtain ⟨pair, hpair, href, rfl⟩ := hpairs item hitem id hid
    rw [← href]
    exact h.present pair hpair
  · intro item hitem id hid
    obtain ⟨pair, hpair, href, rfl⟩ := hpairs item hitem id hid
    rw [← href]
    exact h.united pair hpair
  · intro id hid
    exact hnamed id (List.mem_append_left _ hid)
  · intro item hitem
    apply hnamed
    apply List.mem_append_right
    exact List.mem_map_of_mem ((hcatalogs.refs item.ref).mpr ⟨item, hitem, rfl⟩)

/-- `inventory` describes the admission. -/
theorem inventory_describes {admission : AdmissionResult F} {state : Inventory F × Wiring}
    (h : inventory admission = .ok state) :
    state.1.Describes state.2 admission.items := by
  simp only [inventory, Except.bind_eq_ok, raiseIf_eq_ok, Except.pure_eq_ok] at h
  obtain ⟨⟨inv, w⟩, hloop, _, hnamed, rfl⟩ := h
  have hperm := List.perm_insertionSort (fun a b : AdmittedCapsule F => a.ref.key ≤ b.ref.key)
    admission.items
  generalize admission.items.insertionSort (fun a b => a.ref.key ≤ b.ref.key) = items at hloop hperm
  have hmem : ∀ i, i ∈ items ↔ i ∈ admission.items := fun i => hperm.mem_iff
  have hspec := foldlM_invariant
    (fun done (s : Inventory F × Wiring) =>
      s.1.Catalogs done ∧ s.1.Admits s.2 (done.flatMap AdmittedCapsule.pairs))
    (fun _ _ _ _ hs hstep => inventoryItem_spec hs.1 hs.2 hstep)
    ⟨by constructor <;> simp [Inventory.empty], by constructor <;> simp [Inventory.empty]⟩ hloop
  obtain ⟨hcatalogs, hadmits⟩ := hspec
  have hdescribes : inv.Describes w items := hadmits.describes hcatalogs fun name hname => by
    -- a name that is wired is known: the check after the loop refuses any other
    by_contra hprivate
    exact hnamed ⟨name, hname, by simpa using hprivate⟩
  refine ⟨⟨?_, ?_, ?_, ?_⟩, ?_, hdescribes.atomsNodup, hdescribes.ownersNodup, ?_, ?_, ?_, ?_,
    hdescribes.known, ?_⟩
  -- the loop went through the items in another order; what is said of them does not depend on it
  · simpa only [hmem] using hcatalogs.refs
  · simpa only [hmem, Coherent] using hcatalogs.publications
  · simpa only [hmem] using hcatalogs.known
  · simpa only [hmem] using hcatalogs.complete
  · simpa only [hmem] using hdescribes.atoms
  · simpa only [hmem] using hdescribes.owners
  · simpa only [hmem] using hdescribes.owned
  · simpa only [hmem] using hdescribes.present
  · simpa only [hmem] using hdescribes.united
  · simpa only [hmem] using hdescribes.named

end ContractCapsule.Resolve
