import ContractCapsule.Resolve.Assembly

/-!
# What the Assembly Wires

Each declaration of an admitted capsule or of an admitted atom has its edges in the assembled
graph. The steps of the assembly only add edges, so what one of them has wired is still there when
the last one is done.
-/

namespace ContractCapsule.Resolve

open Library Models

variable {F : Type} [FloatText F]
variable {inv : Inventory F} {w w' v : Wiring} {items : List (AdmittedCapsule F)}
variable {precedence : String → String → Ordering}

/-! ## Section 1: Lookups -/

/-- The capsule of an admitted publication is found by its reference. -/
theorem capsule?_item (h : inv.Catalogs items) (hcoherent : Coherent items)
    {item : AdmittedCapsule F} (hitem : item ∈ items) :
    inv.capsule? item.ref = some (capsuleOf item.published) := by
  have hmem := (h.publications hcoherent (item.ref, item.published)).mpr ⟨item, hitem, rfl⟩
  rw [Inventory.capsule?]
  cases hfind : inv.publications.find? fun p => entryKey p = item.ref.key with
  | none =>
    have hnone := List.find?_eq_none.mp hfind _ hmem
    exact absurd (decide_eq_true rfl) hnone
  | some p =>
    obtain ⟨other, hother, rfl⟩ := (h.publications hcoherent p).mp (List.mem_of_find?_eq_some hfind)
    have hkey : other.ref.key = item.ref.key := by
      have hsome := List.find?_some hfind
      exact of_decide_eq_true hsome
    have href := key_injective (valid_ref other) (valid_ref item) hkey
    rw [Option.map_some, hcoherent other hother item hitem href]

/-- What a lock says of an admitted capsule. -/
theorem locked_item (h : inv.Catalogs items) (hcoherent : Coherent items)
    {item : AdmittedCapsule F} (hitem : item ∈ items) (provider : CapsuleRef) :
    inv.locked item.ref provider = locks (capsuleOf item.published) provider := by
  rw [Inventory.locked, capsule?_item h hcoherent hitem, Option.any_some]

theorem contains_complete (h : inv.Catalogs items) (r : CapsuleRef) :
    inv.complete.contains r = true ↔ ∃ item ∈ items, item.ref = r ∧ item.IsComplete := by
  rw [List.contains_iff_mem, h.complete]

/-- One candidate is left when a single provider is chosen. -/
theorem unique_eq_ok {candidates : List CapsuleRef} {missing : CompileError} {r : CapsuleRef}
    (h : Inventory.unique candidates missing = .ok r) : candidates = [r] := by
  unfold Inventory.unique at h
  split at h
  · cases h
  · rw [Except.ok.inj h]
  · cases h

/-- The owners of the presence of an admitted capsule are that capsule. -/
theorem mem_nodeOwners_presence (h : inv.Describes w items) {item : AdmittedCapsule F}
    (hitem : item ∈ items) (r : CapsuleRef) :
    r ∈ inv.nodeOwners (presence item.ref) ↔ r = item.ref := by
  have hnone : inv.owners.lookup (presence item.ref) = none := by
    by_contra hsome
    -- an atom has no private identifier
    obtain ⟨other, hother, hadmits⟩ := (h.owned _).mp (Option.ne_none_iff_isSome.mp hsome)
    have hknown := h.known _ ((h.catalogs.known _).mpr ⟨other, hother, hadmits.1⟩)
    rw [isPrivate_presence] at hknown
    cases hknown
  rw [Inventory.nodeOwners, hnone]
  simp only [List.mem_filter, decide_eq_true_eq, h.catalogs.refs]
  constructor
  · rintro ⟨⟨other, _, rfl⟩, heq⟩
    exact (presence_injective (valid_ref item) (valid_ref other) heq).symm
  · rintro rfl
    exact ⟨⟨item, hitem, rfl⟩, rfl⟩

/-- The first owner of the presence of an admitted capsule. -/
theorem head?_nodeOwners_presence (h : inv.Describes w items) {item : AdmittedCapsule F}
    (hitem : item ∈ items) : (inv.nodeOwners (presence item.ref)).head? = some item.ref := by
  have hmem := mem_nodeOwners_presence h hitem
  cases howners : inv.nodeOwners (presence item.ref) with
  | nil =>
    have hself := (hmem item.ref).mpr rfl
    rw [howners] at hself
    cases hself
  | cons r rest =>
    rw [List.head?_cons, (hmem r).mp (by rw [howners]; exact List.mem_cons_self)]

/-- The owners of another node are the capsules that are admitted with it. -/
theorem mem_nodeOwners_atom (h : inv.Describes w items) {id : String}
    (hid : isPrivate id = false) (r : CapsuleRef) :
    r ∈ inv.nodeOwners id ↔ ∃ item ∈ items, item.ref = r ∧ item.Admits id := by
  rw [← h.owners, Inventory.nodeOwners]
  cases inv.owners.lookup id with
  | some owners => rfl
  | none =>
    simp only [List.mem_filter, decide_eq_true_eq, Option.getD_none, List.not_mem_nil, iff_false]
    rintro ⟨_, rfl⟩
    rw [isPrivate_presence] at hid
    cases hid

/-- The nodes of a name: the presences of the capsules with that identifier when there are any, and
the name itself otherwise. -/
theorem nodes_eq_ok (h : inv.Describes w items) {name : String} {ns : List String}
    (hnodes : inv.nodes name = .ok ns) :
    isPrivate name = false ∧
      (((∀ item ∈ items, item.ref.capsuleId ≠ name) ∧ ns = [name]) ∨
        (name ∉ inv.knownAtoms ∧ ns ≠ [] ∧
          ∀ n, n ∈ ns ↔ ∃ item ∈ items, item.ref.capsuleId = name ∧ n = presence item.ref)) := by
  simp only [Inventory.nodes, Except.bind_eq_ok, raiseIf_eq_ok, Except.pure_eq_ok] at hnodes
  obtain ⟨_, hprivate, _, hambiguous, hns⟩ := hnodes
  refine ⟨by simpa using hprivate, ?_⟩
  -- the references under the name are the presences of its items
  have hmem : ∀ n, n ∈ (inv.refs.filter fun ref => ref.capsuleId = name).map presence ↔
      ∃ item ∈ items, item.ref.capsuleId = name ∧ n = presence item.ref := by
    intro n
    simp only [List.mem_map, List.mem_filter, decide_eq_true_eq, h.catalogs.refs]
    constructor
    · rintro ⟨_, ⟨⟨item, hitem, rfl⟩, hid⟩, rfl⟩
      exact ⟨item, hitem, hid, rfl⟩
    · rintro ⟨item, hitem, hid, rfl⟩
      exact ⟨item.ref, ⟨⟨item, hitem, rfl⟩, hid⟩, rfl⟩
  generalize (inv.refs.filter fun ref => ref.capsuleId = name).map presence = refs at *
  subst hns
  by_cases hempty : refs = []
  · left
    rw [if_pos hempty]
    refine ⟨fun item hitem hid => ?_, rfl⟩
    have hpresent := (hmem (presence item.ref)).mpr ⟨item, hitem, hid, rfl⟩
    rw [hempty] at hpresent
    cases hpresent
  -- where there are any, the name is not that of an atom too, which would be ambiguous
  · right
    rw [if_neg hempty]
    exact ⟨fun hknown => hambiguous ⟨hempty, hknown⟩, hempty, hmem⟩

/-! ## Section 2: Manifests -/

/-- A capsule provides what a requirement or a conflict asks for: an interface of the family, in a
version of the range. -/
def AdmittedCapsule.Provides (precedence : String → String → Ordering) (declaration : String)
    (item : AdmittedCapsule F) : Prop :=
  ∃ family constraint, requirement declaration = .ok (family, constraint) ∧
    (∃ value ∈ (capsuleOf item.published).controlManifest.provides,
      parseInterface value = .ok family) ∧
    satisfies precedence item.ref.version constraint = .ok true

/-- `matching` finds the capsules that provide what is declared. -/
theorem mem_matching (h : inv.Catalogs items) (hcoherent : Coherent items) {declaration : String}
    {providers : List CapsuleRef} (hmatching : inv.matching precedence declaration = .ok providers)
    {item : AdmittedCapsule F} (hitem : item ∈ items) :
    item.ref ∈ providers ↔ item.Provides precedence declaration := by
  simp only [Inventory.matching, Except.bind_eq_ok] at hmatching
  obtain ⟨⟨family, constraint⟩, hrequirement, hfilter⟩ := hmatching
  have hrefs : item.ref ∈ inv.refs := (h.refs _).mpr ⟨item, hitem, rfl⟩
  obtain ⟨decided, hdecided⟩ := filterM_decides hfilter item.ref hrefs
  rw [mem_filterM hfilter, and_iff_right hrefs]
  simp only [capsule?_item h hcoherent hitem, Except.bind_eq_ok] at hdecided ⊢
  obtain ⟨found, hfound, _⟩ := hdecided
  -- the search through the provided interfaces returned, so it found what is there
  have hfamily : found = true ↔ ∃ value ∈ (capsuleOf item.published).controlManifest.provides,
      parseInterface value = .ok family := by
    rw [anyM_ok hfound]
    simp only [Except.bind_eq_ok, Except.pure_eq_ok]
    constructor
    · rintro ⟨value, hvalue, parsed, hparsed, heq⟩
      rw [eq_of_beq heq] at hparsed
      exact ⟨value, hvalue, hparsed⟩
    · rintro ⟨value, hvalue, hparsed⟩
      exact ⟨value, hvalue, family, hparsed, beq_self_eq_true _⟩
  constructor
  · rintro ⟨found', hfound', hversion⟩
    rw [hfound, Except.ok.injEq] at hfound'
    subst hfound'
    cases found with
    | false => simp at hversion
    | true => exact ⟨family, constraint, hrequirement, hfamily.mp rfl, by simpa using hversion⟩
  · rintro ⟨family', constraint', hrequirement', hprovides, hversion⟩
    rw [hrequirement, Except.ok.injEq, Prod.mk.injEq] at hrequirement'
    obtain ⟨rfl, rfl⟩ := hrequirement'
    refine ⟨found, hfound, ?_⟩
    rw [hfamily.mpr hprovides]
    simpa using hversion

/-- A capsule that may meet a requirement of another: it is admitted whole, provides what is asked
for, and is locked by the other. -/
structure AdmittedCapsule.Meets (precedence : String → String → Ordering) (declaration : String)
    (consumer provider : AdmittedCapsule F) : Prop where
  complete : provider.IsComplete
  provides : provider.Provides precedence declaration
  locked : locks (capsuleOf consumer.published) provider.ref = true

/-- A loop of steps that only add edges has added what each of its steps adds. -/
theorem Wiring.loop {α : Type} {f : Wiring → α → Except CompileError Wiring}
    (P : α → Wiring → Prop) (hgrows : ∀ x {w w'}, w.Grows w' → P x w → P x w') {xs : List α}
    (hstep : ∀ x ∈ xs, ∀ {w w'}, f w x = .ok w' → w.Grows w' ∧ P x w')
    (h : xs.foldlM f w = .ok w') : w.Grows w' ∧ ∀ x ∈ xs, P x w' := by
  obtain ⟨hends, hvisits⟩ := foldlM_visits Wiring.Grows Wiring.Grows.refl Wiring.Grows.trans
    (fun x hx _ _ hfx => (hstep x hx hfx).1) h
  refine ⟨hends, fun x hx => ?_⟩
  obtain ⟨t, t', _, ht, hrest⟩ := hvisits x hx
  exact hgrows x hrest (hstep x hx ht).2

/-- A loop of steps that only add edges only adds edges. -/
theorem Wiring.loop_grows {α : Type} {f : Wiring → α → Except CompileError Wiring} {xs : List α}
    (hstep : ∀ x ∈ xs, ∀ {w w'}, f w x = .ok w' → w.Grows w') (h : xs.foldlM f w = .ok w') :
    w.Grows w' :=
  (foldlM_visits Wiring.Grows Wiring.Grows.refl Wiring.Grows.trans hstep h).1

/-- A requirement of a capsule leads from its presence to the unit of the one provider. -/
def RequirementWired (precedence : String → String → Ordering) (items : List (AdmittedCapsule F))
    (consumer : AdmittedCapsule F) (declaration : String) (w : Wiring) : Prop :=
  ∃ provider ∈ items, consumer.Meets precedence declaration provider ∧
    w.Demands (presence consumer.ref) (unitNode provider.ref) ∧
    ∀ other ∈ items, consumer.Meets precedence declaration other → other.ref = provider.ref

theorem requireManifest_grows {consumer : CapsuleRef} {declaration : String}
    (hstep : inv.requireManifest precedence consumer w declaration = .ok w') : w.Grows w' := by
  simp only [Inventory.requireManifest, Except.bind_eq_ok, Except.pure_eq_ok] at hstep
  obtain ⟨_, _, _, _, rfl⟩ := hstep
  exact w.grows_add _ _ _ _

theorem requireManifest_wired (h : inv.Catalogs items) (hcoherent : Coherent items)
    {consumer : AdmittedCapsule F} (hconsumer : consumer ∈ items) {declaration : String}
    (hstep : inv.requireManifest precedence consumer.ref w declaration = .ok w') :
    RequirementWired precedence items consumer declaration w' := by
  simp only [Inventory.requireManifest, Except.bind_eq_ok, Except.pure_eq_ok] at hstep
  obtain ⟨providers, hproviders, r, hunique, rfl⟩ := hstep
  have hcandidates := unique_eq_ok hunique
  -- the candidates that are complete and locked are exactly one
  have hmem : ∀ x, x ∈ providers.filter (fun provider => inv.complete.contains provider &&
      inv.locked consumer.ref provider) ↔ x = r := by
    intro x
    rw [hcandidates, List.mem_singleton]
  simp only [List.mem_filter, Bool.and_eq_true, contains_complete h] at hmem
  obtain ⟨hr, ⟨provider, hprovider, rfl, hcomplete⟩, hlocked⟩ := (hmem r).mpr rfl
  refine ⟨provider, hprovider, ⟨hcomplete, ?_, ?_⟩, w.demands_add _ _, ?_⟩
  · exact (mem_matching h hcoherent hproviders hprovider).mp hr
  · rwa [locked_item h hcoherent hconsumer] at hlocked
  -- any other item that meets the requirement would be a candidate too
  · intro other hother hmeets
    apply (hmem other.ref).mp
    refine ⟨(mem_matching h hcoherent hproviders hother).mpr hmeets.provides,
      ⟨other, hother, rfl, hmeets.complete⟩, ?_⟩
    rw [locked_item h hcoherent hconsumer]
    exact hmeets.locked

theorem RequirementWired.grows {consumer : AdmittedCapsule F} {declaration : String}
    (hgrows : w.Grows w') (h : RequirementWired precedence items consumer declaration w) :
    RequirementWired precedence items consumer declaration w' := by
  obtain ⟨provider, hprovider, hmeets, hdemands, hone⟩ := h
  exact ⟨provider, hprovider, hmeets, hgrows.demands hdemands, hone⟩

/-- The capsules that a conflict of a capsule names are in conflict with it. -/
def ConflictWired (precedence : String → String → Ordering) (items : List (AdmittedCapsule F))
    (consumer : AdmittedCapsule F) (declaration : String) (w : Wiring) : Prop :=
  ∀ provider ∈ items, provider.Provides precedence declaration →
    w.Has (presence consumer.ref) (presence provider.ref) .conflicts

theorem ConflictWired.grows {consumer : AdmittedCapsule F} {declaration : String}
    (hgrows : w.Grows w') (h : ConflictWired precedence items consumer declaration w) :
    ConflictWired precedence items consumer declaration w' := by
  intro provider hprovider hprovides
  exact hgrows.has (h provider hprovider hprovides)

theorem foldl_conflicts {source : String} {f : CapsuleRef → String} (rs : List CapsuleRef) :
    let step := fun (w : Wiring) r => w.add source (f r) .conflicts true
    w.Grows (rs.foldl step w) ∧ ∀ r ∈ rs, (rs.foldl step w).Has source (f r) .conflicts := by
  induction rs generalizing w with
  | nil => exact ⟨Wiring.Grows.refl w, by simp⟩
  | cons r rs ih =>
    obtain ⟨hgrows, hall⟩ := ih (w := w.add source (f r) .conflicts true)
    refine ⟨(w.grows_add _ _ _ _).trans hgrows, fun x hx => ?_⟩
    rcases List.mem_cons.mp hx with rfl | hx
    · exact hgrows.has (w.has_add _ _ _ _)
    · exact hall x hx

theorem conflictManifest_grows {consumer : CapsuleRef} {declaration : String}
    (hstep : inv.conflictManifest precedence consumer w declaration = .ok w') : w.Grows w' := by
  simp only [Inventory.conflictManifest, Except.bind_eq_ok, Except.pure_eq_ok] at hstep
  obtain ⟨providers, _, rfl⟩ := hstep
  exact (foldl_conflicts (f := presence) providers).1

theorem conflictManifest_wired (h : inv.Catalogs items) (hcoherent : Coherent items)
    {consumer : AdmittedCapsule F} {declaration : String}
    (hstep : inv.conflictManifest precedence consumer.ref w declaration = .ok w') :
    ConflictWired precedence items consumer declaration w' := by
  simp only [Inventory.conflictManifest, Except.bind_eq_ok, Except.pure_eq_ok] at hstep
  obtain ⟨providers, hproviders, rfl⟩ := hstep
  intro provider hprovider hprovides
  exact (foldl_conflicts (f := presence) providers).2 provider.ref ((mem_matching h hcoherent hproviders hprovider).mpr hprovides)

/-- What the manifest of a capsule declares is wired. -/
structure ManifestWired (precedence : String → String → Ordering)
    (items : List (AdmittedCapsule F)) (consumer : AdmittedCapsule F) (w : Wiring) : Prop where
  requires : ∀ declaration ∈ (capsuleOf consumer.published).controlManifest.requires,
    RequirementWired precedence items consumer declaration w
  conflicts : ∀ declaration ∈ (capsuleOf consumer.published).controlManifest.conflicts,
    ConflictWired precedence items consumer declaration w

theorem ManifestWired.grows {consumer : AdmittedCapsule F} (hgrows : w.Grows w')
    (h : ManifestWired precedence items consumer w) :
    ManifestWired precedence items consumer w' :=
  ⟨fun d hd => (h.requires d hd).grows hgrows, fun d hd => (h.conflicts d hd).grows hgrows⟩

theorem mem_uniqueStrings {x : String} {xs : List String} : x ∈ uniqueStrings xs ↔ x ∈ xs := by
  rw [uniqueStrings, List.mem_insertionSort, List.mem_dedup]

theorem manifestsOf_grows {consumer : CapsuleRef}
    (hstep : inv.manifestsOf precedence w consumer = .ok w') : w.Grows w' := by
  unfold Inventory.manifestsOf at hstep
  split at hstep
  · rw [Except.ok.injEq] at hstep
    rw [hstep]
    exact Wiring.Grows.refl w'
  · simp only [Except.bind_eq_ok] at hstep
    obtain ⟨u, hrequires, hconflicts⟩ := hstep
    exact (Wiring.loop_grows (fun _ _ _ _ => requireManifest_grows) hrequires).trans
      (Wiring.loop_grows (fun _ _ _ _ => conflictManifest_grows) hconflicts)

theorem manifestsOf_wired (h : inv.Catalogs items) (hcoherent : Coherent items)
    {consumer : AdmittedCapsule F} (hconsumer : consumer ∈ items)
    (hstep : inv.manifestsOf precedence w consumer.ref = .ok w') :
    ManifestWired precedence items consumer w' := by
  simp only [Inventory.manifestsOf, capsule?_item h hcoherent hconsumer, Except.bind_eq_ok] at hstep
  obtain ⟨u, hrequires, hconflicts⟩ := hstep
  obtain ⟨_, hwired⟩ := Wiring.loop (RequirementWired precedence items consumer)
    (fun _ _ _ => RequirementWired.grows)
    (fun _ _ _ _ hd =>
      ⟨requireManifest_grows hd, requireManifest_wired h hcoherent hconsumer hd⟩) hrequires
  obtain ⟨hgrows, hwired'⟩ := Wiring.loop (ConflictWired precedence items consumer)
    (fun _ _ _ => ConflictWired.grows)
    (fun _ _ _ _ hd => ⟨conflictManifest_grows hd, conflictManifest_wired h hcoherent hd⟩) hconflicts
  exact ⟨fun d hd => (hwired d (mem_uniqueStrings.mpr hd)).grows hgrows, hwired'⟩

/-- Of two capsules in a list, one comes first. -/
theorem mem_combinations {rs : List CapsuleRef} {a b : CapsuleRef} (ha : a ∈ rs) (hb : b ∈ rs)
    (hne : a ≠ b) :
    (a, b) ∈ Inventory.combinations rs ∨ (b, a) ∈ Inventory.combinations rs := by
  induction rs with
  | nil => cases ha
  | cons r rs ih =>
    simp only [Inventory.combinations, List.mem_append, List.mem_map, Prod.mk.injEq]
    rcases List.mem_cons.mp ha with hfirst | ha'
    · rcases List.mem_cons.mp hb with hfirst' | hb'
      · exact absurd (hfirst.trans hfirst'.symm) hne
      · exact Or.inl (Or.inl ⟨b, hb', hfirst.symm, rfl⟩)
    · rcases List.mem_cons.mp hb with hfirst' | hb'
      · exact Or.inr (Or.inl ⟨a, ha', hfirst'.symm, rfl⟩)
      · rcases ih ha' hb' with hab | hba
        · exact Or.inl (Or.inr hab)
        · exact Or.inr (Or.inr hba)

theorem foldl_identityConflict (pairs : List (CapsuleRef × CapsuleRef)) :
    w.Grows (pairs.foldl Inventory.identityConflict w) ∧
      ∀ pair ∈ pairs, pair.1.capsuleId = pair.2.capsuleId →
        (pairs.foldl Inventory.identityConflict w).Has (presence pair.1) (presence pair.2)
          .conflicts := by
  induction pairs generalizing w with
  | nil => exact ⟨Wiring.Grows.refl w, by simp⟩
  | cons pair pairs ih =>
    obtain ⟨hgrows, hall⟩ := ih (w := Inventory.identityConflict w pair)
    have hfirst : w.Grows (Inventory.identityConflict w pair) := by
      unfold Inventory.identityConflict
      split
      · exact w.grows_add _ _ _ _
      · exact Wiring.Grows.refl w
    refine ⟨hfirst.trans hgrows, fun x hx hid => ?_⟩
    rcases List.mem_cons.mp hx with rfl | hx
    · apply hgrows.has
      rw [Inventory.identityConflict, if_pos hid]
      exact w.has_add _ _ _ _
    · exact hall x hx hid

/-- Two versions of one capsule are wired as a conflict, in one direction. -/
def IdentitiesWired (items : List (AdmittedCapsule F)) (w : Wiring) : Prop :=
  ∀ a ∈ items, ∀ b ∈ items, a.ref ≠ b.ref → a.ref.capsuleId = b.ref.capsuleId →
    w.Has (presence a.ref) (presence b.ref) .conflicts ∨
      w.Has (presence b.ref) (presence a.ref) .conflicts

/-- `manifests` wires what every manifest declares. -/
theorem manifests_wired (h : inv.Catalogs items) (hcoherent : Coherent items)
    (hstep : inv.manifests precedence w = .ok w') :
    ∀ item ∈ items, ManifestWired precedence items item w' := by
  simp only [Inventory.manifests, Except.bind_eq_ok, Except.pure_eq_ok] at hstep
  obtain ⟨u, hloop, rfl⟩ := hstep
  obtain ⟨_, hwired⟩ := Wiring.loop
    (fun r w => ∀ item ∈ items, item.ref = r → ManifestWired precedence items item w)
    (fun r _ _ hgrows hall item hitem href => (hall item hitem href).grows hgrows)
    (by
      intro r hr w w' hr'
      refine ⟨manifestsOf_grows hr', fun other hother href => ?_⟩
      rw [← href] at hr'
      exact manifestsOf_wired h hcoherent hother hr') hloop
  have hgrows := (foldl_identityConflict (w := u) (Inventory.combinations inv.refs)).1
  intro item hitem
  exact (hwired item.ref ((h.refs _).mpr ⟨item, hitem, rfl⟩) item hitem rfl).grows hgrows

/-- `manifests` wires the conflicts between the versions of a capsule. -/
theorem manifests_identities (h : inv.Catalogs items) (hstep : inv.manifests precedence w = .ok w') :
    w.Grows w' ∧ IdentitiesWired items w' := by
  simp only [Inventory.manifests, Except.bind_eq_ok, Except.pure_eq_ok] at hstep
  obtain ⟨u, hloop, rfl⟩ := hstep
  have hgrows := Wiring.loop_grows (fun _ _ _ _ => manifestsOf_grows) hloop
  obtain ⟨hgrows', hpairs⟩ := foldl_identityConflict (w := u) (Inventory.combinations inv.refs)
  have hrefs : ∀ item ∈ items, item.ref ∈ inv.refs := fun item hitem =>
    (h.refs _).mpr ⟨item, hitem, rfl⟩
  refine ⟨hgrows.trans hgrows', ?_⟩
  intro a ha b hb hne hid
  rcases mem_combinations (hrefs a ha) (hrefs b hb) hne with hab | hba
  · exact Or.inl (hpairs (a.ref, b.ref) hab hid)
  · exact Or.inr (hpairs (b.ref, a.ref) hba hid.symm)

/-! ## Section 3: Explicit edges -/

/-- The version of a capsule meets the constraint of an edge, when it has one. -/
def AdmittedCapsule.Fits (precedence : String → String → Ordering)
    (edge : DependencyEdge (Number F)) (item : AdmittedCapsule F) : Prop :=
  ∀ constraint, edge.versionConstraint = some constraint →
    satisfies precedence item.ref.version constraint = .ok true

/-- A decision on the version of the owners of a node says whether they fit. -/
theorem versionMatches_presence (h : inv.Describes w items) {edge : DependencyEdge (Number F)}
    (hkind : edge.edgeType = .requires ∨ edge.edgeType = .conflicts) {item : AdmittedCapsule F}
    (hitem : item ∈ items) {b : Bool}
    (hmatches : inv.versionMatches precedence (presence item.ref) edge = .ok b) :
    b = true ↔ item.Fits precedence edge := by
  unfold Inventory.versionMatches at hmatches
  unfold AdmittedCapsule.Fits
  have hmem := mem_nodeOwners_presence h hitem
  -- without a constraint every version fits, and the check says so
  cases hconstraint : edge.versionConstraint with
  | none =>
    rw [hconstraint, Except.ok.injEq] at hmatches
    simp [← hmatches]
  | some constraint =>
    rw [hconstraint] at hmatches
    have hkind' : ¬ (edge.edgeType ≠ .requires ∧ edge.edgeType ≠ .conflicts) := by
      rcases hkind with hrequires | hconflicts
      · exact fun hboth => hboth.1 hrequires
      · exact fun hboth => hboth.2 hconflicts
    simp only [if_neg hkind', Except.bind_eq_ok, Except.pure_eq_ok] at hmatches
    obtain ⟨results, hresults, rfl⟩ := hmatches
    simp only [Option.some.injEq, forall_eq']
    -- any owner or all owners, as the kind says: a capsule's node has one
    split
    · rw [any_mapM hresults]
      simp [hmem]
    · rw [all_mapM hresults]
      simp [hmem]

/-- A conflict with an atom holds when one of the atom's owners fits. -/
theorem versionMatches_conflicts (h : inv.Describes w items) {edge : DependencyEdge (Number F)}
    (hkind : edge.edgeType = .conflicts) (hprivate : isPrivate edge.target = false)
    {item : AdmittedCapsule F} (hitem : item ∈ items) (hadmits : item.Admits edge.target)
    (hfits : item.Fits precedence edge) {b : Bool}
    (hmatches : inv.versionMatches precedence edge.target edge = .ok b) : b = true := by
  unfold Inventory.versionMatches at hmatches
  cases hconstraint : edge.versionConstraint with
  | none =>
    rw [hconstraint, Except.ok.injEq] at hmatches
    exact hmatches.symm
  | some constraint =>
    have hkind' : ¬ (edge.edgeType ≠ .requires ∧ edge.edgeType ≠ .conflicts) :=
      fun hboth => hboth.2 hkind
    simp only [hconstraint, if_neg hkind', Except.bind_eq_ok, Except.pure_eq_ok] at hmatches
    obtain ⟨results, hresults, rfl⟩ := hmatches
    rw [if_pos hkind, any_mapM hresults]
    refine ⟨item.ref, ?_, hfits constraint hconstraint⟩
    exact (mem_nodeOwners_atom h hprivate item.ref).mpr ⟨item, hitem, rfl, hadmits⟩

/-- Steps that only note witnesses change no edge. -/
theorem Wiring.Grows.of_edges (h : w'.edges = w.edges) : w.Grows w' := by
  intro e he
  rw [h]
  exact ⟨e, he, rfl, id⟩

theorem requiredPair_edges {source target : String} {pair : CapsuleRef × CapsuleRef}
    (h : inv.requiredPair source target w pair = .ok w') : w'.edges = w.edges := by
  obtain ⟨consumer, provider⟩ := pair
  simp only [Inventory.requiredPair] at h
  split at h
  · rw [Except.ok.inj h]
  · simp only [Except.bind_eq_ok, Except.pure_eq_ok] at h
    obtain ⟨_, _, rfl⟩ := h
    rfl

/-- `requiredTarget` changes no edge. It leads to the target when that is an atom, and to the unit of
its capsule when that is a presence. -/
theorem requiredTarget_eq_ok {source target resolved : String} {consumers : List CapsuleRef}
    (h : inv.requiredTarget source target consumers w = .ok (resolved, w')) :
    w'.edges = w.edges ∧ (isPrivate target = false → resolved = target) ∧
      (isPrivate target = true → ∀ provider, (inv.nodeOwners target).head? = some provider →
        resolved = unitNode provider) := by
  simp only [Inventory.requiredTarget, Except.bind_eq_ok] at h
  obtain ⟨u, hloop, hresolved⟩ := h
  -- the loop over the consumers only adds requirements, never an edge
  have hedges := (foldlM_visits (fun a b : Wiring => b.edges = a.edges) (fun _ => rfl)
    (fun hab hbc => hbc.trans hab) (fun _ _ _ _ => requiredPair_edges) hloop).1
  split at hresolved
  · next hprivate =>
    split at hresolved
    · cases hresolved
    · next provider rest howners =>
      simp only [Except.bind_eq_ok, Except.pure_eq_ok, Prod.mk.injEq] at hresolved
      obtain ⟨_, _, rfl, rfl⟩ := hresolved
      refine ⟨hedges, fun hpublic => ?_, fun _ found hfound => ?_⟩
      · rw [hprivate] at hpublic
        cases hpublic
      · rw [howners, List.head?_cons, Option.some.injEq] at hfound
        rw [hfound]
  · next hpublic =>
    rw [Except.pure_eq_ok, Prod.mk.injEq] at hresolved
    obtain ⟨rfl, rfl⟩ := hresolved
    exact ⟨hedges, fun _ => rfl, fun hprivate => absurd hprivate hpublic⟩

/-- What an explicit edge comes to for one of its sources and one of its targets. -/
structure TargetWired (inv : Inventory F) (precedence : String → String → Ordering)
    (edge : DependencyEdge (Number F)) (source target : String) (w : Wiring) : Prop where
  decides : ∃ b, inv.versionMatches precedence target edge = .ok b
  demanded : Inventory.demands edge = true →
    (isPrivate target = false → w.Demands source target) ∧
    (isPrivate target = true → ∀ provider, (inv.nodeOwners target).head? = some provider →
      w.Demands source (unitNode provider))
  opposed : edge.edgeType = .conflicts →
    inv.versionMatches precedence target edge = .ok true → w.Has source target .conflicts

theorem TargetWired.grows {edge : DependencyEdge (Number F)} {source target : String}
    (hgrows : w.Grows w') (h : TargetWired inv precedence edge source target w) :
    TargetWired inv precedence edge source target w' where
  decides := h.decides
  demanded hdemands :=
    ⟨fun hpublic => hgrows.demands ((h.demanded hdemands).1 hpublic),
      fun hprivate provider hhead =>
        hgrows.demands ((h.demanded hdemands).2 hprivate provider hhead)⟩
  opposed hkind hmatches := hgrows.has (h.opposed hkind hmatches)

omit [FloatText F] in
theorem demands_iff {edge : DependencyEdge (Number F)} :
    Inventory.demands edge = true ↔ edge.edgeType = .requires ∧ edge.mandatory = true := by
  rw [Inventory.demands, Bool.and_eq_true, decide_eq_true_eq]

theorem explicitTarget_wired {edge : DependencyEdge (Number F)} {declaring : CapsuleRef}
    {source target : String}
    (h : inv.explicitTarget precedence edge declaring source w target = .ok w') :
    w.Grows w' ∧ TargetWired inv precedence edge source target w' := by
  simp only [Inventory.explicitTarget, Except.bind_eq_ok] at h
  obtain ⟨matching, hmatching, h⟩ := h
  cases matching with
  -- a target in another version is no target; a mandatory requirement must not meet one
  | false =>
    simp only [Bool.false_eq_true, if_false] at h
    split at h
    · cases h
    · next hdemands =>
      rw [Except.pure_eq_ok] at h
      subst h
      refine ⟨Wiring.Grows.refl w, ⟨_, hmatching⟩, fun hd => absurd hd hdemands, fun _ htrue => ?_⟩
      rw [hmatching] at htrue
      cases htrue
  | true =>
    simp only [if_true] at h
    split at h
    -- a mandatory requirement is resolved first, and the edge leads to what was found
    · next hdemands =>
      simp only [Except.bind_eq_ok, Except.pure_eq_ok] at h
      obtain ⟨⟨resolved, u⟩, hresolved, rfl⟩ := h
      obtain ⟨hedges, hatom, hunit⟩ := requiredTarget_eq_ok hresolved
      obtain ⟨hkind, hmandatory⟩ := demands_iff.mp hdemands
      rw [hkind, hmandatory]
      -- what was found is the atom itself or the presence node of its provider
      have hadded := u.demands_add source resolved
      dsimp only at hadded ⊢
      refine ⟨(Wiring.Grows.of_edges hedges).trans (u.grows_add _ _ _ _), ⟨_, hmatching⟩,
        fun _ => ⟨fun hpublic => ?_, fun hprivate provider hhead => ?_⟩, fun hconflicts => ?_⟩
      · rw [hatom hpublic] at hadded ⊢
        exact hadded
      · rw [hunit hprivate provider hhead] at hadded ⊢
        exact hadded
      · rw [hconflicts] at hkind
        cases hkind
    -- any other edge leads to the target as it is named
    · next hdemands =>
      rw [Except.pure_eq_ok] at h
      subst h
      refine ⟨w.grows_add _ _ _ _, ⟨_, hmatching⟩, fun hd => absurd hd hdemands, fun hkind _ => ?_⟩
      rw [hkind]
      exact w.has_add _ _ _ _

/-- A capsule that can be what an explicit edge of another requires. -/
structure AdmittedCapsule.Answers (precedence : String → String → Ordering)
    (edge : DependencyEdge (Number F)) (declaring provider : AdmittedCapsule F) : Prop where
  named : provider.ref.capsuleId = edge.target
  complete : provider.IsComplete
  fits : provider.Fits precedence edge
  locked : declaring.ref = provider.ref ∨ locks (capsuleOf declaring.published) provider.ref = true

/-- A required capsule is replaced by the presence of the one provider. -/
theorem targetsFor_capsules (h : inv.Describes w items) (hcoherent : Coherent items)
    {edge : DependencyEdge (Number F)} (hdemands : Inventory.demands edge = true)
    {declaring : AdmittedCapsule F} (hdeclaring : declaring ∈ items) {targets resolved : List String}
    (hne : targets ≠ [])
    (htargets : ∀ n, n ∈ targets ↔
      ∃ item ∈ items, item.ref.capsuleId = edge.target ∧ n = presence item.ref)
    (hresolved : inv.targetsFor precedence targets edge declaring.ref = .ok resolved) :
    ∃ provider ∈ items, declaring.Answers precedence edge provider ∧
      resolved = [presence provider.ref] ∧
      ∀ other ∈ items, declaring.Answers precedence edge other → other.ref = provider.ref := by
  have hhead : targets.head?.any isPrivate = true := by
    cases targets with
    | nil => exact absurd rfl hne
    | cons n rest =>
      obtain ⟨item, _, _, rfl⟩ := (htargets n).mp List.mem_cons_self
      exact isPrivate_presence item.ref
  simp only [Inventory.targetsFor, if_pos (And.intro hdemands hhead), Except.bind_eq_ok,
    Except.pure_eq_ok] at hresolved
  obtain ⟨candidates, hfilter, r, hunique, rfl⟩ := hresolved
  have hkind : edge.edgeType = .requires ∨ edge.edgeType = .conflicts :=
    Or.inl (demands_iff.mp hdemands).1
  -- the candidates are the capsules that answer
  have hcandidate : ∀ item ∈ items, item.ref.capsuleId = edge.target →
      (presence item.ref ∈ candidates ↔
        ∃ other ∈ items, other.ref = item.ref ∧ declaring.Answers precedence edge other) := by
    intro item hitem hid
    have htarget := (htargets _).mpr ⟨item, hitem, hid, rfl⟩
    rw [mem_filterM hfilter, and_iff_right htarget]
    simp only [head?_nodeOwners_presence h hitem]
    split
    · next hcomplete =>
      obtain ⟨whole, hwhole, href, hiscomplete⟩ := (contains_complete h.catalogs _).mp hcomplete
      simp only [Except.bind_eq_ok]
      constructor
      · rintro ⟨matching, hmatching, hkeep⟩
        have hfits := versionMatches_presence h hkind hitem hmatching
        cases matching with
        | false => simp at hkeep
        | true =>
          have hlocked : declaring.ref = item.ref ∨ inv.locked declaring.ref item.ref = true := by
            simpa using hkeep
          rw [locked_item h.catalogs hcoherent hdeclaring] at hlocked
          refine ⟨whole, hwhole, href, href ▸ hid, hiscomplete, ?_, href ▸ hlocked⟩
          intro constraint hconstraint
          rw [href]
          exact hfits.mp rfl constraint hconstraint
      · rintro ⟨other, hother, hsame, hanswers⟩
        obtain ⟨b, hb⟩ := filterM_decides hfilter _ htarget
        simp only [head?_nodeOwners_presence h hitem, if_pos hcomplete, Except.bind_eq_ok] at hb
        obtain ⟨matching, hmatching, _⟩ := hb
        have hfits : item.Fits precedence edge := by
          intro constraint hconstraint
          rw [← hsame]
          exact hanswers.fits constraint hconstraint
        refine ⟨matching, hmatching, ?_⟩
        rw [(versionMatches_presence h hkind hitem hmatching).mpr hfits, if_pos rfl,
          locked_item h.catalogs hcoherent hdeclaring, ← hsame]
        have hlocked := hanswers.locked
        simpa using hlocked
    · next hincomplete =>
      constructor
      · intro hfalse
        cases hfalse
      · rintro ⟨other, hother, hsame, hanswers⟩
        exact absurd ((contains_complete h.catalogs _).mpr ⟨other, hother, hsame, hanswers.complete⟩)
          hincomplete
  have hproviders := unique_eq_ok hunique
  have hmem : ∀ x, x = r ↔ ∃ target ∈ candidates, (inv.nodeOwners target).head? = some x := by
    intro x
    rw [← List.mem_filterMap, hproviders, List.mem_singleton]
  obtain ⟨target, htarget, hfirst⟩ := (hmem r).mp rfl
  obtain ⟨item, hitem, hid, rfl⟩ := (htargets target).mp ((mem_filterM hfilter target).mp htarget).1
  rw [head?_nodeOwners_presence h hitem, Option.some.injEq] at hfirst
  subst hfirst
  obtain ⟨provider, hprovider, hsame, hanswers⟩ := (hcandidate item hitem hid).mp htarget
  refine ⟨provider, hprovider, hanswers, by rw [hsame], fun other hother hother' => ?_⟩
  rw [hsame]
  apply (hmem other.ref).mpr
  refine ⟨presence other.ref, ?_, head?_nodeOwners_presence h hother⟩
  exact (hcandidate other hother hother'.named).mpr ⟨other, hother, rfl, hother'⟩

/-- A node that an explicit edge of a capsule starts at. -/
def AdmittedCapsule.StartsAt (item : AdmittedCapsule F) (edge : DependencyEdge (Number F))
    (source : String) : Prop :=
  (item.Admits edge.source ∧ source = edge.source) ∨
    (edge.source = item.ref.capsuleId ∧ source = presence item.ref)

/-- An explicit edge of a capsule is wired from one of the nodes it starts at. -/
structure EdgeWired (precedence : String → String → Ordering) (items : List (AdmittedCapsule F))
    (declaring : AdmittedCapsule F) (edge : DependencyEdge (Number F)) (source : String)
    (w : Wiring) : Prop where
  demandedAtom : Inventory.demands edge = true →
    (∀ item ∈ items, item.ref.capsuleId ≠ edge.target) →
      isPrivate edge.target = false ∧ w.Demands source edge.target
  demandedCapsule : Inventory.demands edge = true →
    (∃ item ∈ items, item.ref.capsuleId = edge.target) →
      ∃ provider ∈ items, declaring.Answers precedence edge provider ∧
        w.Demands source (unitNode provider.ref) ∧
        ∀ other ∈ items, declaring.Answers precedence edge other → other.ref = provider.ref
  opposedAtom : edge.edgeType = .conflicts →
    ∀ item ∈ items, item.Admits edge.target → item.Fits precedence edge →
      w.Has source edge.target .conflicts
  opposedCapsule : edge.edgeType = .conflicts →
    ∀ item ∈ items, item.ref.capsuleId = edge.target → item.Fits precedence edge →
      w.Has source (presence item.ref) .conflicts

theorem EdgeWired.grows {declaring : AdmittedCapsule F} {edge : DependencyEdge (Number F)}
    {source : String} (hgrows : w.Grows w')
    (h : EdgeWired precedence items declaring edge source w) :
    EdgeWired precedence items declaring edge source w' where
  demandedAtom hdemands hatom := (h.demandedAtom hdemands hatom).imp_right hgrows.demands
  demandedCapsule hdemands hcapsule := by
    obtain ⟨provider, hprovider, hanswers, hwired, hone⟩ := h.demandedCapsule hdemands hcapsule
    exact ⟨provider, hprovider, hanswers, hgrows.demands hwired, hone⟩
  opposedAtom hkind item hitem hadmits hfits :=
    hgrows.has (h.opposedAtom hkind item hitem hadmits hfits)
  opposedCapsule hkind item hitem hid hfits :=
    hgrows.has (h.opposedCapsule hkind item hitem hid hfits)

/-- `targetsFor` keeps the targets of an edge unless it requires a capsule. -/
theorem targetsFor_of_not {edge : DependencyEdge (Number F)} {targets resolved : List String}
    {declaring : CapsuleRef}
    (hnot : ¬ (Inventory.demands edge = true ∧ targets.head?.any isPrivate = true))
    (h : inv.targetsFor precedence targets edge declaring = .ok resolved) : resolved = targets := by
  rw [Inventory.targetsFor, if_neg hnot, Except.ok.injEq] at h
  exact h.symm

theorem explicitSource_grows {edge : DependencyEdge (Number F)} {declaring : CapsuleRef}
    {targets : List String} {source : String}
    (hstep : inv.explicitSource precedence edge declaring targets w source = .ok w') :
    w.Grows w' := by
  rw [Inventory.explicitSource] at hstep
  split at hstep
  · rw [Except.ok.injEq] at hstep
    rw [hstep]
    exact Wiring.Grows.refl w'
  · simp only [Except.bind_eq_ok] at hstep
    obtain ⟨resolved, _, hloop⟩ := hstep
    exact Wiring.loop_grows (fun _ _ _ _ hx => (explicitTarget_wired hx).1) hloop

/-- `explicitSource` wires the edge from a source that the declaring capsule owns. -/
theorem explicitSource_wired (h : inv.Describes v items) (hcoherent : Coherent items)
    {edge : DependencyEdge (Number F)} {declaring : AdmittedCapsule F}
    (hdeclaring : declaring ∈ items) {targets : List String}
    (htargets : inv.nodes edge.target = .ok targets) {source : String}
    (hstep : inv.explicitSource precedence edge declaring.ref targets w source = .ok w')
    (howns : declaring.ref ∈ inv.nodeOwners source) :
    EdgeWired precedence items declaring edge source w' := by
  rw [Inventory.explicitSource] at hstep
  split at hstep
  · next hforeign => exact absurd howns hforeign
  · simp only [Except.bind_eq_ok] at hstep
    obtain ⟨resolved, hresolved, hloop⟩ := hstep
    -- each target is wired in its turn, and later turns only add to the wiring
    obtain ⟨_, hwired⟩ := Wiring.loop (TargetWired inv precedence edge source)
      (fun _ _ _ => TargetWired.grows) (fun _ _ _ _ => explicitTarget_wired) hloop
    obtain ⟨hpublic, ⟨hatom, rfl⟩ | ⟨hunknown, hne, hnodes⟩⟩ := nodes_eq_ok h htargets
    · -- the target is an atom
      have hkeep := targetsFor_of_not (by simp [hpublic]) hresolved
      subst hkeep
      have htarget := hwired edge.target (List.mem_singleton_self _)
      refine ⟨fun hdemands _ => ⟨hpublic, (htarget.demanded hdemands).1 hpublic⟩, ?_, ?_, ?_⟩
      · rintro _ ⟨item, hitem, hid⟩
        exact absurd hid (hatom item hitem)
      · intro hkind item hitem hadmits hfits
        obtain ⟨b, hb⟩ := htarget.decides
        -- the conflict matches the owner of the atom, so the turn of this target wired it
        have htrue := versionMatches_conflicts h hkind hpublic hitem hadmits hfits hb
        exact htarget.opposed hkind (by rw [hb, htrue])
      · intro _ item hitem hid
        exact absurd hid (hatom item hitem)
    · -- the target is a capsule, in one or more versions
      have hcapsule : ∃ item ∈ items, item.ref.capsuleId = edge.target := by
        obtain ⟨n, hn⟩ := List.exists_mem_of_ne_nil targets hne
        obtain ⟨item, hitem, hid, _⟩ := (hnodes n).mp hn
        exact ⟨item, hitem, hid⟩
      obtain ⟨named, hnamed, hnamedId⟩ := hcapsule
      refine ⟨fun _ hatom => absurd hnamedId (hatom named hnamed), ?_, ?_, ?_⟩
      -- a mandatory requirement is resolved to one capsule, which answers it and is alone
      · intro hdemands _
        obtain ⟨provider, hprovider, hanswers, rfl, hone⟩ :=
          targetsFor_capsules h hcoherent hdemands hdeclaring hne hnodes hresolved
        have htarget := hwired _ (List.mem_singleton_self _)
        exact ⟨provider, hprovider, hanswers, (htarget.demanded hdemands).2
          (isPrivate_presence _) _ (head?_nodeOwners_presence h hprovider), hone⟩
      · -- no atom has the name of a capsule
        intro _ item hitem hadmits
        exact absurd ((h.catalogs.known _).mpr ⟨item, hitem, hadmits.1⟩) hunknown
      -- a conflict keeps all versions as targets, and the matching ones are wired
      · intro hkind item hitem hid hfits
        have hnot : Inventory.demands edge ≠ true := fun hdemands => by
          rw [(demands_iff.mp hdemands).1] at hkind
          cases hkind
        have hkeep := targetsFor_of_not (fun hboth => hnot hboth.1) hresolved
        subst hkeep
        have htarget := hwired _ ((hnodes _).mpr ⟨item, hitem, hid, rfl⟩)
        obtain ⟨b, hb⟩ := htarget.decides
        have htrue := (versionMatches_presence h (Or.inr hkind) hitem hb).mpr hfits
        exact htarget.opposed hkind (by rw [hb, htrue])

/-- `explicit` goes through the sources of an edge. -/
theorem explicit_eq_ok {capsule : Capsule (Number F)} {declaring : CapsuleRef}
    {edge : DependencyEdge (Number F)}
    (hstep : inv.explicit precedence capsule declaring w edge = .ok w') :
    ∃ sources targets, inv.nodes edge.source = .ok sources ∧ inv.nodes edge.target = .ok targets ∧
      (if edge.source = declaring.capsuleId then [presence declaring] else sources).foldlM
        (inv.explicitSource precedence edge declaring targets) w = .ok w' := by
  cases hconstraint : edge.versionConstraint with
  | none =>
    simp only [Inventory.explicit, hconstraint, Except.bind_eq_ok] at hstep
    obtain ⟨sources, hsources, targets, htargets, _, _, _, _, hloop⟩ := hstep
    exact ⟨sources, targets, hsources, htargets, hloop⟩
  | some constraint =>
    simp only [Inventory.explicit, hconstraint, Except.bind_eq_ok] at hstep
    obtain ⟨_, _, sources, hsources, targets, htargets, _, _, _, _, hloop⟩ := hstep
    exact ⟨sources, targets, hsources, htargets, hloop⟩

theorem explicit_grows {capsule : Capsule (Number F)} {declaring : CapsuleRef}
    {edge : DependencyEdge (Number F)}
    (hstep : inv.explicit precedence capsule declaring w edge = .ok w') : w.Grows w' := by
  obtain ⟨sources, targets, _, _, hloop⟩ := explicit_eq_ok hstep
  exact Wiring.loop_grows (fun _ _ _ _ => explicitSource_grows) hloop

/-- `explicit` wires the edge from each node it starts at. -/
theorem explicit_wired (h : inv.Describes v items) (hcoherent : Coherent items)
    {edge : DependencyEdge (Number F)} {declaring : AdmittedCapsule F}
    (hdeclaring : declaring ∈ items)
    (hstep : inv.explicit precedence (capsuleOf declaring.published) declaring.ref w edge = .ok w')
    {source : String} (hstarts : declaring.StartsAt edge source) :
    EdgeWired precedence items declaring edge source w' := by
  obtain ⟨sources, targets, hsources, htargets, hloop⟩ := explicit_eq_ok hstep
  obtain ⟨_, hwired⟩ := Wiring.loop
    (fun source w => declaring.ref ∈ inv.nodeOwners source →
      EdgeWired precedence items declaring edge source w)
    (fun _ _ _ hgrows hall howns => (hall howns).grows hgrows)
    (fun _ _ _ _ hx =>
      ⟨explicitSource_grows hx, explicitSource_wired h hcoherent hdeclaring htargets hx⟩) hloop
  obtain ⟨hpublic, hnames⟩ := nodes_eq_ok h hsources
  rcases hstarts with ⟨hadmits, rfl⟩ | ⟨hself, rfl⟩
  · -- the source is an admitted atom, which no capsule has the name of
    have hknown := (h.catalogs.known edge.source).mpr ⟨declaring, hdeclaring, hadmits.1⟩
    rcases hnames with ⟨hatom, rfl⟩ | ⟨hunknown, _⟩
    · have hne : edge.source ≠ declaring.ref.capsuleId :=
        fun heq => hatom declaring hdeclaring heq.symm
      rw [if_neg hne] at hwired
      apply hwired edge.source (List.mem_singleton_self _)
      exact (mem_nodeOwners_atom h hpublic _).mpr ⟨declaring, hdeclaring, rfl, hadmits⟩
    · exact absurd hknown hunknown
  · -- the source is the capsule itself
    rw [if_pos hself] at hwired
    apply hwired (presence declaring.ref) (List.mem_singleton_self _)
    exact (mem_nodeOwners_presence h hdeclaring _).mpr rfl

/-! ## Section 4: Atom edges -/

/-- What an atom requires and what it conflicts with is wired. -/
structure AtomWired (atom : Atom (Number F)) (w : Wiring) : Prop where
  requires : ∀ target ∈ atom.requiresAtoms,
    isPrivate target = false ∧ w.Demands atom.atomId target
  conflicts : ∀ target ∈ atom.conflictsWith, w.Has atom.atomId target .conflicts

omit [FloatText F] in
theorem AtomWired.grows {atom : Atom (Number F)} (hgrows : w.Grows w') (h : AtomWired atom w) :
    AtomWired atom w' :=
  ⟨fun target htarget => (h.requires target htarget).imp_right hgrows.demands,
    fun target htarget => hgrows.has (h.conflicts target htarget)⟩

theorem requireAtom_wired {atomId target : String}
    (h : inv.requireAtom atomId w target = .ok w') :
    w.Grows w' ∧ isPrivate target = false ∧ w'.Demands atomId target := by
  simp only [Inventory.requireAtom, Except.bind_eq_ok, raiseIf_eq_ok, Except.pure_eq_ok] at h
  obtain ⟨_, hpublic, ⟨resolved, u⟩, hresolved, rfl⟩ := h
  rw [Bool.not_eq_true] at hpublic
  obtain ⟨hedges, hatom, _⟩ := requiredTarget_eq_ok hresolved
  have hsame : resolved = target := hatom hpublic
  subst hsame
  exact ⟨(Wiring.Grows.of_edges hedges).trans (u.grows_add _ _ _ _), hpublic, u.demands_add _ _⟩

theorem conflictAtom_wired {atomId target : String}
    (h : Inventory.conflictAtom atomId w target = .ok w') :
    w.Grows w' ∧ w'.Has atomId target .conflicts := by
  simp only [Inventory.conflictAtom, Except.bind_eq_ok, Except.pure_eq_ok] at h
  obtain ⟨_, _, rfl⟩ := h
  exact ⟨w.grows_add _ _ _ _, w.has_add _ _ _ _⟩

theorem atomEdges_wired {atom : Atom (Number F)} (h : inv.atomEdges w atom = .ok w') :
    w.Grows w' ∧ AtomWired atom w' := by
  simp only [Inventory.atomEdges, Except.bind_eq_ok] at h
  obtain ⟨u, hrequires, hconflicts⟩ := h
  obtain ⟨hgrows, hall⟩ := Wiring.loop
    (fun target w => isPrivate target = false ∧ w.Demands atom.atomId target)
    (fun _ _ _ hgrows htarget => htarget.imp_right hgrows.demands)
    (fun _ _ _ _ => requireAtom_wired) hrequires
  obtain ⟨hgrows', hall'⟩ := Wiring.loop (fun target w => w.Has atom.atomId target .conflicts)
    (fun _ _ _ hgrows htarget => hgrows.has htarget) (fun _ _ _ _ => conflictAtom_wired) hconflicts
  exact ⟨hgrows.trans hgrows',
    fun target htarget => (hall target htarget).imp_right hgrows'.demands, hall'⟩

/-- The explicit edges of a capsule are wired. -/
def PublicationWired (precedence : String → String → Ordering) (items : List (AdmittedCapsule F))
    (item : AdmittedCapsule F) (w : Wiring) : Prop :=
  ∀ edge ∈ (capsuleOf item.published).dependencyGraph.edges, ∀ source, item.StartsAt edge source →
    EdgeWired precedence items item edge source w

theorem PublicationWired.grows {item : AdmittedCapsule F} (hgrows : w.Grows w')
    (h : PublicationWired precedence items item w) : PublicationWired precedence items item w' :=
  fun edge hedge source hstarts => (h edge hedge source hstarts).grows hgrows

theorem publicationEdges_grows {p : CapsuleRef × Publication F}
    (hstep : inv.publicationEdges precedence w p = .ok w') : w.Grows w' :=
  Wiring.loop_grows (fun _ _ _ _ => explicit_grows) hstep

theorem publicationEdges_wired (h : inv.Describes v items) (hcoherent : Coherent items)
    {item : AdmittedCapsule F} (hitem : item ∈ items)
    (hstep : inv.publicationEdges precedence w (item.ref, item.published) = .ok w') :
    PublicationWired precedence items item w' :=
  (Wiring.loop
    (fun edge w => ∀ source, item.StartsAt edge source →
      EdgeWired precedence items item edge source w)
    (fun _ _ _ hgrows hall source hstarts => (hall source hstarts).grows hgrows)
    (fun _ _ _ _ hx =>
      ⟨explicit_grows hx, fun _ hstarts => explicit_wired h hcoherent hitem hx hstarts⟩) hstep).2

theorem atomicEdges_grows (hstep : inv.atomicEdges precedence w = .ok w') : w.Grows w' := by
  simp only [Inventory.atomicEdges, Except.bind_eq_ok] at hstep
  obtain ⟨u, hatoms, hpublications⟩ := hstep
  exact (Wiring.loop_grows (fun _ _ _ _ hx => (atomEdges_wired hx).1) hatoms).trans
    (Wiring.loop_grows (fun _ _ _ _ => publicationEdges_grows) hpublications)

/-- `atomicEdges` wires what every admitted atom and every admitted capsule declares. -/
theorem atomicEdges_wired (h : inv.Describes v items) (hcoherent : Coherent items)
    (hstep : inv.atomicEdges precedence w = .ok w') :
    (∀ atom ∈ inv.atoms, AtomWired atom w') ∧
      ∀ item ∈ items, PublicationWired precedence items item w' := by
  simp only [Inventory.atomicEdges, Except.bind_eq_ok] at hstep
  obtain ⟨u, hatoms, hpublications⟩ := hstep
  obtain ⟨_, hall⟩ := Wiring.loop AtomWired (fun _ _ _ => AtomWired.grows)
    (fun _ _ _ _ => atomEdges_wired) hatoms
  obtain ⟨hgrows, hall'⟩ := Wiring.loop
    (fun p w => ∀ item ∈ items, p = (item.ref, item.published) →
      PublicationWired precedence items item w)
    (fun _ _ _ hgrows hall item hitem hp => (hall item hitem hp).grows hgrows)
    (by
      intro p hp w w' hstep
      refine ⟨publicationEdges_grows hstep, fun other hother hsame => ?_⟩
      rw [hsame] at hstep
      exact publicationEdges_wired h hcoherent hother hstep) hpublications
  refine ⟨fun atom hatom => (hall atom hatom).grows hgrows, ?_⟩
  intro item hitem
  exact hall' _ ((h.catalogs.publications hcoherent _).mpr ⟨item, hitem, rfl⟩) item hitem rfl

/-! ## Section 5: The assembled graph -/

theorem rootsOf_edges {roots : List String} {declaration : String}
    {state : List String × Wiring}
    (h : inv.rootsOf (roots, w) declaration = .ok state) : state.2.edges = w.edges := by
  simp only [Inventory.rootsOf, Except.bind_eq_ok, Except.pure_eq_ok] at h
  obtain ⟨_, _, _, _, rfl⟩ := h
  rfl

theorem roots_edges {task : TaskContext} {state : List String × Wiring}
    (h : inv.roots task w = .ok state) : state.2.edges = w.edges := by
  simp only [Inventory.roots, Except.bind_eq_ok, Except.pure_eq_ok] at h
  obtain ⟨found, hloop, _, _, rfl⟩ := h
  exact (foldlM_visits (fun a b : List String × Wiring => b.2.edges = a.2.edges) (fun _ => rfl)
    (fun hab hbc => hbc.trans hab) (fun _ _ _ _ => rootsOf_edges) hloop).1

/-- What is known of the inventory and the wiring behind a resolved graph. -/
structure Assembled (precedence : String → String → Ordering) (items : List (AdmittedCapsule F))
    (g : ResolvedGraph F) (inv : Inventory F) (w : Wiring) : Prop where
  describes : inv.Describes w items
  manifests : ∀ item ∈ items, ManifestWired precedence items item w
  identities : IdentitiesWired items w
  atoms : ∀ atom ∈ inv.atoms, AtomWired atom w
  publications : ∀ item ∈ items, PublicationWired precedence items item w
  graphAtoms : ∀ atom, atom ∈ g.atoms ↔ atom ∈ inv.atoms
  graphOwners : ∀ id, g.ownersOf id = (inv.owners.lookup id).getD []
  graphPublications : g.publications = inv.publications
  graphEdges : ∀ e, e ∈ g.edges ↔ e ∈ w.edges

/-- `resolveGraph` wires every declaration of an admission. -/
theorem resolveGraph_assembled {sha256 : List Char → String} {admission : AdmissionResult F}
    {task : TaskContext} {g : ResolvedGraph F} (hcoherent : Coherent admission.items)
    (h : resolveGraph precedence sha256 admission task = .ok g) :
    ∃ inv w, Assembled precedence admission.items g inv w := by
  simp only [resolveGraph, Except.bind_eq_ok, Except.pure_eq_ok] at h
  obtain ⟨⟨inv, w₀⟩, hinventory, ⟨roots, w₁⟩, hroots, w₂, hmanifests, w₃, hatomic, rfl⟩ := h
  have hstart := inventory_describes hinventory
  have hgrows₁ : w₀.Grows w₁ := Wiring.Grows.of_edges (roots_edges hroots)
  have hwired := manifests_wired hstart.catalogs hcoherent hmanifests
  obtain ⟨hgrows₂, hidentities⟩ := manifests_identities hstart.catalogs hmanifests
  have hgrows₃ := atomicEdges_grows hatomic
  obtain ⟨hatoms, hpublications⟩ := atomicEdges_wired hstart hcoherent hatomic
  refine ⟨inv, w₃, ?_, ?_, ?_, hatoms, hpublications, ?_, ?_, rfl, ?_⟩
  -- what one stage has wired, the later stages keep
  · exact hstart.grows ((hgrows₁.trans hgrows₂).trans hgrows₃)
  · exact fun item hitem => (hwired item hitem).grows hgrows₃
  · intro a ha b hb hne hid
    exact (hidentities a ha b hb hne hid).imp hgrows₃.has hgrows₃.has
  · intro atom
    exact List.mem_insertionSort _
  -- the owners are sorted at the end, which keeps what is found under a key
  · intro id
    have hperm := List.perm_insertionSort (fun a b : String × List CapsuleRef => a.1 ≤ b.1)
      inv.owners
    show ((inv.owners.insertionSort _).lookup id).getD [] = _
    rw [lookup_perm hperm.symm hstart.ownersNodup]
  · intro e
    exact List.mem_insertionSort _

end ContractCapsule.Resolve
