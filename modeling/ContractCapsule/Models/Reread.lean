import ContractCapsule.Models.Identity

/-!
# Capsules Read Back from Canonical Texts

A capsule whose modules went through their canonical texts is valid exactly when no mapping of the
original has an integral float beyond the exact integers: the canonical text of such a float is an
integer beyond them, which the models refuse. A capsule without such floats is equal by value to
the one that was written, and it has the same canonical identity.
-/

namespace ContractCapsule.Models

open Library

variable {F : Type} [FloatText F]

/-! ## Section 1: Values -/

/-- The numbers whose canonical text is read as an exact number. -/
theorem exact_reread (n : Number F) : (reread n).exact = (n.exact && !n.inexactIntegral) := by
  cases n with
  | int i => rw [Transport.reread_int]; simp [Number.inexactIntegral]
  | float x =>
    have hread := read_jcsLexeme_reread (.float x : Number F)
    rcases Number.written_or x with ⟨i, hi, hexact⟩ | hbig | hother
    · -- an exact integral float is read as its integer
      have hsettled : (Number.float x).inexactIntegral = false := by
        rw [Bool.eq_false_iff, ne_eq, Number.inexactIntegral_iff]
        rintro ⟨j, hj, hjbig, _⟩
        rw [show j = i from Int.cast_injective (α := ℚ) (hj.symm.trans hi)] at hjbig
        omega
      rw [Number.jcsLexeme, FloatText.jcs_exact x i hi hexact, Number.read_decimal,
        Option.some.injEq] at hread
      rw [← hread, hsettled, Number.exact, Number.exact, decide_eq_true (by omega)]
      rfl
    · -- beyond the exact integers it is read as an integer that is not exact either
      have hinexact := (Number.inexactIntegral_iff x).mpr hbig
      obtain ⟨i, hi, hlow, hhigh⟩ := hbig
      obtain ⟨j, hj, hjbig, _⟩ := FloatText.jcs_integral x i hi hlow hhigh
      rw [Number.jcsLexeme, hj, Number.read_decimal, Option.some.injEq] at hread
      rw [← hread, hinexact, Number.exact, decide_eq_false (by omega), Bool.not_true, Bool.and_false]
    · -- any other float is read as itself
      have hsettled : (Number.float x).inexactIntegral = false := by
        rw [Bool.eq_false_iff, ne_eq, Number.inexactIntegral_iff]
        rintro ⟨i, hi, _, hlt⟩
        exact Nat.not_lt.mpr (hother i hi) hlt
      rw [Number.jcsLexeme, Number.read, FloatText.jcs_fraction x hother,
        if_neg Bool.false_ne_true, FloatText.read_jcs x hother, Option.map_some,
        Option.some.injEq] at hread
      rw [← hread, hsettled, Number.exact]
      rfl

/-- Whether a mapping has no integral float beyond the exact integers. -/
def settled (members : Members (Number F)) : Bool :=
  (Json.object members).numbersAll fun n => !n.inexactIntegral

/-- A mapping that went through its canonical text. -/
theorem object_throughText (ms : Members (Number F)) :
    (Json.object (Transport.throughText.members ms) : Value F) =
      ((Json.object ms).sortKeys utf16).map reread :=
  (sortKeys_map_object utf16 reread ms).symm

/-- A mapping that went through its canonical text is frozen exactly when it is settled. -/
theorem freezable_throughText (ms : Members (Number F)) :
    freezable (.object (Transport.throughText.members ms)) =
      (freezable (.object ms) && settled ms) := by
  rw [object_throughText, freezable, Json.distinct_map, Json.distinct_sortKeys,
    Json.numbersAll_map exact_reread, Json.numbersAll_sortKeys, Json.numbersAll_and, freezable,
    settled, Bool.and_right_comm]

/-- The names of a mapping stay the same. -/
theorem mem_throughText {ms : Members (Number F)} {k : String} :
    k ∈ (Transport.throughText.members ms).map Prod.fst ↔ k ∈ ms.map Prod.fst := by
  have hperm := List.perm_insertionSort (fun m n : String × Value F => utf16 m.1 ≤ utf16 n.1)
    (ms.map fun m => (m.1, (m.2.sortKeys utf16).map reread))
  have hnames := (hperm.map Prod.fst).mem_iff (a := k)
  rw [List.map_map] at hnames
  exact hnames

theorem validExtensions_throughText (ms : Members (Number F)) :
    validExtensions (Transport.throughText.members ms) = (validExtensions ms && settled ms) := by
  have hnames : (Transport.throughText.members ms).all (fun m => fullmatch extensionPattern m.1) =
      ms.all fun m => fullmatch extensionPattern m.1 := by
    rw [Bool.eq_iff_iff, List.all_eq_true, List.all_eq_true]
    have hiff : ∀ ns : Members (Number F), (∀ m ∈ ns, fullmatch extensionPattern m.1 = true) ↔
        ∀ k ∈ ns.map Prod.fst, fullmatch extensionPattern k = true := fun ns => by simp
    rw [hiff, hiff]
    simp only [mem_throughText]
  rw [validExtensions, hnames, freezable_throughText, validExtensions, Bool.and_assoc]

/-- A settled mapping that went through its canonical text is the mapping by value. -/
theorem membersByValue_throughText {ms : Members (Number F)} (hsettled : settled ms = true) :
    membersByValue (Transport.throughText.members ms) = membersByValue ms := by
  have hsame := same_reread hsettled
  rw [← object_throughText] at hsame
  have hvalue : ∀ ns : Members (Number F),
      byValue (Json.object ns) = .object (membersByValue ns) := sortKeys_map_object utf16 Number.value
  have heq : byValue (Json.object (Transport.throughText.members ms)) = byValue (Json.object ms) :=
    hsame
  rw [hvalue, hvalue] at heq
  exact Json.object.inj heq

/-! ## Section 2: Equality by value -/

/-- The mappings of a capsule whose values the models leave open: the extensions of its core and
the envelope of its signature. -/
def Capsule.openMembers {ν : Type} (c : Capsule ν) : List (Members ν) :=
  [c.controlManifest.extensions, c.semanticPayload.extensions, c.evidencePlane.extensions,
    c.dependencyGraph.extensions, c.replacementContract.extensions,
    c.compressionPolicy.extensions, c.testsIntegrity.lock.extensions,
    c.testsIntegrity.extensions] ++
    c.semanticPayload.atoms.map Atom.extensions ++
    c.evidencePlane.records.map EvidenceRecord.extensions ++
    c.dependencyGraph.edges.map DependencyEdge.extensions ++
    (c.detachedSignature.map DetachedSignature.envelope).toList

/-- Whether no open mapping of a capsule has an integral float beyond the exact integers. -/
def Capsule.settled (c : Capsule (Number F)) : Bool := c.openMembers.all Models.settled

/-- A confidence is worth the same after its canonical text was read. -/
theorem value_confidence {n : Number F} (h : validConfidence n = true) :
    (Transport.throughText.float n).value = n.value := by
  cases n with
  | int j => simp [validConfidence] at h
  | float x =>
    simp only [validConfidence, Bool.and_eq_true, decide_eq_true_eq] at h
    -- an integer between 0 and 1 is exact
    have hsmall : ∀ i : ℤ, FloatText.value x = i → 0 ≤ i ∧ i ≤ 1 := by
      intro i hi
      rw [hi] at h
      exact ⟨by exact_mod_cast h.1, by exact_mod_cast h.2⟩
    have hown : (Number.float x).inexactIntegral = false := by
      rw [Bool.eq_false_iff, ne_eq, Number.inexactIntegral_iff]
      rintro ⟨i, hi, hbig, _⟩
      have := hsmall i hi
      omega
    have hvalue := reread_value hown
    show (reread (.float x)).toFloat.value = FloatText.value x
    cases hread : reread (.float x : Number F) with
    | float y =>
      rw [hread] at hvalue
      exact hvalue
    | int i =>
      rw [hread] at hvalue
      have hx : FloatText.value x = i := hvalue.symm
      have := hsmall i hx
      exact (FloatText.value_ofInt i (by omega)).trans hvalue

theorem atomByValue_throughText {a : Atom (Number F)} (h : a.valid = true)
    (hsettled : settled a.extensions = true) :
    Capsule.atomByValue (Transport.throughText.atom a) = Capsule.atomByValue a := by
  simp only [Atom.valid, Bool.and_eq_true] at h
  simp [Capsule.atomByValue, Transport.atom, value_confidence h.1.1.1.1.1.1.2,
    membersByValue_throughText hsettled]

/-- A valid, settled capsule without sidecars that went through canonical texts is the capsule by
value. -/
theorem byValue_throughText {c : Capsule (Number F)} (h : c.valid = true)
    (hsettled : c.settled = true) (hderived : c.derivedArtifacts = [])
    (hruntime : c.runtimeSidecar = []) : (Transport.throughText.capsule c).byValue = c.byValue := by
  have hpayload := (Capsule.valid_iff.mp h).semanticPayload
  simp only [SemanticPayload.valid, Bool.and_eq_true, List.all_eq_true] at hpayload
  -- each of the open mappings is settled
  rw [Capsule.settled, List.all_eq_true] at hsettled
  have hopen : ∀ ms ∈ c.openMembers,
      membersByValue (Transport.throughText.members ms) = membersByValue ms :=
    fun ms hms => membersByValue_throughText (hsettled ms hms)
  simp only [Capsule.openMembers, List.mem_append, List.mem_cons, List.not_mem_nil, or_false,
    List.mem_map, Option.mem_toList, Option.map_eq_some_iff] at hopen hsettled
  have hatoms : (c.semanticPayload.atoms.map Transport.throughText.atom).map Capsule.atomByValue =
      c.semanticPayload.atoms.map Capsule.atomByValue := by
    rw [List.map_map]
    apply List.map_congr_left
    intro a ha
    exact atomByValue_throughText (hpayload.1.1.1 a ha)
      (hsettled _ (.inl (.inl (.inl (.inr ⟨a, ha, rfl⟩)))))
  have hrecords : (c.evidencePlane.records.map Transport.throughText.evidenceRecord).map
      Capsule.recordByValue = c.evidencePlane.records.map Capsule.recordByValue := by
    rw [List.map_map]
    apply List.map_congr_left
    intro r hr
    simp [Transport.evidenceRecord, Capsule.recordByValue,
      hopen _ (.inl (.inl (.inr ⟨r, hr, rfl⟩)))]
  have hedges : (c.dependencyGraph.edges.map Transport.throughText.dependencyEdge).map
      Capsule.edgeByValue = c.dependencyGraph.edges.map Capsule.edgeByValue := by
    rw [List.map_map]
    apply List.map_congr_left
    intro e he
    simp [Transport.dependencyEdge, Capsule.edgeByValue, hopen _ (.inl (.inr ⟨e, he, rfl⟩))]
  have hsignature : (c.detachedSignature.map Transport.throughText.detachedSignature).map
      Capsule.signatureByValue = c.detachedSignature.map Capsule.signatureByValue := by
    cases hs : c.detachedSignature with
    | none => rfl
    | some signature =>
      simp [Transport.detachedSignature, Capsule.signatureByValue,
        hopen _ (.inr ⟨signature, hs, rfl⟩)]
  -- and so are the extensions of the modules themselves
  have hmodules := fun ms hms => hopen ms (.inl (.inl (.inl (.inl hms))))
  have hempty : Transport.throughText.members ([] : Members (Number F)) = [] := rfl
  simp only [Capsule.byValue, Transport.capsule, Transport.controlManifest,
    Capsule.manifestByValue, Transport.semanticPayload, Capsule.payloadByValue, hatoms,
    Transport.evidencePlane, Capsule.planeByValue, hrecords, Transport.dependencyGraph,
    Capsule.graphByValue, hedges, Transport.replacementContract, Capsule.contractByValue,
    Transport.compressionPolicy, Capsule.policyByValue, Transport.testsIntegrity,
    Capsule.testsByValue, Transport.integrityLock, Capsule.lockByValue, hsignature, hderived,
    hruntime, hempty, hmodules, true_or, or_true]

/-! ## Section 3: Validity -/

theorem valid_atom_throughText {a : Atom (Number F)} (h : a.valid = true) :
    (Transport.throughText.atom a).valid = settled a.extensions := by
  have hvalue : validConfidence (Transport.throughText.float a.confidence) = true := by
    simp only [Atom.valid, Bool.and_eq_true] at h
    have hconfidence := h.1.1.1.1.1.1.2
    have hworth := value_confidence hconfidence
    cases hc : a.confidence with
    | int i => simp [hc, validConfidence] at hconfidence
    | float x =>
      rw [hc] at hconfidence hworth
      obtain ⟨y, hy⟩ : ∃ y, Transport.throughText.float (.float x : Number F) = .float y := by
        show ∃ y, (reread (.float x : Number F)).toFloat = .float y
        cases reread (.float x : Number F) <;> exact ⟨_, rfl⟩
      rw [hy] at hworth ⊢
      have hworth' : FloatText.value y = FloatText.value x := hworth
      simpa [validConfidence, hworth'] using hconfidence
  simp only [Atom.valid, Bool.and_eq_true] at h
  have hstatus : (decide ((Transport.throughText.atom a).status ≠ .validated) ||
      !(Transport.throughText.atom a).evidenceRefs.isEmpty) = true := h.2
  rw [Atom.valid, hstatus, Bool.and_true]
  simp only [Transport.atom, hvalue, validExtensions_throughText, h, Bool.true_and]

theorem valid_manifest_throughText {m : ControlManifest (Number F)} (h : m.valid = true) :
    (Transport.throughText.controlManifest m).valid = settled m.extensions := by
  simp only [ControlManifest.valid, Bool.and_eq_true] at h
  simp only [Transport.controlManifest, ControlManifest.valid, validExtensions_throughText, h,
    Bool.true_and]

theorem valid_payload_throughText {p : SemanticPayload (Number F)} (h : p.valid = true) :
    (Transport.throughText.semanticPayload p).valid =
      (settled p.extensions && (p.atoms.map Atom.extensions).all settled) := by
  simp only [SemanticPayload.valid, Bool.and_eq_true, List.all_eq_true] at h
  have hatoms : (p.atoms.map Transport.throughText.atom).all Atom.valid =
      (p.atoms.map Atom.extensions).all settled := by
    rw [List.all_map, List.all_map]
    exact Json.all_congr_of_mem fun a ha => valid_atom_throughText (h.1.1.1 a ha)
  have hids : (p.atoms.map Transport.throughText.atom).map Atom.atomId = p.atoms.map Atom.atomId := by
    rw [List.map_map]
    rfl
  simp only [Transport.semanticPayload, SemanticPayload.valid, hatoms, hids, List.isEmpty_map,
    validExtensions_throughText, h, Bool.true_and, Bool.and_comm]

theorem valid_record_throughText {r : EvidenceRecord (Number F)} (h : r.valid = true) :
    (Transport.throughText.evidenceRecord r).valid = settled r.extensions := by
  simp only [EvidenceRecord.valid, Bool.and_eq_true] at h
  simp only [Transport.evidenceRecord, EvidenceRecord.valid, validExtensions_throughText, h,
    Bool.true_and, Bool.and_true]

theorem valid_plane_throughText {p : EvidencePlane (Number F)} (h : p.valid = true) :
    (Transport.throughText.evidencePlane p).valid =
      (settled p.extensions && (p.records.map EvidenceRecord.extensions).all settled) := by
  simp only [EvidencePlane.valid, Bool.and_eq_true, List.all_eq_true] at h
  have hrecords : (p.records.map Transport.throughText.evidenceRecord).all EvidenceRecord.valid =
      (p.records.map EvidenceRecord.extensions).all settled := by
    rw [List.all_map, List.all_map]
    exact Json.all_congr_of_mem fun r hr => valid_record_throughText (h.1.1.1 r hr)
  have hids : (p.records.map Transport.throughText.evidenceRecord).map EvidenceRecord.evidenceId =
      p.records.map EvidenceRecord.evidenceId := by
    rw [List.map_map]
    rfl
  simp only [Transport.evidencePlane, EvidencePlane.valid, hrecords, hids, List.isEmpty_map,
    validExtensions_throughText, h, Bool.true_and, Bool.and_comm]

theorem valid_edge_throughText {e : DependencyEdge (Number F)} (h : e.valid = true) :
    (Transport.throughText.dependencyEdge e).valid = settled e.extensions := by
  simp only [DependencyEdge.valid, Bool.and_eq_true] at h
  simp only [Transport.dependencyEdge, DependencyEdge.valid, validExtensions_throughText, h,
    Bool.true_and]

theorem valid_graph_throughText {g : DependencyGraph (Number F)} (h : g.valid = true) :
    (Transport.throughText.dependencyGraph g).valid =
      (settled g.extensions && (g.edges.map DependencyEdge.extensions).all settled) := by
  simp only [DependencyGraph.valid, Bool.and_eq_true, List.all_eq_true] at h
  have hedges : (g.edges.map Transport.throughText.dependencyEdge).all DependencyEdge.valid =
      (g.edges.map DependencyEdge.extensions).all settled := by
    rw [List.all_map, List.all_map]
    exact Json.all_congr_of_mem fun e he => valid_edge_throughText (h.1.1 e he)
  have hkeys : (g.edges.map Transport.throughText.dependencyEdge).map DependencyEdge.key =
      g.edges.map DependencyEdge.key := by
    rw [List.map_map]
    rfl
  simp only [Transport.dependencyGraph, DependencyGraph.valid, hedges, hkeys,
    validExtensions_throughText, h, Bool.true_and, Bool.and_comm]

theorem valid_contract_throughText {c : ReplacementContract (Number F)} (h : c.valid = true) :
    (Transport.throughText.replacementContract c).valid = settled c.extensions := by
  simp only [ReplacementContract.valid, Bool.and_eq_true] at h
  simp only [Transport.replacementContract, ReplacementContract.valid,
    validExtensions_throughText, h, Bool.true_and]

theorem valid_policy_throughText {p : CompressionPolicy (Number F)} (h : p.valid = true) :
    (Transport.throughText.compressionPolicy p).valid = settled p.extensions := by
  simp only [CompressionPolicy.valid, Bool.and_eq_true, decide_eq_true_eq] at h
  rw [Bool.eq_iff_iff]
  simp only [Transport.compressionPolicy, CompressionPolicy.valid, validExtensions_throughText,
    Bool.and_eq_true, decide_eq_true_eq, h, true_and, and_true]

theorem valid_lock_throughText {l : IntegrityLock (Number F)} (h : l.valid = true) :
    (Transport.throughText.integrityLock l).valid = settled l.extensions := by
  simp only [IntegrityLock.valid, Bool.and_eq_true] at h
  simp only [Transport.integrityLock, IntegrityLock.valid, validExtensions_throughText, h,
    Bool.true_and]

theorem valid_tests_throughText {t : TestsIntegrity (Number F)} (h : t.valid = true) :
    (Transport.throughText.testsIntegrity t).valid =
      (settled t.lock.extensions && settled t.extensions) := by
  simp only [TestsIntegrity.valid, Bool.and_eq_true, decide_eq_true_eq] at h
  have hlock := valid_lock_throughText h.1.1.1.1.1.2
  rw [Bool.eq_iff_iff]
  simp only [Transport.testsIntegrity, TestsIntegrity.valid, hlock, validExtensions_throughText,
    Bool.and_eq_true, decide_eq_true_eq, h, true_and, and_true]

theorem valid_signature_throughText {s : DetachedSignature (Number F)} (h : s.valid = true) :
    (Transport.throughText.detachedSignature s).valid = settled s.envelope := by
  simp only [DetachedSignature.valid, Bool.and_eq_true] at h
  simp only [Transport.detachedSignature, DetachedSignature.valid, freezable_throughText, h,
    Bool.true_and]

/-- The references of a capsule do not depend on its open mappings. -/
theorem referencesClosed_throughText (c : Capsule (Number F)) :
    (Transport.throughText.capsule c).referencesClosed = c.referencesClosed := by
  cases hs : c.detachedSignature <;>
    simp [Capsule.referencesClosed, Transport.capsule, Transport.semanticPayload,
      Transport.evidencePlane, Transport.controlManifest, Transport.testsIntegrity,
      Transport.atom, Transport.evidenceRecord, Transport.detachedSignature,
      SemanticPayload.bindings, EvidencePlane.bindings, List.flatMap_map, hs, Function.comp_def]

/-- A valid capsule without sidecars is valid after it went through canonical texts exactly when
it is settled. -/
theorem valid_throughText {c : Capsule (Number F)} (h : c.valid = true)
    (hderived : c.derivedArtifacts = []) (hruntime : c.runtimeSidecar = []) :
    (Transport.throughText.capsule c).valid = c.settled := by
  have hc := Capsule.valid_iff.mp h
  -- the members that are left out of the reread capsule have nothing to settle
  have hsignature : (c.detachedSignature.map Transport.throughText.detachedSignature).all
      DetachedSignature.valid =
        (c.detachedSignature.map DetachedSignature.envelope).toList.all settled := by
    cases hs : c.detachedSignature with
    | none => rfl
    | some signature =>
      simpa using valid_signature_throughText (hc.detachedSignature signature hs)
  have hempty : freezable (.object (Transport.throughText.members ([] : Members (Number F)))) = true :=
    rfl
  simp only [Capsule.valid, referencesClosed_throughText, hc.referencesClosed, Bool.and_true]
  simp only [Transport.capsule, valid_manifest_throughText hc.controlManifest,
    valid_payload_throughText hc.semanticPayload, valid_plane_throughText hc.evidencePlane,
    valid_graph_throughText hc.dependencyGraph, valid_contract_throughText hc.replacementContract,
    valid_policy_throughText hc.compressionPolicy, valid_tests_throughText hc.testsIntegrity,
    hsignature, hderived, hruntime, hempty, Bool.and_true]
  -- what remains is the settledness of each open member, in another order
  rw [Capsule.settled, Capsule.openMembers, Bool.eq_iff_iff]
  simp only [List.all_append, List.all_cons, List.all_nil, Bool.and_eq_true, Bool.and_true]
  constructor
  · rintro ⟨⟨⟨⟨⟨⟨⟨h1, h2, h2'⟩, h3, h3'⟩, h4, h4'⟩, h5⟩, h6⟩, h7, h7'⟩, h8⟩
    exact ⟨⟨⟨⟨⟨h1, h2, h3, h4, h5, h6, h7, h7'⟩, h2'⟩, h3'⟩, h4'⟩, h8⟩
  · rintro ⟨⟨⟨⟨⟨h1, h2, h3, h4, h5, h6, h7, h7'⟩, h2'⟩, h3'⟩, h4'⟩, h8⟩
    exact ⟨⟨⟨⟨⟨⟨⟨h1, h2, h2'⟩, h3, h3'⟩, h4, h4'⟩, h5⟩, h6⟩, h7, h7'⟩, h8⟩

end ContractCapsule.Models
