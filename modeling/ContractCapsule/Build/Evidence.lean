import ContractCapsule.Build.Release
import ContractCapsule.Models.Canonical

/-!
# Evidence Identity

One evidence binding is digested twice. The quarantine digests all fields of the binding
(`binding_digest_for`), and an approval covers that digest. The registry digests what it finds in
the published evidence record and in its source map (`_binding_wire`). The publisher writes the
locator of a mode into the record only for that mode, and the registry takes the locator from the
record, so a field that does not belong to the mode of the binding is lost on the way.

`bindingWire_published` says what the registry reads, and `evidence_identity_iff` when this is what
was approved.
-/

namespace ContractCapsule.Build

open Library Models

variable {host : Host}

/-! ## Section 1: The published record -/

/-- `dict.get` of a payload. -/
def Payload.get (payload : Payload) (key : String) : PayloadValue := (payload.lookup key).getD .null

/-- A published evidence record: its members, the locator of an immutable Git source, and the
source map of its extensions. -/
structure PublishedEvidence where
  record : Payload
  locator : Option Payload
  sourceMap : Payload
deriving DecidableEq, Repr

/-- `_binding_extension` -/
def bindingExtension (binding : EvidenceBinding) (bindingDigest : String) : Payload :=
  [("binding_id", .str binding.bindingId), ("candidate_id", .str binding.candidateId),
    ("snapshot_id", .str binding.snapshotId), ("mode", .str (Enumeration.wire binding.mode)),
    ("content_digest", .str binding.contentDigest), ("path", .ofOption binding.path),
    ("symbol_or_heading", binding.symbolOrHeading.elim .null .text),
    ("start_line", binding.startLine.elim .null .number),
    ("end_line", binding.endLine.elim .null .number), ("span_digest", .str binding.spanDigest),
    ("binding_digest", .str bindingDigest), ("repository", .ofOption binding.repository),
    ("revision", .ofOption binding.revision), ("uri", .ofOption binding.uri),
    ("source", .ofOption binding.source),
    ("verification_method", .ofOption binding.verificationMethod),
    ("access_policy", .str binding.accessPolicy), ("media_type", .str binding.mediaType),
    ("captured_at", .str binding.capturedAt)]

/-- What `_evidence_record` adds to the record for the mode of the binding. -/
def EvidenceBinding.modeMembers (binding : EvidenceBinding) : Payload :=
  match binding.mode with
  | .cas => []
  | .gitImmutable =>
    [("repository", .ofOption binding.repository), ("revision", .ofOption binding.revision),
      ("path", .ofOption binding.path)]
  | .externalImmutable =>
    [("uri", .ofOption binding.uri), ("source", .ofOption binding.source),
      ("verification_method", .ofOption binding.verificationMethod)]

/-- The locator of an immutable Git source. -/
def EvidenceBinding.locator (binding : EvidenceBinding) : Option Payload :=
  match binding.mode with
  | .gitImmutable => some
    [("symbol_or_heading", binding.symbolOrHeading.elim .null .text),
      ("start_line", binding.startLine.elim .null .number),
      ("end_line", binding.endLine.elim .null .number), ("span_digest", .str binding.spanDigest)]
  | _ => none

/-- `_evidence_record` -/
def evidenceRecord (host : Host) (binding : EvidenceBinding) (atomId : String) :
    Except String PublishedEvidence := do
  host.scanSecrets binding.sourceBytes
  let bindingDigest ← bindingDigestFor host binding
  let common : Payload :=
    [("mode", .str (Enumeration.wire binding.mode)), ("evidence_id", .str binding.bindingId),
      ("atom_ids", .strs [atomId]), ("content_digest", .str binding.contentDigest),
      ("media_type", .str binding.mediaType), ("captured_at", .str binding.capturedAt),
      ("retention", .str "follow-source-policy"), ("access_policy", .str binding.accessPolicy),
      ("validation", .str "verified")]
  return ⟨common ++ binding.modeMembers, binding.locator, bindingExtension binding bindingDigest⟩

/-! ## Section 2: The registry -/

/-- `Registry._binding_wire` -/
def bindingWire (record sourceMap : Payload) : Payload :=
  [("binding_id", sourceMap.get "binding_id"), ("candidate_id", sourceMap.get "candidate_id"),
    ("snapshot_id", sourceMap.get "snapshot_id"), ("mode", record.get "mode"),
    ("content_digest", record.get "content_digest"), ("span_digest", sourceMap.get "span_digest"),
    ("media_type", record.get "media_type"), ("captured_at", record.get "captured_at"),
    ("access_policy", record.get "access_policy"), ("repository", record.get "repository"),
    ("revision", record.get "revision"), ("path", sourceMap.get "path"),
    ("symbol_or_heading", sourceMap.get "symbol_or_heading"),
    ("start_line", sourceMap.get "start_line"), ("end_line", sourceMap.get "end_line"),
    ("uri", record.get "uri"), ("source", record.get "source"),
    ("verification_method", record.get "verification_method")]

/-- The digest that the registry recomputes. -/
def registryBindingDigest (host : Host) (published : PublishedEvidence) : Except String String :=
  host.digestOf (bindingWire published.record published.sourceMap)

/-- The digest checks of `Registry._validate_bindings` on one evidence record. -/
def validateBindingDigest (host : Host) (published : PublishedEvidence)
    (evidenceDigests : List String) : Except String Unit := do
  let bindingDigest ← registryBindingDigest host published
  raiseIf (published.sourceMap.get "binding_digest" ≠ .str bindingDigest ∨
    bindingDigest ∉ evidenceDigests) "M3 evidence or approval binding mismatch"

/-! ## Section 3: What is lost -/

/-- The optional fields of a binding belong to its mode. -/
structure EvidenceBinding.KeepsToMode (binding : EvidenceBinding) : Prop where
  git : binding.mode ≠ .gitImmutable → binding.repository = none ∧ binding.revision = none
  external : binding.mode ≠ .externalImmutable →
    binding.uri = none ∧ binding.source = none ∧ binding.verificationMethod = none

/-- The binding without the optional fields of other modes. -/
def EvidenceBinding.inMode (binding : EvidenceBinding) : EvidenceBinding :=
  { binding with
    repository := if binding.mode = .gitImmutable then binding.repository else none
    revision := if binding.mode = .gitImmutable then binding.revision else none
    uri := if binding.mode = .externalImmutable then binding.uri else none
    source := if binding.mode = .externalImmutable then binding.source else none
    verificationMethod :=
      if binding.mode = .externalImmutable then binding.verificationMethod else none }

theorem evidenceRecord_eq_ok {binding : EvidenceBinding} {atomId : String}
    {published : PublishedEvidence} (h : evidenceRecord host binding atomId = .ok published) :
    ∃ digest, bindingDigestFor host binding = .ok digest ∧
      published.sourceMap = bindingExtension binding digest ∧
      bindingWire published.record published.sourceMap = binding.inMode.payload := by
  simp only [evidenceRecord, Except.bind_eq_ok, Except.pure_eq_ok] at h
  obtain ⟨_, _, digest, hdigest, rfl⟩ := h
  refine ⟨digest, hdigest, rfl, ?_⟩
  -- each member is looked up in the record or in the source map of this mode
  cases hmode : binding.mode <;>
    simp [bindingWire, Payload.get, bindingExtension, EvidenceBinding.modeMembers,
      EvidenceBinding.payload, EvidenceBinding.inMode, List.lookup_cons, hmode,
      PayloadValue.ofOption]

theorem inMode_eq_iff {binding : EvidenceBinding} :
    binding.inMode = binding ↔ binding.KeepsToMode := by
  obtain ⟨_, _, _, mode, _, _, _, _, _, repository, revision, _, _, _, _, uri, source, method, _⟩ :=
    binding
  constructor
  · intro h
    simp only [EvidenceBinding.inMode, EvidenceBinding.mk.injEq, true_and, and_true] at h
    obtain ⟨hrepository, hrevision, huri, hsource, hmethod⟩ := h
    refine ⟨fun hmode => ⟨?_, ?_⟩, fun hmode => ⟨?_, ?_, ?_⟩⟩
    · rw [← hrepository, if_neg hmode]
    · rw [← hrevision, if_neg hmode]
    · rw [← huri, if_neg hmode]
    · rw [← hsource, if_neg hmode]
    · rw [← hmethod, if_neg hmode]
  · intro h
    have hgit := h.git
    have hexternal := h.external
    cases mode <;> simp_all [EvidenceBinding.inMode]

/-! ## Section 4: Canonical JSON -/

/-- The JSON value of a member. -/
def PayloadValue.json : PayloadValue → Json ℤ
  | .null => .null
  | .flag b => .bool b
  | .number n => .number n
  | .str s => .string s
  | .strs ss => .array (ss.map .string)
  | .text t => .string (String.ofList (toChars t))

/-- No two payloads with the same members but other values have one digest. -/
def Host.CollisionFree (host : Host) : Prop :=
  ∀ p p' : Payload, p.map (·.1) = p'.map (·.1) → (p.map (·.1)).Nodup →
    host.digestJson p = host.digestJson p' → p.map (·.2.json) = p'.map (·.2.json)

theorem ofOption_json_injective {s s' : Option String}
    (h : (PayloadValue.ofOption s).json = (PayloadValue.ofOption s').json) : s = s' := by
  cases s <;> cases s' <;> simp_all [PayloadValue.ofOption, PayloadValue.json]

theorem nodup_keys (binding : EvidenceBinding) : (binding.payload.map (·.1)).Nodup := by
  simp [EvidenceBinding.payload]

/-- The encodable members of a payload do not change when the locator is restricted. -/
theorem digestOf_inMode (host : Host) (binding : EvidenceBinding) :
    (∃ digest, bindingDigestFor host binding = .ok digest) →
      bindingDigestFor host binding.inMode = .ok (host.digestJson binding.inMode.payload) := by
  intro hdigest
  obtain ⟨digest, hdigest⟩ := hdigest
  simp only [bindingDigestFor, Host.digestOf, Except.bind_eq_ok, raiseIf_eq_ok,
    Except.pure_eq_ok] at hdigest ⊢
  obtain ⟨_, hencodable, _⟩ := hdigest
  refine ⟨(), ?_, trivial⟩
  intro hother
  refine hencodable ?_
  rw [← hother]
  rcases binding with ⟨_, _, _, mode, _, _, _, _, _, repository, revision, _, _, _, _, uri, source,
    method, _⟩
  cases mode <;> cases repository <;> cases revision <;> cases uri <;> cases source <;>
    cases method <;> rfl

/-- **Evidence identity**: the registry recomputes the digest that was approved exactly for a
binding whose optional fields belong to its mode. Such a binding passes the check with every
approval that covers it; any other binding is refused whatever was approved. -/
theorem evidence_identity_iff (hcollision : host.CollisionFree) {binding : EvidenceBinding}
    {atomId : String} {published : PublishedEvidence}
    (h : evidenceRecord host binding atomId = .ok published) :
    (registryBindingDigest host published = bindingDigestFor host binding ↔ binding.KeepsToMode) ∧
      (binding.KeepsToMode → ∀ evidenceDigests digest, bindingDigestFor host binding = .ok digest →
        digest ∈ evidenceDigests →
          validateBindingDigest host published evidenceDigests = .ok ()) ∧
      (¬ binding.KeepsToMode → ∀ evidenceDigests,
        validateBindingDigest host published evidenceDigests =
          .error "M3 evidence or approval binding mismatch") := by
  obtain ⟨digest, hdigest, hmap, hwire⟩ := evidenceRecord_eq_ok h
  -- what the registry reads back is the binding with the fields of its mode alone
  have hregistry : registryBindingDigest host published = bindingDigestFor host binding.inMode := by
    rw [registryBindingDigest, hwire, bindingDigestFor]
  have hother := digestOf_inMode host binding ⟨digest, hdigest⟩
  have happroved : published.sourceMap.get "binding_digest" = .str digest := by
    rw [hmap]
    rfl
  have hvalue : digest = host.digestJson binding.payload := by
    simp only [bindingDigestFor, Host.digestOf, Except.bind_eq_ok, raiseIf_eq_ok,
      Except.pure_eq_ok] at hdigest
    obtain ⟨_, _, hdigest⟩ := hdigest
    exact hdigest.symm
  -- equal digests are equal payloads, and the payload has every optional field
  have hiff : host.digestJson binding.inMode.payload = digest ↔ binding.KeepsToMode := by
    rw [← inMode_eq_iff]
    constructor
    · intro hsame
      have hmembers := hcollision binding.inMode.payload binding.payload rfl (nodup_keys _)
        (hsame.trans hvalue)
      simp only [EvidenceBinding.payload, EvidenceBinding.inMode, List.map_cons, List.map_nil,
        List.cons.injEq, and_true, true_and] at hmembers
      obtain ⟨hrepository, hrevision, huri, hsource, hmethod⟩ := hmembers
      rw [EvidenceBinding.inMode, ofOption_json_injective hrepository,
        ofOption_json_injective hrevision, ofOption_json_injective huri,
        ofOption_json_injective hsource, ofOption_json_injective hmethod]
    -- a binding that keeps to its mode is read back as it is
    · intro hkeeps
      rw [hkeeps, hvalue]
  refine ⟨?_, ?_, ?_⟩
  · rw [hregistry, hother, hdigest, Except.ok.injEq]
    exact hiff
  · intro hkeeps evidenceDigests digest' hdigest' hcovered
    obtain rfl := Except.ok.inj (hdigest.symm.trans hdigest')
    rw [validateBindingDigest, hregistry, hother, hiff.mpr hkeeps, Except.ok_bind]
    exact raiseIf_of_not _ (by simp [happroved, hcovered])
  -- any other binding was approved under a digest that the registry does not compute
  · intro hlost evidenceDigests
    rw [validateBindingDigest, hregistry, hother, Except.ok_bind]
    refine raiseIf_of _ (.inl ?_)
    rw [happroved]
    intro hsame
    exact hlost (hiff.mp (PayloadValue.str.inj hsame).symm)

section Sample

/-- The JSON text of a payload. -/
def Payload.jsonText (payload : Payload) : List Char :=
  compactStyle.write ((Json.object (payload.map fun m => (m.1, m.2.json))).map Json.decimal)

/-- A host whose digests are the texts that are digested. -/
def textHost : Host where
  digestBytes := sampleDigest
  digestJson payload := String.ofList payload.jsonText
  hasSecret _ := false

theorem textHost_collisionFree : textHost.CollisionFree := by
  intro p p' _ _ h
  have htext : p.jsonText = p'.jsonText := by
    have hlist := congrArg String.toList h
    simpa [textHost] using hlist
  have hraw := Json.write_injective (numbersAll_lexeme Json.validNumber_decimal _)
    (numbersAll_lexeme Json.validNumber_decimal _) htext
  have hjson : (Json.object (p.map fun m => (m.1, m.2.json))).map id =
      (Json.object (p'.map fun m => (m.1, m.2.json))).map id :=
    Json.map_eq_map_of_imp (Json.numbersAll_true _) (Json.numbersAll_true _)
      (fun _ _ _ _ hsame => Json.decimal_injective hsame) hraw
  rw [Json.map_id, Json.map_id, Json.object.injEq] at hjson
  have hvalues := congrArg (List.map Prod.snd) hjson
  simpa [List.map_map, Function.comp_def] using hvalues

/-- The binding of the sample is recognized; with a URI, which a stored source may well have, it is
refused. -/
theorem evidence_identity_iff_stored :
    (∃ published, evidenceRecord textHost releasedBinding "atom-1" = .ok published ∧
      registryBindingDigest textHost published = bindingDigestFor textHost releasedBinding) ∧
    ∃ published, evidenceRecord textHost { releasedBinding with uri := some "urn:notes" } "atom-1" =
        .ok published ∧
      ∀ evidenceDigests, validateBindingDigest textHost published evidenceDigests =
        .error "M3 evidence or approval binding mismatch" := by
  -- both records are published; the second names a uri that its mode has no place for
  have hfirst : (evidenceRecord textHost releasedBinding "atom-1").isOk = true := by decide +kernel
  have hsecond : (evidenceRecord textHost { releasedBinding with uri := some "urn:notes" }
      "atom-1").isOk = true := by decide +kernel
  constructor
  · cases h : evidenceRecord textHost releasedBinding "atom-1" with
    | error e =>
      rw [h] at hfirst
      cases hfirst
    | ok published =>
      have hkeeps : releasedBinding.KeepsToMode := ⟨fun _ => ⟨rfl, rfl⟩, fun _ => ⟨rfl, rfl, rfl⟩⟩
      exact ⟨published, rfl, (evidence_identity_iff textHost_collisionFree h).1.mpr hkeeps⟩
  · cases h : evidenceRecord textHost { releasedBinding with uri := some "urn:notes" } "atom-1" with
    | error e =>
      rw [h] at hsecond
      cases hsecond
    | ok published =>
      refine ⟨published, rfl, (evidence_identity_iff textHost_collisionFree h).2.2 ?_⟩
      intro hkeeps
      have hnone := (hkeeps.external (by decide)).1
      cases hnone

end Sample

end ContractCapsule.Build
