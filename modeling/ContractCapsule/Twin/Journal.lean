import ContractCapsule.Library.Base64
import ContractCapsule.Library.Sealed
import ContractCapsule.Library.Table
import ContractCapsule.Library.Transaction
import ContractCapsule.Twin.RunModels

/-!
# The Record Journal

`validate/journal.py`: records are appended under a key, and a reference is resolved to the payload
of its record when the row, the digest of the payload and the signature agree.

`verify_appended` says that a payload that is resolved was appended by the host for that kind, scope
and subject, whatever was done to the database in between, and that a journal that nobody else
touched resolves every reference that it returned.
-/

namespace ContractCapsule.Twin

open Library Models

/-! ## Section 1: Records -/

/-- Objects with the same distinct keys that are equal by value have equal values. -/
theorem values_of_same {F : Type} [FloatText F] {ms ns : Members (Number F)}
    (h : Same (.object ms) (.object ns)) (hkeys : ms.map Prod.fst = ns.map Prod.fst)
    (hnodup : (ms.map Prod.fst).Nodup) :
    List.Forall₂ Same (ms.map Prod.snd) (ns.map Prod.snd) :=
  (Json.same_object hkeys hnodup).mp h

/-- `RecordError`. It has one message, "record rejected". -/
inductive RecordError where
  | rejected
deriving DecidableEq, Repr

/-- `RecordRef` -/
structure RecordRef where
  recordId : String
  digest : String
deriving DecidableEq, Repr

/-- What a record says. -/
structure Record where
  recordId : String
  kind : String
  scope : String
  subject : String
  payload : Bytes
deriving DecidableEq, Repr

/-- A row of `m5_records`. -/
structure RecordRow extends Record where
  signature : Bytes
deriving DecidableEq, Repr

/-- The table `m5_records`. -/
abbrev RecordTable := List RecordRow

/-- A journal: its key, and the two hash functions it calls. -/
structure RecordJournal where
  /-- `hmac.digest` with SHA-256; the canonical bytes stand as their text. -/
  hmacDigest : Bytes → List Char → Bytes
  /-- `_digest` -/
  digestBytes : Bytes → String
  key : Bytes
  longKey : 32 ≤ key.length

namespace RecordJournal

variable (J : RecordJournal)

/-- The value of `_signed_bytes`. -/
def signedValue (record : Record) : Value IntegralFloat :=
  .object
    [("domain", .string "ccs-m5-record/1"),
     ("record_id", .string record.recordId),
     ("kind", .string record.kind),
     ("scope", .string record.scope),
     ("subject", .string record.subject),
     ("payload_sha256", .string (J.digestBytes record.payload))]

/-- `_signed_bytes` -/
@[irreducible]
def signedBytes (record : Record) : List Char := canonicalText (J.signedValue record)

/-- The signature of a record. -/
def sign (record : Record) : Bytes := J.hmacDigest J.key (J.signedBytes record)

/-- `RecordVerifier.verify` -/
def verify (rows : RecordTable) (reference : RecordRef) (kind scope subject : String) :
    Except RecordError Bytes := do
  let row ← orRaise (rows.find? fun row => row.recordId = reference.recordId) .rejected
  raiseIf ((row.kind, row.scope, row.subject) ≠ (kind, scope, subject)) .rejected
  raiseIf (J.digestBytes row.payload ≠ reference.digest) .rejected
  raiseIf (J.sign row.toRecord ≠ row.signature) .rejected
  pure row.payload

/-- The row that is inserted for a record. -/
def rowOf (record : Record) : RecordRow := { toRecord := record, signature := J.sign record }

/-- The reference to a record. -/
def refOf (record : Record) : RecordRef := ⟨record.recordId, J.digestBytes record.payload⟩

/-- `RecordJournal.append`, with the identifier that `uuid4` drew. -/
def append (record : Record) : Tx RecordTable RecordError RecordRef := do
  check (raiseIf (record.kind = "" ∨ record.scope = "" ∨ record.subject = "") .rejected)
  let rows ← query fun rows => orRaise (insertRow (·.recordId) (J.rowOf record) rows) .rejected
  write fun _ => rows
  pure (J.refOf record)

/-! ## Section 2: Authenticity -/

/-- The rows of the journal are sealed by their signatures. -/
abbrev sealing : Sealing RecordRow Record (List Char) Bytes where
  message := RecordRow.toRecord
  text := J.signedBytes
  mac := J.hmacDigest J.key
  tag := RecordRow.signature

/-- What the host may append: the columns that say what a record is for are not empty. -/
def Appendable (record : Record) : Prop :=
  record.kind ≠ "" ∧ record.scope ≠ "" ∧ record.subject ≠ ""

/-- A successful call of `append`. -/
theorem append_returns {record : Record} {rows rows' : RecordTable} {reference : RecordRef} :
    Returns (J.append record) rows reference rows' ↔
      Appendable record ∧ (∀ row ∈ rows, row.recordId ≠ record.recordId) ∧
        rows' = rows ++ [J.rowOf record] ∧ reference = J.refOf record := by
  simp only [append, returns_bind, returns_check, returns_query, returns_write, returns_pure,
    raiseIf_eq_ok, orRaise_eq_ok, insertRow_eq_some, Appendable, not_or, ne_eq]
  constructor
  · intro h
    obtain ⟨_, _, ⟨hcolumns, rfl⟩, _, _, ⟨⟨hfresh, rfl⟩, rfl⟩, _, _, rfl, rfl, rfl⟩ := h
    exact ⟨hcolumns, hfresh, rfl, rfl⟩
  · intro h
    obtain ⟨hcolumns, hfresh, rfl, rfl⟩ := h
    exact ⟨(), rows, ⟨hcolumns, rfl⟩, _, rows, ⟨⟨hfresh, rfl⟩, rfl⟩, (), _, rfl, rfl, rfl⟩

theorem genuine_iff {row : RecordRow} :
    J.sealing.Genuine row ↔ J.sign row.toRecord = row.signature := by
  unfold Sealing.Genuine sealing sign
  exact eq_comm

/-- A reference that is resolved. -/
theorem verify_eq_ok {rows : RecordTable} {reference : RecordRef} {kind scope subject : String}
    {payload : Bytes} :
    J.verify rows reference kind scope subject = .ok payload ↔
      ∃ row, (rows.find? fun row => row.recordId = reference.recordId) = some row ∧
        row.toRecord = ⟨reference.recordId, kind, scope, subject, payload⟩ ∧
        J.digestBytes payload = reference.digest ∧ J.sealing.Genuine row := by
  simp only [verify, Except.bind_eq_ok, orRaise_eq_ok, raiseIf_eq_ok, Except.pure_eq_ok, not_not,
    ne_eq, Prod.mk.injEq, genuine_iff]
  constructor
  · intro h
    obtain ⟨row, hrow, _, ⟨rfl, rfl, rfl⟩, _, hdigest, _, hsign, rfl⟩ := h
    have hid : row.recordId = reference.recordId := by simpa using List.find?_some hrow
    refine ⟨row, hrow, ?_, hdigest, hsign⟩
    rw [← hid]
  · intro h
    obtain ⟨⟨record, signature⟩, hrow, hrecord, hdigest, hsign⟩ := h
    obtain rfl : record = _ := hrecord
    exact ⟨_, hrow, (), ⟨rfl, rfl, rfl⟩, (), hdigest, (), hsign, rfl⟩

/-- Records are told apart by their signed bytes, when payloads are told apart by their digests. -/
theorem signedBytes_injective (hdigest : Function.Injective J.digestBytes) :
    Function.Injective J.signedBytes := by
  intro record record' h
  have hsame : Same (J.signedValue record) (J.signedValue record') :=
    (canonicalText_eq_iff rfl rfl).mp (by simpa only [signedBytes] using h)
  have hvalues := values_of_same hsame rfl (by simp)
  simp only [List.map_cons, List.map_nil, List.forall₂_cons, Json.same_string,
    List.forall₂_nil_left_iff, and_true] at hvalues
  obtain ⟨_, hid, hkind, hscope, hsubject, hpayload⟩ := hvalues
  cases record
  cases record'
  cases hdigest hpayload
  simp_all

/-! ## Section 3: Runs -/

end RecordJournal

/-- The table of the journal, and the records that its host appended. -/
abbrev RecordLedger := Library.Ledger RecordRow Record

namespace RecordJournal

variable (J : RecordJournal)

/-- The host appends a record. -/
inductive Appends : RecordLedger → RecordLedger → Prop where
  | append (L : RecordLedger) (record : Record) (reference : RecordRef) (rows : RecordTable)
      (returns : Returns (J.append record) L.rows reference rows) :
      Appends L ⟨rows, L.written ++ [record]⟩

/-- The host appends a record, or someone without the key puts another table in the place of the
present one. -/
inductive JournalStep : RecordLedger → RecordLedger → Prop where
  | append {L L' : RecordLedger} (appends : J.Appends L L') : JournalStep L L'
  | tamper (L : RecordLedger) (rows : RecordTable)
      (unforged : ∀ row ∈ rows, J.sealing.Genuine row →
        ∃ record ∈ L.written, J.signedBytes record = J.signedBytes row.toRecord) :
      JournalStep L ⟨rows, L.written⟩

/-- An empty journal. -/
def emptyLedger : RecordLedger := ⟨[], []⟩

variable {J}

/-- The steps of a journal are steps of a sealed table. -/
theorem JournalStep.sealed {L L' : RecordLedger} (h : J.JournalStep L L') :
    Library.Ledger.Step J.sealing L L' := by
  cases h with
  | append appends =>
    cases appends with
    | append record reference rows returns =>
      obtain ⟨_, _, rfl, _⟩ := J.append_returns.mp returns
      exact Library.Ledger.Step.write L (J.rowOf record)
  | tamper rows unforged => exact Library.Ledger.Step.tamper L rows unforged

theorem authentic_of_run {L : RecordLedger}
    (h : Relation.ReflTransGen J.JournalStep emptyLedger L) : L.Authentic J.sealing := by
  have hempty : emptyLedger.Authentic J.sealing := by
    intro row hrow
    cases hrow
  exact (hempty.run (Relation.ReflTransGen.mono (fun _ _ => JournalStep.sealed) _ _ h)).1

/-- What is resolved in an authentic journal was appended. -/
theorem mem_written_of_verify (hdigest : Function.Injective J.digestBytes) {L : RecordLedger}
    (hL : L.Authentic J.sealing) {reference : RecordRef} {kind scope subject : String}
    {payload : Bytes} (h : J.verify L.rows reference kind scope subject = .ok payload) :
    (⟨reference.recordId, kind, scope, subject, payload⟩ : Record) ∈ L.written := by
  obtain ⟨row, hrow, hrecord, _, hgenuine⟩ := J.verify_eq_ok.mp h
  have hmem := hL.mem_written (J.signedBytes_injective hdigest)
    (List.mem_of_find?_eq_some hrow) hgenuine
  have hmessage : J.sealing.message row = row.toRecord := rfl
  rwa [hmessage, hrecord] at hmem

/-- What holds of a journal that only its host touched. -/
structure Kept (J : RecordJournal) (L : RecordLedger) : Prop where
  rows : L.rows = L.written.map J.rowOf
  identifiers : (L.written.map Record.recordId).Nodup

theorem Kept.step {L L' : RecordLedger} (h : Kept J L) (hstep : J.Appends L L') : Kept J L' := by
  cases hstep with
  | append record reference rows returns =>
    obtain ⟨_, hfresh, rfl, _⟩ := J.append_returns.mp returns
    refine ⟨by rw [List.map_append, h.rows]; rfl, ?_⟩
    rw [List.map_append, List.nodup_append]
    refine ⟨h.identifiers, List.nodup_singleton _, ?_⟩
    intro id hid id' hid' heq
    obtain ⟨old, hold, rfl⟩ := List.mem_map.mp hid
    obtain rfl := List.mem_singleton.mp hid'
    -- the identifier was drawn before
    apply hfresh (J.rowOf old) _ heq
    rw [h.rows]
    exact List.mem_map_of_mem hold

theorem Kept.run {L L' : RecordLedger} (h : Kept J L)
    (hrun : Relation.ReflTransGen J.Appends L L') : Kept J L' := by
  induction hrun with
  | refl => exact h
  | tail _ hstep ih => exact ih.step hstep

/-- Records are only added to a journal that only its host touches. -/
theorem written_of_run {L L' : RecordLedger} (hrun : Relation.ReflTransGen J.Appends L L') :
    L.written <+: L'.written := by
  induction hrun with
  | refl => exact List.prefix_rfl
  | tail _ hstep ih =>
    cases hstep with
    | append record reference rows returns => exact ih.trans (List.prefix_append _ _)

/-- The journal that only its host touched resolves the references to its records. -/
theorem Kept.verify_iff {L : RecordLedger} (h : Kept J L) {reference : RecordRef}
    {kind scope subject : String} {payload : Bytes} :
    J.verify L.rows reference kind scope subject = .ok payload ↔
      (⟨reference.recordId, kind, scope, subject, payload⟩ : Record) ∈ L.written ∧
        J.digestBytes payload = reference.digest := by
  have hids : (L.rows.map (·.recordId)).Nodup := by
    rw [h.rows, List.map_map]
    exact h.identifiers
  rw [verify_eq_ok]
  constructor
  -- a row was written with a record, so it is the row of that record
  · intro hrow
    obtain ⟨row, hrow, hrecord, hdigest, _⟩ := hrow
    refine ⟨?_, hdigest⟩
    have hmem := List.mem_of_find?_eq_some hrow
    rw [h.rows] at hmem
    obtain ⟨record, hrecorded, rfl⟩ := List.mem_map.mp hmem
    rwa [show record = _ from hrecord] at hrecorded
  -- and the record's row is found by its identifier
  · intro hwritten
    obtain ⟨hmem, hdigest⟩ := hwritten
    have hrow : J.rowOf ⟨reference.recordId, kind, scope, subject, payload⟩ ∈ L.rows := by
      rw [h.rows]
      exact List.mem_map_of_mem hmem
    exact ⟨_, find?_eq_some_of_nodup hids hrow, rfl, hdigest, J.genuine_iff.mpr rfl⟩

/-- **What a journal resolves**: in every run of a journal, also one whose database is tampered with
by someone without the key, a payload that a reference resolves to was appended under its
identifier for that kind, scope and subject. While nobody tampers, a reference resolves to exactly
the record that was appended with its identifier and digest. -/
theorem verify_appended (J : RecordJournal) (hdigest : Function.Injective J.digestBytes)
    (L : RecordLedger) :
    (Relation.ReflTransGen J.JournalStep emptyLedger L →
      ∀ reference kind scope subject payload,
        J.verify L.rows reference kind scope subject = .ok payload →
          (⟨reference.recordId, kind, scope, subject, payload⟩ : Record) ∈ L.written) ∧
    (Relation.ReflTransGen J.Appends emptyLedger L →
      ∀ reference kind scope subject payload,
        J.verify L.rows reference kind scope subject = .ok payload ↔
          (⟨reference.recordId, kind, scope, subject, payload⟩ : Record) ∈ L.written ∧
            J.digestBytes payload = reference.digest) := by
  constructor
  · intro hrun reference kind scope subject payload h
    exact mem_written_of_verify hdigest (authentic_of_run hrun) h
  · intro hrun reference kind scope subject payload
    have hempty : Kept J emptyLedger := ⟨rfl, List.nodup_nil⟩
    exact (hempty.run hrun).verify_iff

/-! ## Section 4: A journal that is tampered with -/

/-- A journal whose digests spell out the bytes in Base64. -/
def sampleJournal : RecordJournal where
  hmacDigest key message := key ++ message.map fun c => UInt8.ofNat c.toNat
  digestBytes bytes := "sha256:" ++ String.ofList (Base64.encode bytes)
  key := List.replicate 32 0
  longKey := by decide

theorem sampleJournal_digest : Function.Injective sampleJournal.digestBytes := by
  intro bytes bytes' h
  have hspelled : "sha256:".toList ++ Base64.encode bytes =
      "sha256:".toList ++ Base64.encode bytes' := by
    simpa [sampleJournal] using congrArg String.toList h
  exact Base64.encode_injective (List.append_cancel_left hspelled)

/-- A run and a pair that the host records. -/
def sampleRecord : Record := ⟨"r1", "run", "scope", "subject", [1, 2, 3]⟩
def samplePairRecord : Record := ⟨"r2", "pair", "scope", "subject", [4, 5]⟩

/-- The journal of the host. -/
def sampleLedger : RecordLedger :=
  ⟨[sampleJournal.rowOf sampleRecord, sampleJournal.rowOf samplePairRecord],
    [sampleRecord, samplePairRecord]⟩

/-- The run with another payload, under the signature that it had. -/
def alteredRow : RecordRow :=
  { toRecord := { sampleRecord with payload := [1, 2, 4] }
    signature := sampleJournal.sign sampleRecord }

theorem sampleLedger_appended :
    Relation.ReflTransGen sampleJournal.Appends emptyLedger sampleLedger := by
  have hfirst : Returns (sampleJournal.append sampleRecord) []
      (sampleJournal.refOf sampleRecord) [sampleJournal.rowOf sampleRecord] := by
    apply (append_returns sampleJournal).mpr
    exact ⟨⟨by decide, by decide, by decide⟩, by simp, rfl, rfl⟩
  have hsecond : Returns (sampleJournal.append samplePairRecord) [sampleJournal.rowOf sampleRecord]
      (sampleJournal.refOf samplePairRecord) sampleLedger.rows := by
    apply (append_returns sampleJournal).mpr
    exact ⟨⟨by decide, by decide, by decide⟩, List.forall_mem_singleton.mpr (by decide), rfl, rfl⟩
  exact (Relation.ReflTransGen.single (Appends.append emptyLedger _ _ _ hfirst)).tail
    (Appends.append ⟨_, [sampleRecord]⟩ _ _ _ hsecond)

/-- Someone without the key puts the altered run in front of the rows of the host. -/
theorem sampleLedger_tampered : Relation.ReflTransGen sampleJournal.JournalStep emptyLedger
    ⟨alteredRow :: sampleLedger.rows, sampleLedger.written⟩ := by
  refine (Relation.ReflTransGen.mono (fun _ _ => JournalStep.append) _ _
    sampleLedger_appended).tail (JournalStep.tamper _ _ ?_)
  intro row hrow hgenuine
  rcases List.mem_cons.mp hrow with rfl | hrow
  · -- the signature is that of the payload of the host
    have hforged : sampleJournal.sign alteredRow.toRecord ≠ alteredRow.signature := by
      decide +kernel
    exact absurd (sampleJournal.genuine_iff.mp hgenuine) hforged
  · obtain ⟨record, hrecord, rfl⟩ : ∃ record ∈ sampleLedger.written,
        sampleJournal.rowOf record = row := by
      simpa [sampleLedger, eq_comm] using hrow
    exact ⟨record, hrecord, rfl⟩

/-- The journal resolves the references to the run and the pair, and the altered payload to no
reference. -/
theorem verify_appended_tampered :
    sampleJournal.verify sampleLedger.rows (sampleJournal.refOf sampleRecord)
        "run" "scope" "subject" = .ok [1, 2, 3] ∧
      sampleJournal.verify sampleLedger.rows (sampleJournal.refOf samplePairRecord)
        "pair" "scope" "subject" = .ok [4, 5] ∧
      ∀ reference kind, sampleJournal.verify (alteredRow :: sampleLedger.rows) reference
        kind "scope" "subject" ≠ .ok [1, 2, 4] := by
  have hhonest := (verify_appended sampleJournal sampleJournal_digest _).2 sampleLedger_appended
  refine ⟨(hhonest _ _ _ _ _).mpr ⟨by decide, rfl⟩, (hhonest _ _ _ _ _).mpr ⟨by decide, rfl⟩, ?_⟩
  intro reference kind h
  have hmem := (verify_appended sampleJournal sampleJournal_digest _).1 sampleLedger_tampered
    _ _ _ _ _ h
  simp [sampleLedger, sampleRecord, samplePairRecord] at hmem

end RecordJournal

end ContractCapsule.Twin
