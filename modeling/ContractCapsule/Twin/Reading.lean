import ContractCapsule.Models.Transport
import ContractCapsule.Twin.Reports

/-!
# Reading Evidence

`model_validate_json` of the evidence of `validate/run_models.py`, as strict as the models are: every
field is there and no other, `null` stands only where a model has it, and the fields are valid.

`parse_payload_iff` says that the evidence is read back from its payload, and that what was stored
of an attempt that was cut short is never read as the evidence of a completed run.
-/

namespace ContractCapsule.Twin

open Library Models

/-! ## Section 1: Fields -/

/-- A byte string is not empty, a digest is a digest: the fields of a `ProcessCapture`. -/
def ProcessCapture.valid (p : ProcessCapture) : Bool :=
  isDigest p.subject && isNonEmpty p.containerId

/-- The fields of a `CheckCapture`. -/
def CheckCapture.valid (c : CheckCapture) : Bool :=
  isNonEmpty c.checkId && c.process.valid && c.probes.all ProcessCapture.valid

/-- The fields of a `RecordRef`. -/
def RecordRef.valid (r : RecordRef) : Bool := isNonEmpty r.recordId && isDigest r.digest

/-- The fields of a `RunEvidence`. -/
def RunEvidence.valid (e : RunEvidence) : Bool :=
  e.final.all (fun snapshot => snapshot.entries.all TreeEntry.valid) &&
    e.executor.all ProcessCapture.valid && e.checks.all CheckCapture.valid

/-- The fields of a `PairEvidence`. -/
def PairEvidence.valid (e : PairEvidence) : Bool :=
  e.oldRecord.valid && e.newRecord.valid && e.checks.all CheckCapture.valid

/-- How a field of type `bytes` is read: what `base64` writes is read back. -/
structure BytesReader where
  decode : List Char → Option Bytes
  decode_encode : ∀ bytes, decode (Base64.encode bytes) = some bytes

/-- The reader of exactly what is written. -/
def BytesReader.base64 : BytesReader := ⟨Base64.decode, Base64.decode_encode⟩

/-! ## Section 2: Readers -/

instance : Enumeration EntryKind where
  values := [.file, .directory]
  complete kind := by cases kind <;> simp
  wire := EntryKind.text
  injective _ _ h := EntryKind.text_injective h

instance : Enumeration RunRole where
  values := [.old, .new]
  complete role := by cases role <;> simp
  wire := RunRole.text
  injective _ _ h := RunRole.text_injective h

namespace Wire

open Models.Wire

variable {μ : Type} [NumberReading μ] (B : BytesReader)

/-- A field of type `Natural`. -/
def natural (v : Json μ) : Option ℕ :=
  (integer v).bind fun i => if 0 ≤ i then some i.toNat else none

/-- A field of type `bytes`. -/
def bytes (v : Json μ) : Option Bytes := (string v).bind fun s => B.decode s.toList

def processCapture (v : Json μ) : Option ProcessCapture := do
  let ms ← model ["subject", "container_id", "started_ns", "finished_ns", "exit_code", "terminated",
    "timed_out", "output_limited", "stdout", "stderr"] v
  ProcessCapture.mk
    <$> field ms "subject" string
    <*> field ms "container_id" string
    <*> field ms "started_ns" natural
    <*> field ms "finished_ns" natural
    <*> field ms "exit_code" (Models.Wire.optional integer)
    <*> field ms "terminated" bool
    <*> field ms "timed_out" bool
    <*> field ms "output_limited" bool
    <*> field ms "stdout" (bytes B)
    <*> field ms "stderr" (bytes B)

def checkCapture (v : Json μ) : Option CheckCapture := do
  let ms ← model ["check_id", "process", "probes"] v
  CheckCapture.mk
    <$> field ms "check_id" string
    <*> field ms "process" (processCapture B)
    <*> field ms "probes" (tuple (processCapture B))

def treeEntry (v : Json μ) : Option TreeEntry := do
  let ms ← model ["path", "kind", "mode", "digest", "size"] v
  TreeEntry.mk
    <$> field ms "path" string
    <*> field ms "kind" literal
    <*> field ms "mode" natural
    <*> fieldOr none ms "digest" (Models.Wire.optional string)
    <*> fieldOr 0 ms "size" natural

def snapshot (v : Json μ) : Option Snapshot := do
  let ms ← model ["entries"] v
  Snapshot.mk <$> field ms "entries" (tuple treeEntry)

def recordRef (v : Json μ) : Option RecordRef := do
  let ms ← model ["record_id", "digest"] v
  RecordRef.mk
    <$> field ms "record_id" string
    <*> field ms "digest" string

/-- The fields of a `RunEvidence`, with those of a completed one in between. -/
def runFields {ρ σ τ : Type} (readFinal : Json μ → Option ρ) (readNs : Json μ → Option σ)
    (readExecutor : Json μ → Option τ) {α : Type}
    (make : RunRole → ℕ → ρ → σ → τ → List CheckCapture → α) (v : Json μ) : Option α := do
  let ms ← model ["role", "repetition", "final", "snapshot_ns", "executor", "checks"] v
  make
    <$> field ms "role" literal
    <*> field ms "repetition" natural
    <*> field ms "final" readFinal
    <*> field ms "snapshot_ns" readNs
    <*> field ms "executor" readExecutor
    <*> field ms "checks" (tuple (checkCapture B))

def runEvidence (v : Json μ) : Option RunEvidence :=
  runFields B (Models.Wire.optional snapshot) (Models.Wire.optional natural)
    (Models.Wire.optional (processCapture B)) RunEvidence.mk v

def completedRunEvidence (v : Json μ) : Option CompletedRunEvidence :=
  runFields B snapshot natural (processCapture B) CompletedRunEvidence.mk v

def pairEvidence (v : Json μ) : Option PairEvidence := do
  let ms ← model ["repetition", "old_record", "new_record", "checks"] v
  PairEvidence.mk
    <$> field ms "repetition" natural
    <*> field ms "old_record" recordRef
    <*> field ms "new_record" recordRef
    <*> field ms "checks" (tuple (checkCapture B))

end Wire

/-- The value of a JSON document in UTF-8. -/
def loadsDocument (payload : Bytes) : Option Plain := do
  let text ← (utf8 false).decode payload
  loads (toChars text)

/-- `CompletedRunEvidence.model_validate_json` -/
def parseCompletedRun (B : BytesReader) (payload : Bytes) : Option CompletedRunEvidence :=
  ((loadsDocument payload).bind (Wire.completedRunEvidence B)).filter fun e => e.toRun.valid

/-- `PairEvidence.model_validate_json` -/
def parsePairEvidence (B : BytesReader) (payload : Bytes) : Option PairEvidence :=
  ((loadsDocument payload).bind (Wire.pairEvidence B)).filter PairEvidence.valid

/-! ## Section 3: Fields read back -/

variable {μ : Type} [NumberReading μ] (h : Transport IntegralFloat μ) (B : BytesReader)

namespace Transport

@[simp]
theorem natural_value (n : ℕ) : Wire.natural (h.value (count n)) = some n := by
  rw [Wire.natural, count, h.integer_value]
  simp

@[simp]
theorem bytes_value (bytes : Bytes) : Wire.bytes B (h.value (base64 bytes)) = some bytes := by
  rw [Wire.bytes, base64, h.string_value]
  simp [B.decode_encode]

/-- A value that a reader reads, and that is no `null`, is read where `null` may stand. -/
theorem optional_value {α : Type} {read : Json μ → Option α} {write : α → Plain}
    (hread : ∀ a, read (h.value (write a)) = some a) (hnull : read .null = none) (a : Option α) :
    Models.Wire.optional read (h.value (optionally write a)) = some a := by
  cases a with
  | none => rw [optionally, h.value_null, Models.Wire.optional]
  | some a =>
    rw [optionally]
    have hvalue := hread a
    cases hcase : h.value (write a) with
    | null =>
      rw [hcase, hnull] at hvalue
      cases hvalue
    | _ =>
      rw [hcase] at hvalue
      simp [Models.Wire.optional, hvalue]

theorem listing_value {α : Type} {read : Json μ → Option α} {write : α → Plain}
    (hread : ∀ a, read (h.value (write a)) = some a) (xs : List α) :
    Models.Wire.tuple read (h.value (listing write xs)) = some xs := by
  have htuple := h.tuple_value (f := id) (fun a => hread a) xs
  rwa [List.map_id] at htuple

@[simp]
theorem processCapture_value (p : ProcessCapture) :
    Wire.processCapture B (h.value p.dump) = some p := by
  obtain ⟨ms, hobject, hmodel, hfield, _⟩ := h.read p.dump rfl (by simp)
  simp only [List.forall_mem_cons] at hfield
  have hexit : Models.Wire.optional Models.Wire.integer (h.value (optionally integer p.exitCode)) =
      some p.exitCode :=
    optional_value h h.integer_value rfl p.exitCode
  rw [Wire.processCapture, hobject, hmodel _ (by rfl)]
  simp [hfield, hexit]

@[simp]
theorem checkCapture_value (c : CheckCapture) : Wire.checkCapture B (h.value c.dump) = some c := by
  obtain ⟨ms, hobject, hmodel, hfield, _⟩ := h.read c.dump rfl (by simp)
  simp only [List.forall_mem_cons] at hfield
  rw [Wire.checkCapture, hobject, hmodel _ (by rfl)]
  simp [hfield, listing_value h (processCapture_value h B)]

@[simp]
theorem treeEntry_value (e : TreeEntry) : Wire.treeEntry (h.value e.dump) = some e := by
  obtain ⟨ms, hobject, hmodel, hfield, hdefault, _⟩ := h.read e.dump rfl (by simp)
  simp only [List.forall_mem_cons] at hfield hdefault
  have hdigest : Models.Wire.optional Models.Wire.string (h.value (optionally .string e.digest)) =
      some e.digest :=
    optional_value h h.string_value rfl e.digest
  have hkind : Models.Wire.literal (h.value (.string e.kind.text)) = some e.kind :=
    h.literal_value e.kind
  rw [Wire.treeEntry, hobject, hmodel _ (by rfl)]
  simp [hfield, hdefault, hdigest, hkind]

@[simp]
theorem snapshot_value (s : Snapshot) : Wire.snapshot (h.value s.dump) = some s := by
  obtain ⟨ms, hobject, hmodel, hfield, _⟩ := h.read s.dump rfl (by simp)
  simp only [List.forall_mem_cons] at hfield
  rw [Wire.snapshot, hobject, hmodel _ (by rfl)]
  simp [hfield, listing_value h (treeEntry_value h)]

@[simp]
theorem recordRef_value (r : RecordRef) : Wire.recordRef (h.value r.dump) = some r := by
  obtain ⟨ms, hobject, hmodel, hfield, _⟩ := h.read r.dump rfl (by simp)
  simp only [List.forall_mem_cons] at hfield
  rw [Wire.recordRef, hobject, hmodel _ (by rfl)]
  simp [hfield]

/-- What the fields of a run are read as, when the three that may be missing are read so. -/
theorem runFields_value {ρ σ τ α : Type} {readFinal : Json μ → Option ρ} {readNs : Json μ → Option σ}
    {readExecutor : Json μ → Option τ} (make : RunRole → ℕ → ρ → σ → τ → List CheckCapture → α)
    (e : RunEvidence) :
    Wire.runFields B readFinal readNs readExecutor make (h.value e.dump) = (do
      let final ← readFinal (h.value (optionally Snapshot.dump e.final))
      let ns ← readNs (h.value (optionally count e.snapshotNs))
      let executor ← readExecutor (h.value (optionally ProcessCapture.dump e.executor))
      some (make e.role e.repetition final ns executor e.checks)) := by
  obtain ⟨ms, hobject, hmodel, hfield, _⟩ := h.read e.dump rfl (by simp)
  simp only [List.forall_mem_cons] at hfield
  have hrole : Models.Wire.literal (h.value (.string e.role.text)) = some e.role :=
    h.literal_value e.role
  rw [Wire.runFields, hobject, hmodel _ (by rfl)]
  have hchecks := listing_value h (checkCapture_value h B) e.checks
  simp only [Option.bind_some, Option.bind_eq_bind, hfield, hrole, natural_value, hchecks]
  cases readFinal (h.value (optionally Snapshot.dump e.final)) <;>
    cases readNs (h.value (optionally count e.snapshotNs)) <;>
    cases readExecutor (h.value (optionally ProcessCapture.dump e.executor)) <;> rfl

/-- A run is read from its dictionary. -/
theorem runEvidence_value (e : RunEvidence) : Wire.runEvidence B (h.value e.dump) = some e := by
  have hfinal := optional_value h (snapshot_value h) rfl e.final
  have hns := optional_value h (natural_value h) rfl e.snapshotNs
  have hexecutor := optional_value h (processCapture_value h B) rfl e.executor
  rw [Wire.runEvidence, runFields_value, hfinal, hns, hexecutor]
  rfl

/-- A run is read as a completed one exactly when it is. -/
theorem completedRunEvidence_value (e : RunEvidence) (c : CompletedRunEvidence) :
    Wire.completedRunEvidence B (h.value e.dump) = some c ↔ c.toRun = e := by
  rw [Wire.completedRunEvidence, runFields_value]
  have hfinal : Wire.snapshot (.null : Json μ) = none := rfl
  have hns : Wire.natural (.null : Json μ) = none := rfl
  have hexecutor : Wire.processCapture B (.null : Json μ) = none := rfl
  rcases e with ⟨role, repetition, final, ns, executor, checks⟩
  cases c
  cases final <;> cases ns <;> cases executor <;>
    simp [optionally, h.value_null, hfinal, hns, hexecutor, CompletedRunEvidence.toRun, eq_comm]

theorem pairEvidence_value (e : PairEvidence) : Wire.pairEvidence B (h.value e.dump) = some e := by
  obtain ⟨ms, hobject, hmodel, hfield, _⟩ := h.read e.dump rfl (by simp)
  simp only [List.forall_mem_cons] at hfield
  rw [Wire.pairEvidence, hobject, hmodel _ (by rfl)]
  simp [hfield, listing_value h (checkCapture_value h B)]

end Transport

/-! ## Section 4: Payloads read back -/

/-- What a payload is read as: the value that it was written from, through its text. -/
theorem loadsDocument_canonicalBytes {v : Plain} (hv : v.distinct = true) {payload : Bytes}
    (h : Storage.canonicalBytes v = some payload) :
    loadsDocument payload = some (Models.Transport.throughText.value v) := by
  obtain ⟨text, htext, hbytes⟩ := Option.bind_eq_some_iff.mp h
  rw [canonicalJsonBytes, Option.ite_none_right_eq_some] at htext
  obtain ⟨_, htext⟩ := htext
  have hloads := loads_canonicalText hv
  rw [Option.some.inj htext] at hloads
  rw [loadsDocument, decode_encodeUtf8 hbytes, Option.bind_eq_bind, Option.bind_some,
    toChars_ofChars, hloads]
  rfl

theorem distinct_process (p : ProcessCapture) : p.dump.distinct = true := by
  cases hexit : p.exitCode <;>
    simp [ProcessCapture.dump, hexit, optionally, base64, count, integer]

theorem distinct_listing {α : Type} {write : α → Plain} (hwrite : ∀ a, (write a).distinct = true)
    (xs : List α) : (listing write xs).distinct = true := by
  simp [listing, Json.distinctItems_eq, hwrite]

theorem distinct_optionally {α : Type} {write : α → Plain}
    (hwrite : ∀ a, (write a).distinct = true) (a : Option α) :
    (optionally write a).distinct = true := by
  cases a with
  | none => rfl
  | some a => exact hwrite a

theorem distinct_check (c : CheckCapture) : c.dump.distinct = true := by
  simp [CheckCapture.dump, distinct_process, distinct_listing]

theorem distinct_snapshot (s : Snapshot) : s.dump.distinct = true := by
  have hentry : ∀ e : TreeEntry, e.dump.distinct = true := by
    intro e
    cases hdigest : e.digest <;> simp [TreeEntry.dump, hdigest, optionally, count, integer]
  simp [Snapshot.dump, distinct_listing hentry]

theorem distinct_run (e : RunEvidence) : e.dump.distinct = true := by
  have hcount : ∀ n : ℕ, (count n : Plain).distinct = true := fun _ => rfl
  simp [RunEvidence.dump, distinct_optionally distinct_snapshot, distinct_optionally hcount,
    distinct_optionally distinct_process, distinct_listing distinct_check, count, integer]

theorem distinct_pair (e : PairEvidence) : e.dump.distinct = true := by
  simp [PairEvidence.dump, RecordRef.dump, distinct_listing distinct_check, count, integer]

/-- The payload of a run is read as the evidence of a completed run exactly when it is that of one
with valid fields. -/
theorem parseCompletedRun_iff (B : BytesReader) {run : RunEvidence} {payload : Bytes}
    (h : run.payloadBytes = some payload) (completed : CompletedRunEvidence) :
    parseCompletedRun B payload = some completed ↔ completed.toRun = run ∧ run.valid = true := by
  rw [parseCompletedRun, loadsDocument_canonicalBytes (distinct_run run) h, Option.bind_some,
    Option.filter_eq_some_iff, Transport.completedRunEvidence_value]
  constructor
  · intro h
    exact ⟨h.1, h.1 ▸ h.2⟩
  · intro h
    exact ⟨h.1, h.1 ▸ h.2⟩

/-- The payload of a pair with valid fields is read as its evidence. -/
theorem parsePairEvidence_iff (B : BytesReader) {pair : PairEvidence} {payload : Bytes}
    (h : pair.payloadBytes = some payload) (found : PairEvidence) :
    parsePairEvidence B payload = some found ↔ found = pair ∧ pair.valid = true := by
  rw [parsePairEvidence, loadsDocument_canonicalBytes (distinct_pair pair) h, Option.bind_some,
    Option.filter_eq_some_iff, Transport.pairEvidence_value, Option.some.injEq]
  constructor
  · intro h
    exact ⟨h.1.symm, h.1 ▸ h.2⟩
  · intro h
    exact ⟨h.1.symm, h.1 ▸ h.2⟩

/-- **Evidence is read back**: the payload of a run is read as the evidence of a completed run
exactly when it is that of one with valid fields, and then as itself; and so is that of a pair. -/
theorem parse_payload_iff (B : BytesReader) {run : RunEvidence} {pair : PairEvidence}
    {runPayload pairPayload : Bytes} (hrun : run.payloadBytes = some runPayload)
    (hpair : pair.payloadBytes = some pairPayload) :
    (∀ completed, parseCompletedRun B runPayload = some completed ↔
      completed.toRun = run ∧ run.valid = true) ∧
    (∀ found, parsePairEvidence B pairPayload = some found ↔ found = pair ∧ pair.valid = true) :=
  ⟨parseCompletedRun_iff B hrun, parsePairEvidence_iff B hpair⟩

/-- A process that ended by itself. -/
def storedProcess : ProcessCapture where
  subject       := zeroDigest
  containerId   := "k1"
  startedNs     := 1
  finishedNs    := 2
  exitCode      := some 0
  terminated    := true
  timedOut      := false
  outputLimited := false
  stdout        := [104, 105]
  stderr        := []

/-- A completed run that left an empty tree. -/
def storedRun : CompletedRunEvidence where
  role       := .new
  repetition := 0
  final      := ⟨[⟨".", .directory, 0o755, none, 0⟩]⟩
  snapshotNs := 3
  executor   := storedProcess
  checks     := [⟨"c1", storedProcess, []⟩]

/-- The evidence of a pair of such runs. -/
def storedPair : PairEvidence := ⟨0, ⟨"r1", zeroDigest⟩, ⟨"r2", zeroDigest⟩, storedRun.checks⟩

/-- The run and the pair are read back as themselves. -/
theorem parse_payload_iff_sample :
    storedRun.payloadBytes.bind (parseCompletedRun .base64) = some storedRun ∧
      storedPair.payloadBytes.bind (parsePairEvidence .base64) = some storedPair := by
  -- both documents have exact numbers, so both have a payload
  have hrun : storedRun.payloadBytes.isSome = true := by
    rw [CompletedRunEvidence.payloadBytes, RunEvidence.payloadBytes, canonicalBytes_isSome]
    rfl
  have hpair : storedPair.payloadBytes.isSome = true := by
    rw [PairEvidence.payloadBytes, canonicalBytes_isSome]
    rfl
  obtain ⟨runPayload, hrunPayload⟩ := Option.isSome_iff_exists.mp hrun
  obtain ⟨pairPayload, hpairPayload⟩ := Option.isSome_iff_exists.mp hpair
  obtain ⟨hruns, hpairs⟩ :=
    @parse_payload_iff .base64 storedRun.toRun storedPair _ _ hrunPayload hpairPayload
  rw [hrunPayload, hpairPayload, Option.bind_some, Option.bind_some]
  exact ⟨(hruns storedRun).mpr ⟨rfl, by decide +kernel⟩,
    (hpairs storedPair).mpr ⟨rfl, by decide +kernel⟩⟩

end ContractCapsule.Twin
