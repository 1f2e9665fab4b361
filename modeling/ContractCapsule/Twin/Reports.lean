import ContractCapsule.Library.Base64
import ContractCapsule.Models.View
import ContractCapsule.Storage.Cas
import ContractCapsule.Twin.Journal

/-!
# The Wire Models of Runs and Reports

The models of `validate/run_models.py` that a journal stores: the evidence of a run and of a pair,
and the reports on them. A payload is the canonical text of what `model_dump` makes of a model.

`differential_payload_injective` says that reports with one payload differ in their record at most.
-/

namespace ContractCapsule.Twin

open Library Models

/-- A value without floats. -/
abbrev Plain := Value IntegralFloat

/-! ## Section 1: Values that determine what they are made of -/

section Faithful

variable {F : Type} [FloatText F] {α : Type}

/-- Equal values are made of equal data. -/
def Faithful (write : α → Value F) : Prop := ∀ a b, Same (write a) (write b) → a = b

/-- The text of some bytes, as `ser_json_bytes="base64"` writes it. -/
def base64 (bytes : Bytes) : Value F := .string (String.ofList (Base64.encode bytes))

/-- A value or `null`. -/
def optionally (write : α → Value F) : Option α → Value F
  | none => .null
  | some a => write a

/-- A tuple. -/
def listing (write : α → Value F) (xs : List α) : Value F := .array (xs.map write)

theorem faithful_string : Faithful (Json.string : String → Value F) := by
  intro a b h
  exact Json.same_string.mp h

theorem faithful_bool : Faithful (Json.bool : Bool → Value F) := by
  intro a b h
  exact Json.same_bool.mp h

theorem faithful_integer : Faithful (integer : ℤ → Value F) := by
  intro a b h
  have hvalue : Json.Same utf16 Number.value (.number (.int a : Number F))
      (.number (.int b)) := h
  rw [Json.same_number] at hvalue
  exact Int.cast_injective hvalue

theorem faithful_count : Faithful (count : ℕ → Value F) := by
  intro a b h
  exact Int.ofNat_injective (faithful_integer _ _ h)

theorem faithful_base64 : Faithful (base64 : Bytes → Value F) := by
  intro a b h
  exact Base64.encode_injective (String.ofList_injective (faithful_string _ _ h))

/-- A value that is no `null`. -/
def NotNull (write : α → Value F) : Prop := ∀ a, ¬ Same .null (write a)

theorem Faithful.optionally {write : α → Value F} (h : Faithful write) (hnull : NotNull write) :
    Faithful (optionally write) := by
  intro a b hsame
  cases a with
  | none =>
    cases b with
    | none => rfl
    | some b => exact absurd hsame (hnull b)
  | some a =>
    cases b with
    | none => exact absurd hsame.symm (hnull a)
    | some b => rw [h a b hsame]

theorem Faithful.listing {write : α → Value F} (h : Faithful write) : Faithful (listing write) := by
  intro xs ys hsame
  have hitems := Json.same_array.mp hsame
  rw [List.forall₂_map_left_iff, List.forall₂_map_right_iff] at hitems
  induction hitems with
  | nil => rfl
  | cons hhead _ ih => rw [h _ _ hhead, ih (Json.same_array.mpr (by
      rwa [List.forall₂_map_left_iff, List.forall₂_map_right_iff]))]

theorem notNull_string : NotNull (Json.string : String → Value F) := by
  intro s h
  exact Json.same_null_string h

theorem notNull_integer : NotNull (integer : ℤ → Value F) := by
  intro i h
  simp [Same, Json.Same, integer, Json.sortKeys, Json.map] at h

theorem notNull_count : NotNull (count : ℕ → Value F) := by
  intro n h
  exact notNull_integer n h

theorem notNull_bool : NotNull (Json.bool : Bool → Value F) := by
  intro b h
  simp [Same, Json.Same, Json.sortKeys, Json.map] at h

theorem notNull_object {members : α → Members (Number F)} :
    NotNull fun a => Json.object (members a) := by
  intro a h
  simp [Same, Json.Same, Json.sortKeys, Json.map] at h

theorem Faithful.same_iff {write : α → Value F} (h : Faithful write) {a b : α} :
    Same (write a) (write b) ↔ a = b := by
  refine ⟨h a b, ?_⟩
  rintro rfl
  exact Json.Same.refl _

end Faithful

/-! ## Section 2: Evidence -/

/-- `ProcessCapture.model_dump` -/
def ProcessCapture.dump (p : ProcessCapture) : Plain :=
  .object
    [("subject", .string p.subject),
     ("container_id", .string p.containerId),
     ("started_ns", count p.startedNs),
     ("finished_ns", count p.finishedNs),
     ("exit_code", optionally integer p.exitCode),
     ("terminated", .bool p.terminated),
     ("timed_out", .bool p.timedOut),
     ("output_limited", .bool p.outputLimited),
     ("stdout", base64 p.stdout),
     ("stderr", base64 p.stderr)]

theorem faithful_processCapture : Faithful ProcessCapture.dump := by
  intro a b h
  have hvalues := values_of_same h rfl (by simp)
  have hexit := (faithful_integer (F := IntegralFloat)).optionally notNull_integer
  simp only [List.map_cons, List.map_nil, List.forall₂_cons, List.forall₂_nil_left_iff, and_true,
    faithful_string.same_iff, faithful_count.same_iff, hexit.same_iff, faithful_bool.same_iff,
    faithful_base64.same_iff] at hvalues
  cases a
  cases b
  simpa using hvalues

/-- `CheckCapture.model_dump` -/
def CheckCapture.dump (c : CheckCapture) : Plain :=
  .object
    [("check_id", .string c.checkId),
     ("process", c.process.dump),
     ("probes", listing ProcessCapture.dump c.probes)]

theorem faithful_checkCapture : Faithful CheckCapture.dump := by
  intro a b h
  have hvalues := values_of_same h rfl (by simp)
  simp only [List.map_cons, List.map_nil, List.forall₂_cons, List.forall₂_nil_left_iff, and_true,
    faithful_string.same_iff, faithful_processCapture.same_iff,
    faithful_processCapture.listing.same_iff] at hvalues
  cases a
  cases b
  simpa using hvalues

/-- The text of a kind. -/
def EntryKind.text : EntryKind → String
  | .file => "file"
  | .directory => "directory"

theorem EntryKind.text_injective : Function.Injective EntryKind.text := by
  intro a b h
  cases a <;> cases b <;> first | rfl | simp [EntryKind.text] at h

/-- `TreeEntry.model_dump` -/
def TreeEntry.dump (e : TreeEntry) : Plain :=
  .object
    [("path", .string e.path),
     ("kind", .string e.kind.text),
     ("mode", count e.mode),
     ("digest", optionally .string e.digest),
     ("size", count e.size)]

theorem faithful_treeEntry : Faithful TreeEntry.dump := by
  intro a b h
  have hvalues := values_of_same h rfl (by simp)
  have hdigest := (faithful_string (F := IntegralFloat)).optionally notNull_string
  simp only [List.map_cons, List.map_nil, List.forall₂_cons, List.forall₂_nil_left_iff, and_true,
    faithful_string.same_iff, faithful_count.same_iff, hdigest.same_iff,
    EntryKind.text_injective.eq_iff] at hvalues
  cases a
  cases b
  simpa using hvalues

/-- `Snapshot.model_dump` -/
def Snapshot.dump (s : Snapshot) : Plain :=
  .object [("entries", listing TreeEntry.dump s.entries)]

theorem faithful_snapshot : Faithful Snapshot.dump := by
  intro a b h
  have hvalues := values_of_same h rfl (by simp)
  simp only [List.map_cons, List.map_nil, List.forall₂_cons, List.forall₂_nil_left_iff, and_true,
    faithful_treeEntry.listing.same_iff] at hvalues
  cases a
  cases b
  simpa using hvalues

/-- `RecordRef.model_dump` -/
def RecordRef.dump (r : RecordRef) : Plain :=
  .object [("record_id", .string r.recordId), ("digest", .string r.digest)]

theorem faithful_recordRef : Faithful RecordRef.dump := by
  intro a b h
  have hvalues := values_of_same h rfl (by simp)
  simp only [List.map_cons, List.map_nil, List.forall₂_cons, List.forall₂_nil_left_iff, and_true,
    faithful_string.same_iff] at hvalues
  cases a
  cases b
  simpa using hvalues

/-- `EvaluationContext` -/
structure EvaluationContext where
  initial : Snapshot
  oldViewDigest : String
  newViewDigest : String
  approvalDigest : String
  synthetic : Bool
deriving DecidableEq, Repr

/-- `EvaluationContext.model_dump` -/
def EvaluationContext.dump (c : EvaluationContext) : Plain :=
  .object
    [("initial", c.initial.dump),
     ("old_view_digest", .string c.oldViewDigest),
     ("new_view_digest", .string c.newViewDigest),
     ("approval_digest", .string c.approvalDigest),
     ("synthetic", .bool c.synthetic)]

theorem faithful_context : Faithful EvaluationContext.dump := by
  intro a b h
  have hvalues := values_of_same h rfl (by simp)
  simp only [List.map_cons, List.map_nil, List.forall₂_cons, List.forall₂_nil_left_iff, and_true,
    faithful_string.same_iff, faithful_bool.same_iff, faithful_snapshot.same_iff] at hvalues
  cases a
  cases b
  simpa using hvalues

/-- `RunRole` -/
inductive RunRole where
  | old
  | new
deriving DecidableEq, Repr

/-- The text of a role. -/
def RunRole.text : RunRole → String
  | .old => "old"
  | .new => "new"

theorem RunRole.text_injective : Function.Injective RunRole.text := by
  intro a b h
  cases a <;> cases b <;> first | rfl | simp [RunRole.text] at h

/-- `RunEvidence` -/
structure RunEvidence where
  role : RunRole
  repetition : ℕ
  final : Option Snapshot
  snapshotNs : Option ℕ
  executor : Option ProcessCapture
  checks : List CheckCapture
deriving DecidableEq, Repr

/-- `RunEvidence.model_dump` -/
def RunEvidence.dump (e : RunEvidence) : Plain :=
  .object
    [("role", .string e.role.text),
     ("repetition", count e.repetition),
     ("final", optionally Snapshot.dump e.final),
     ("snapshot_ns", optionally count e.snapshotNs),
     ("executor", optionally ProcessCapture.dump e.executor),
     ("checks", listing CheckCapture.dump e.checks)]

theorem faithful_runEvidence : Faithful RunEvidence.dump := by
  intro a b h
  have hvalues := values_of_same h rfl (by simp)
  have hfinal := faithful_snapshot.optionally notNull_object
  have hsnapshot := (faithful_count (F := IntegralFloat)).optionally notNull_count
  have hexecutor := faithful_processCapture.optionally notNull_object
  simp only [List.map_cons, List.map_nil, List.forall₂_cons, List.forall₂_nil_left_iff, and_true,
    faithful_string.same_iff, faithful_count.same_iff, RunRole.text_injective.eq_iff,
    hfinal.same_iff, hsnapshot.same_iff, hexecutor.same_iff,
    faithful_checkCapture.listing.same_iff] at hvalues
  cases a
  cases b
  simpa using hvalues

/-- `CompletedRunEvidence` -/
structure CompletedRunEvidence where
  role : RunRole
  repetition : ℕ
  final : Snapshot
  snapshotNs : ℕ
  executor : ProcessCapture
  checks : List CheckCapture
deriving DecidableEq, Repr

/-- A completed run is a run. -/
def CompletedRunEvidence.toRun (e : CompletedRunEvidence) : RunEvidence where
  role := e.role
  repetition := e.repetition
  final := some e.final
  snapshotNs := some e.snapshotNs
  executor := some e.executor
  checks := e.checks

/-- `PairEvidence` -/
structure PairEvidence where
  repetition : ℕ
  oldRecord : RecordRef
  newRecord : RecordRef
  checks : List CheckCapture
deriving DecidableEq, Repr

/-- `PairEvidence.model_dump` -/
def PairEvidence.dump (e : PairEvidence) : Plain :=
  .object
    [("repetition", count e.repetition),
     ("old_record", e.oldRecord.dump),
     ("new_record", e.newRecord.dump),
     ("checks", listing CheckCapture.dump e.checks)]

theorem faithful_pairEvidence : Faithful PairEvidence.dump := by
  intro a b h
  have hvalues := values_of_same h rfl (by simp)
  simp only [List.map_cons, List.map_nil, List.forall₂_cons, List.forall₂_nil_left_iff, and_true,
    faithful_count.same_iff, faithful_recordRef.same_iff,
    faithful_checkCapture.listing.same_iff] at hvalues
  cases a
  cases b
  simpa using hvalues

/-! ## Section 3: Reports -/

/-- `AgentRun` -/
structure AgentRun where
  role : RunRole
  repetition : ℕ
  record : RecordRef
  pairRecord : Option RecordRef
deriving DecidableEq, Repr

/-- `AgentRun.model_dump` -/
def AgentRun.dump (r : AgentRun) : Plain :=
  .object
    [("role", .string r.role.text),
     ("repetition", count r.repetition),
     ("record", r.record.dump),
     ("pair_record", optionally RecordRef.dump r.pairRecord)]

theorem faithful_agentRun : Faithful AgentRun.dump := by
  intro a b h
  have hvalues := values_of_same h rfl (by simp)
  have hpair := faithful_recordRef.optionally notNull_object
  simp only [List.map_cons, List.map_nil, List.forall₂_cons, List.forall₂_nil_left_iff, and_true,
    faithful_string.same_iff, faithful_count.same_iff, RunRole.text_injective.eq_iff,
    faithful_recordRef.same_iff, hpair.same_iff] at hvalues
  cases a
  cases b
  simpa using hvalues

/-- `Count` -/
structure Count where
  numerator : ℕ
  denominator : ℕ
deriving DecidableEq, Repr

/-- `Count.model_dump` -/
def Count.dump (c : Count) : Plain :=
  .object [("numerator", count c.numerator), ("denominator", count c.denominator)]

theorem faithful_counts : Faithful Count.dump := by
  intro a b h
  have hvalues := values_of_same h rfl (by simp)
  simp only [List.map_cons, List.map_nil, List.forall₂_cons, List.forall₂_nil_left_iff, and_true,
    faithful_count.same_iff] at hvalues
  cases a
  cases b
  simpa using hvalues

/-- `CheckTrace` -/
structure CheckTrace where
  checkId : String
  role : String
  observation : Option Bool
  expected : Bool
  valid : Bool
deriving DecidableEq, Repr

/-- `CheckTrace.model_dump` -/
def CheckTrace.dump (t : CheckTrace) : Plain :=
  .object
    [("check_id", .string t.checkId),
     ("role", .string t.role),
     ("observation", optionally .bool t.observation),
     ("expected", .bool t.expected),
     ("valid", .bool t.valid)]

theorem faithful_checkTrace : Faithful CheckTrace.dump := by
  intro a b h
  have hvalues := values_of_same h rfl (by simp)
  have hobservation := (faithful_bool (F := IntegralFloat)).optionally notNull_bool
  simp only [List.map_cons, List.map_nil, List.forall₂_cons, List.forall₂_nil_left_iff, and_true,
    faithful_string.same_iff, faithful_bool.same_iff, hobservation.same_iff] at hvalues
  cases a
  cases b
  simpa using hvalues

/-- `ContractReport` -/
structure ContractReport where
  valid : Bool
  blockers : List String
  run : AgentRun
  ter : Count
  pip : Count
  bsr : Count
  traces : List CheckTrace
  record : Option RecordRef
deriving DecidableEq, Repr

/-- The fields of a `ContractReport` but for its record. -/
def ContractReport.fields (r : ContractReport) : Members (Number IntegralFloat) :=
  [("kind", .string "contract"),
   ("valid", .bool r.valid),
   ("blockers", listing .string r.blockers),
   ("run", r.run.dump),
   ("ter", r.ter.dump),
   ("pip", r.pip.dump),
   ("bsr", r.bsr.dump),
   ("traces", listing CheckTrace.dump r.traces)]

/-- `ContractReport.model_dump` -/
def ContractReport.dump (r : ContractReport) : Plain :=
  .object (r.fields ++ [("record", optionally RecordRef.dump r.record)])

theorem faithful_contractReport : Faithful ContractReport.dump := by
  intro a b h
  have hvalues := values_of_same h rfl (by simp [ContractReport.fields])
  have hrecord := faithful_recordRef.optionally notNull_object
  simp only [List.map_cons, List.map_nil, List.forall₂_cons, List.forall₂_nil_left_iff, and_true,
    ContractReport.fields, List.cons_append, List.nil_append,
    faithful_string.same_iff, faithful_bool.same_iff, faithful_string.listing.same_iff,
    faithful_agentRun.same_iff, faithful_counts.same_iff, faithful_checkTrace.listing.same_iff,
    hrecord.same_iff] at hvalues
  cases a
  cases b
  simpa using hvalues

/-- `DifferentialReport` -/
structure DifferentialReport where
  valid : Bool
  blockers : List String
  old : AgentRun
  new : AgentRun
  oldReport : ContractReport
  newReport : ContractReport
  traces : List CheckTrace
  initialToOld : List String
  initialToNew : List String
  oldToNew : List String
  record : Option RecordRef
deriving DecidableEq, Repr

/-- The fields of a `DifferentialReport` but for its record. -/
def DifferentialReport.fields (r : DifferentialReport) : Members (Number IntegralFloat) :=
  [("kind", .string "differential"),
   ("valid", .bool r.valid),
   ("blockers", listing .string r.blockers),
   ("old", r.old.dump),
   ("new", r.new.dump),
   ("old_report", r.oldReport.dump),
   ("new_report", r.newReport.dump),
   ("traces", listing CheckTrace.dump r.traces),
   ("initial_to_old", listing .string r.initialToOld),
   ("initial_to_new", listing .string r.initialToNew),
   ("old_to_new", listing .string r.oldToNew)]

/-- `DifferentialReport.model_dump` -/
def DifferentialReport.dump (r : DifferentialReport) : Plain :=
  .object (r.fields ++ [("record", optionally RecordRef.dump r.record)])

theorem faithful_differentialReport : Faithful DifferentialReport.dump := by
  intro a b h
  have hvalues := values_of_same h rfl (by simp [DifferentialReport.fields])
  have hrecord := faithful_recordRef.optionally notNull_object
  simp only [List.map_cons, List.map_nil, List.forall₂_cons, List.forall₂_nil_left_iff, and_true,
    DifferentialReport.fields, List.cons_append, List.nil_append,
    faithful_string.same_iff, faithful_bool.same_iff, faithful_string.listing.same_iff,
    faithful_agentRun.same_iff, faithful_contractReport.same_iff,
    faithful_checkTrace.listing.same_iff, hrecord.same_iff] at hvalues
  cases a
  cases b
  simpa using hvalues

/-- `RepetitionReport` -/
structure RepetitionReport where
  valid : Bool
  blockers : List String
  pairs : List DifferentialReport
  record : Option RecordRef
deriving DecidableEq, Repr

/-- The fields of a `RepetitionReport` but for its record. -/
def RepetitionReport.fields (r : RepetitionReport) : Members (Number IntegralFloat) :=
  [("kind", .string "repetitions"),
   ("valid", .bool r.valid),
   ("blockers", listing .string r.blockers),
   ("pairs", listing DifferentialReport.dump r.pairs)]

/-- A report. -/
inductive Report where
  | contract (report : ContractReport)
  | differential (report : DifferentialReport)
  | repetitions (report : RepetitionReport)
deriving DecidableEq, Repr

namespace Report

/-- The kind of a report. -/
def kind : Report → String
  | .contract _ => "contract"
  | .differential _ => "differential"
  | .repetitions _ => "repetitions"

/-- The fields of a report but for its record. -/
def fields : Report → Members (Number IntegralFloat)
  | .contract report => report.fields
  | .differential report => report.fields
  | .repetitions report => report.fields

/-- The record of a report. -/
def record : Report → Option RecordRef
  | .contract report => report.record
  | .differential report => report.record
  | .repetitions report => report.record

/-- The validity of a report. -/
def valid : Report → Bool
  | .contract report => report.valid
  | .differential report => report.valid
  | .repetitions report => report.valid

/-- `payload_bytes` of a report -/
def payloadBytes (report : Report) : Option Bytes := Storage.canonicalBytes (.object report.fields)

end Report

/-! ## Section 4: Payloads -/

/-- `payload_bytes` of a run -/
def RunEvidence.payloadBytes (e : RunEvidence) : Option Bytes := Storage.canonicalBytes e.dump

/-- `payload_bytes` of a completed run -/
def CompletedRunEvidence.payloadBytes (e : CompletedRunEvidence) : Option Bytes :=
  e.toRun.payloadBytes

/-- `payload_bytes` of a pair -/
def PairEvidence.payloadBytes (e : PairEvidence) : Option Bytes := Storage.canonicalBytes e.dump

/-- Values with exact integers, and no others, have canonical bytes. -/
theorem canonicalBytes_isSome {F : Type} [FloatText F] (v : Value F) :
    (Storage.canonicalBytes v).isSome = v.numbersAll Number.exact := by
  have hencodable : ∀ text : List Char, encodable (ofChars text) = true := by
    intro text
    rw [encodable, ofChars, List.all_map, List.all_eq_true]
    intro c _
    rw [Function.comp_apply, isSurrogate_ofChar]
    rfl
  rw [Storage.canonicalBytes, canonicalJsonBytes]
  cases hexact : v.numbersAll Number.exact with
  | true => simp [encodeUtf8, hencodable]
  | false => rfl

/-- Values with the same canonical bytes are equal by value. -/
theorem same_of_canonicalBytes {F : Type} [FloatText F] {v w : Value F} {bytes : Bytes}
    (hv : Storage.canonicalBytes v = some bytes) (hw : Storage.canonicalBytes w = some bytes) :
    Same v w := by
  obtain ⟨text, htext, hbytes⟩ := Option.bind_eq_some_iff.mp hv
  obtain ⟨text', htext', hbytes'⟩ := Option.bind_eq_some_iff.mp hw
  -- one byte string is the encoding of one text
  have hsame : ofChars text = ofChars text' :=
    Option.some.inj ((decode_encodeUtf8 hbytes).symm.trans (decode_encodeUtf8 hbytes'))
  have heq : text = text' := by
    rw [← toChars_ofChars text, hsame, toChars_ofChars]
  rw [canonicalJsonBytes, Option.ite_none_right_eq_some] at htext htext'
  obtain ⟨hexact, htext⟩ := htext
  obtain ⟨hexact', htext'⟩ := htext'
  apply (canonicalText_eq_iff hexact hexact').mp
  rw [Option.some.inj htext, Option.some.inj htext', heq]

/-- Differential reports with one payload differ in their record at most. -/
theorem differential_payload_injective {report report' : DifferentialReport} {bytes : Bytes}
    (h : (Report.differential report).payloadBytes = some bytes)
    (h' : (Report.differential report').payloadBytes = some bytes) :
    report = { report' with record := report.record } := by
  have hvalues := values_of_same (same_of_canonicalBytes h h') rfl
    (by simp [Report.fields, DifferentialReport.fields])
  simp only [Report.fields, DifferentialReport.fields, List.map_cons, List.map_nil,
    List.forall₂_cons, List.forall₂_nil_left_iff, and_true,
    faithful_string.same_iff, faithful_bool.same_iff, faithful_string.listing.same_iff,
    faithful_agentRun.same_iff, faithful_contractReport.same_iff,
    faithful_checkTrace.listing.same_iff] at hvalues
  cases report
  cases report'
  simpa using hvalues

/-- Contract reports with one payload differ in their record at most. -/
theorem contract_payload_injective {report report' : ContractReport} {bytes : Bytes}
    (h : (Report.contract report).payloadBytes = some bytes)
    (h' : (Report.contract report').payloadBytes = some bytes) :
    report = { report' with record := report.record } := by
  have hvalues := values_of_same (same_of_canonicalBytes h h') rfl
    (by simp [Report.fields, ContractReport.fields])
  simp only [Report.fields, ContractReport.fields, List.map_cons, List.map_nil,
    List.forall₂_cons, List.forall₂_nil_left_iff, and_true,
    faithful_string.same_iff, faithful_bool.same_iff, faithful_string.listing.same_iff,
    faithful_agentRun.same_iff, faithful_counts.same_iff,
    faithful_checkTrace.listing.same_iff] at hvalues
  cases report
  cases report'
  simpa using hvalues

/-- Repetition reports with one payload differ in their record at most. -/
theorem repetitions_payload_injective {report report' : RepetitionReport} {bytes : Bytes}
    (h : (Report.repetitions report).payloadBytes = some bytes)
    (h' : (Report.repetitions report').payloadBytes = some bytes) :
    report = { report' with record := report.record } := by
  have hvalues := values_of_same (same_of_canonicalBytes h h') rfl
    (by simp [Report.fields, RepetitionReport.fields])
  simp only [Report.fields, RepetitionReport.fields, List.map_cons, List.map_nil,
    List.forall₂_cons, List.forall₂_nil_left_iff, and_true,
    faithful_string.same_iff, faithful_bool.same_iff, faithful_string.listing.same_iff,
    faithful_differentialReport.listing.same_iff] at hvalues
  cases report
  cases report'
  simpa using hvalues

/-! ## Section 5: Documents that can be written -/

/-- A value whose integers are exact. -/
abbrev Exact (v : Plain) : Prop := v.numbersAll Number.exact = true

theorem exact_count {n : ℕ} (h : n ≤ 2 ^ 53 - 1) : Exact (count n) := by
  simpa [Exact, count, integer, Json.numbersAll, Number.exact] using h

theorem exact_recordRef (reference : RecordRef) : Exact reference.dump := by
  simp [Exact, RecordRef.dump, Json.numbersAll]

theorem exact_optionalRef (reference : Option RecordRef) :
    Exact (optionally RecordRef.dump reference) := by
  cases reference with
  | none => rfl
  | some reference => exact exact_recordRef reference

theorem exact_agentRun {run : AgentRun} (h : run.repetition ≤ 2 ^ 53 - 1) : Exact run.dump := by
  simp [Exact, AgentRun.dump, Json.numbersAll, exact_count h, exact_recordRef run.record,
    exact_optionalRef run.pairRecord]

theorem exact_strings (xs : List String) : Exact (listing .string xs) := by
  simp [Exact, listing, Json.numbersAll]

theorem exact_traces (traces : List CheckTrace) : Exact (listing CheckTrace.dump traces) := by
  simp only [Exact, listing, Json.numbersAll, Json.itemsAll_eq, List.all_map, List.all_eq_true]
  intro trace _
  cases hobservation : trace.observation <;>
    simp [CheckTrace.dump, Json.numbersAll, hobservation, optionally]

theorem exists_payload {report : Report} (h : Exact (.object report.fields)) :
    ∃ payload, report.payloadBytes = some payload := by
  rw [← Option.isSome_iff_exists, Report.payloadBytes, canonicalBytes_isSome]
  exact h

end ContractCapsule.Twin
