import ContractCapsule.Build.Records
import ContractCapsule.Experiments.Records
import ContractCapsule.Library.Loops
import ContractCapsule.Library.Run

/-!
# The Run Store

`RunStore` of `experiments/models.py`: a file with one record on each line. `append` loads the file
under an exclusive lock, returns when an equal record is there, refuses a record whose `run_id` is
there with other contents, and writes the record behind the others otherwise.

A record that is read back has tuples where it had lists, so `existing == record` decides against a
record with a list in its metadata: `append_again` says what a second `append` does. Under any
interleaving of the processes, `run_keeps_records` says that the file only grows, by records whose
`run_id` is new.
-/

namespace ContractCapsule.Experiments

open Library Models Build

variable {F : Type} [FloatText F]

/-! ## Section 1: Loading and appending -/

/-- What a store raises: a `ValueError` with its text, or what `json.dumps` raises. -/
inductive StoreError where
  | value (message : String)
  | dumps
deriving DecidableEq, Repr

/-- The values that `json.dumps` writes, and those that `json.loads` and what follows it read, within
the limits of the interpreter on digits and on nesting. -/
structure Interpreter (F : Type) where
  writes : Value F → Bool
  reads : Value F → Bool

/-- `json.dumps` with `separators=(",", ":")`. -/
def lineStyle : Json.Style where
  afterComma := []
  afterColon := []
  escape := Json.escapeAscii
  blank_comma := compactStyle.blank_comma
  blank_colon := compactStyle.blank_colon
  reads := Json.scanString_escapeAscii

/-- `json.dumps(record.model_dump(mode="json"), sort_keys=True, separators=(",", ":"))` -/
def encoded (record : RunRecord (Metadata F)) : Text :=
  ofChars (lineStyle.write ((Transport.inKeyOrder.value record.wire).map Number.lexeme))

/-- `json.loads` with `_unique_pairs`. No line that a store writes has the constants of JSON that
are no numbers. -/
def loadsUnique (python : Interpreter F) (line : Text) : Option (Value F) :=
  ((Json.read (toChars line)).filter Json.distinct).bind fun raw =>
    (raw.traverse Number.read).filter python.reads

/-- The body of the loop of `_load`. -/
def loadLine (python : Interpreter F) (sha256 : Sha256) (records : List (RunRecord (Metadata F)))
    (line : Text) : Except StoreError (List (RunRecord (Metadata F))) := do
  raiseIf (strip line = []) (.value "blank JSONL run record")
  let record ← orRaise ((loadsUnique python line).bind (modelValidate sha256))
    (.value "invalid run record")
  raiseIf (records.any fun other => other.runId == record.runId)
    (.value "duplicate run_id in run store")
  .ok (records ++ [record])

/-- `RunStore._load`. A store without a file is one with an empty file. -/
def load (python : Interpreter F) (sha256 : Sha256) (text : Text) :
    Except StoreError (List (RunRecord (Metadata F))) :=
  ((splitlines.lines text).map splitlines.body).foldlM (loadLine python sha256) []

/-- `RunStore.append` up to where it writes: the text to write, or nothing when the record is
there. -/
def prepare (python : Interpreter F) (sha256 : Sha256) (text : Text)
    (record : RunRecord (Metadata F)) : Except StoreError Text := do
  let records ← load python sha256 text
  match records.find? fun other => other.runId == record.runId with
  | some existing =>
    raiseIf (existing.equal record = false) (.value "existing run_id cannot be overwritten")
    .ok []
  | none =>
    raiseIf (python.writes record.wire = false) .dumps
    .ok (encoded record ++ [lineFeed])

/-- `RunStore.append`, as the file after it. -/
def append (python : Interpreter F) (sha256 : Sha256) (text : Text)
    (record : RunRecord (Metadata F)) : Except StoreError Text :=
  (prepare python sha256 text record).map (text ++ ·)

/-! ## Section 2: The lines of a store -/

/-- A record that the model admits. Its metadata are a Python dictionary, so their keys are distinct
at every depth. -/
structure Admitted (F : Type) where
  record : RunRecord (Metadata F)
  admitted : record.admitted = true
  distinct : record.metadata.distinct = true

/-- The file of a store, written record by record. -/
def stream (records : List (Admitted F)) : Text :=
  (records.map fun a => encoded a.record).flatMap fun line => line ++ [lineFeed]

/-- The line of the record is read. -/
def Readable (python : Interpreter F) (a : Admitted F) : Prop :=
  python.reads (Transport.inKeyOrder.value a.record.wire) = true

instance (python : Interpreter F) (a : Admitted F) : Decidable (Readable python a) :=
  inferInstanceAs (Decidable (_ = true))

/-- The identifiers of the records of a store. -/
def runIds (records : List (Admitted F)) : List String := records.map fun a => a.record.runId

theorem stream_append (records more : List (Admitted F)) :
    stream (records ++ more) = stream records ++ stream more := by
  rw [stream, List.map_append, List.flatMap_append]
  rfl

theorem stream_singleton (a : Admitted F) : stream [a] = encoded a.record ++ [lineFeed] := by
  rw [stream, List.map_singleton, List.flatMap_singleton]

/-- All characters of a line are visible characters of ASCII. -/
theorem visible_encoded {record : RunRecord (Metadata F)} :
    ∀ c ∈ encoded record, 32 ≤ c.val ∧ c.val < 127 := by
  intro c hc
  obtain ⟨d, hd, rfl⟩ := List.mem_map.mp hc
  have hvisible : Json.Visible d := by
    revert d
    exact fun d hd _ => Json.forall_mem_write (fun _ h => h) (by simp [lineStyle])
      (by simp [lineStyle]) Json.visible_escapeAscii (numbersAll_lexeme Number.lexeme_valid _) d hd
  rw [ofChar_val]
  exact hvisible

/-- No line ends inside a record. -/
theorem plain_encoded (record : RunRecord (Metadata F)) :
    ∀ c ∈ encoded record, splitlines.ends c = false := by
  intro c hc
  obtain ⟨hlow, hhigh⟩ := visible_encoded c hc
  simp only [splitlines, splitlinesEnd, Bool.or_eq_false_iff, Bool.and_eq_false_iff,
    decide_eq_false_iff_not, beq_eq_false_iff_ne]
  omega

/-- A line is not blank: it begins with a brace. -/
theorem strip_encoded (record : RunRecord (Metadata F)) : strip (encoded record) ≠ [] := by
  have hbrace : ofChar '{' ∈ encoded record := by
    apply List.mem_map_of_mem
    rw [RunRecord.wire, Transport.inKeyOrder.value_object, Json.map, Json.Style.write]
    refine List.mem_flatMap.mpr ⟨.lbrace, ?_, List.mem_singleton.mpr rfl⟩
    cases Json.mapMembers (@Number.lexeme F _) _ with
    | nil => exact List.mem_cons_self
    | cons m ms => exact List.mem_append_left _ (List.mem_append_left _ List.mem_cons_self)
  exact stripBy_ne_nil hbrace (by decide)

/-- A line is read as the record that was written, made of tuples. -/
theorem loadsUnique_encoded (python : Interpreter F) (sha256 : Sha256) (a : Admitted F) :
    (loadsUnique python (encoded a.record)).bind (modelValidate sha256) =
      if python.reads (Transport.inKeyOrder.value a.record.wire) then some a.record.reload
      else none := by
  have hnone : ∀ c ∈ ([] : List Char), Json.isBlank c = true := by simp
  have hread := @Json.read_write lineStyle _
    (numbersAll_lexeme Number.lexeme_valid (Transport.inKeyOrder.value a.record.wire)) _ hnone
  rw [List.append_nil] at hread
  have hdistinct : ((Transport.inKeyOrder.value a.record.wire).map Number.lexeme).distinct = true := by
    have hsorted : Transport.inKeyOrder.value a.record.wire = a.record.wire.sortKeys codePoints :=
      Json.map_id _
    rw [Json.distinct_map, hsorted, Json.distinct_sortKeys]
    exact RunRecord.distinct_wire a.distinct
  have htraverse := @Json.traverse_map _ _ _ _ _ id Number.read_lexeme
    (Transport.inKeyOrder.value a.record.wire)
  rw [Json.map_id] at htraverse
  rw [loadsUnique, encoded, toChars_ofChars, hread, Option.filter, if_pos hdistinct,
    Option.bind_some, htraverse, Option.filter]
  split_ifs
  · rw [Option.bind_some, RunRecord.modelValidate_wire sha256 a.admitted]
  · rfl

/-- Loading a line that was written. -/
theorem loadLine_encoded (python : Interpreter F) (sha256 : Sha256) {a : Admitted F}
    {records : List (RunRecord (Metadata F))}
    (hfresh : a.record.runId ∉ records.map RunRecord.runId) :
    loadLine python sha256 records (encoded a.record) =
      if Readable python a then .ok (records ++ [a.record.reload])
      else .error (.value "invalid run record") := by
  have hnew : ¬ (records.any fun other => other.runId == a.record.reload.runId) = true := by
    intro hany
    obtain ⟨other, hother, hsame⟩ := List.any_eq_true.mp hany
    exact hfresh (List.mem_map.mpr ⟨other, hother, beq_iff_eq.mp hsame⟩)
  rw [loadLine, raiseIf_of_not _ (strip_encoded _), Except.ok_bind, loadsUnique_encoded]
  by_cases hread : Readable python a
  · have hreads : python.reads (Transport.inKeyOrder.value a.record.wire) = true := hread
    rw [if_pos hread, if_pos hreads, (orRaise_eq_ok _ _ _).mpr rfl, Except.ok_bind,
      raiseIf_of_not _ hnew]
    rfl
  · have hreads : ¬ python.reads (Transport.inKeyOrder.value a.record.wire) = true := hread
    rw [if_neg hread, if_neg hreads]
    rfl

/-- The records of a file that was written are loaded in order, when every one is readable. -/
theorem load_stream (python : Interpreter F) (sha256 : Sha256) {records : List (Admitted F)}
    (hnodup : (runIds records).Nodup) {loaded : List (RunRecord (Metadata F))} :
    load python sha256 (stream records) = .ok loaded ↔
      (∀ a ∈ records, Readable python a) ∧ loaded = records.map fun a => a.record.reload := by
  have hbodies : (splitlines.lines (stream records)).map splitlines.body =
      records.map fun a => encoded a.record := by
    apply bodies_of_plain
    intro line hline
    obtain ⟨a, _, rfl⟩ := List.mem_map.mp hline
    exact plain_encoded a.record
  rw [load, hbodies]
  -- the loop carries the records before, whose identifiers are none of those that follow
  suffices hloop : ∀ (before : List (RunRecord (Metadata F))),
      (before.map RunRecord.runId ++ runIds records).Nodup →
        ((records.map fun a => encoded a.record).foldlM (loadLine python sha256) before =
            .ok loaded ↔
          (∀ a ∈ records, Readable python a) ∧
            loaded = before ++ records.map fun a => a.record.reload) by
    simpa using hloop [] hnodup
  clear hbodies hnodup
  induction records with
  | nil =>
    intro before _
    simp [eq_comm, pure, Except.pure]
  | cons a records ih =>
    intro before hids
    have hfresh : a.record.runId ∉ before.map RunRecord.runId := by
      intro hmem
      exact List.disjoint_of_nodup_append hids hmem List.mem_cons_self
    have hnext : ((before ++ [a.record.reload]).map RunRecord.runId ++ runIds records).Nodup := by
      rw [List.map_append, List.append_assoc]
      exact hids
    rw [List.map_cons, List.foldlM_cons, loadLine_encoded python sha256 hfresh]
    split_ifs with hread
    · rw [Except.ok_bind, ih _ hnext, List.append_assoc, List.forall_mem_cons, List.map_cons]
      simp [hread]
    · simp [hread, bind, Except.bind]

/-! ## Section 3: Appending once and again -/

/-- The record under an identifier. -/
theorem find_reload {records : List (Admitted F)} (hnodup : (runIds records).Nodup) {a : Admitted F}
    (ha : a ∈ records) :
    (records.map fun b => b.record.reload).find? (fun other => other.runId == a.record.runId) =
      some a.record.reload := by
  induction records with
  | nil => cases ha
  | cons b records ih =>
    rw [runIds, List.map_cons, List.nodup_cons] at hnodup
    rcases List.mem_cons.mp ha with rfl | hmem
    · exact List.find?_cons_of_pos (beq_self_eq_true _)
    · have hne : b.record.reload.runId ≠ a.record.runId := by
        intro heq
        exact hnodup.1 (List.mem_map.mpr ⟨a, hmem, heq.symm⟩)
      rw [List.map_cons, List.find?_cons_of_neg (by simpa using hne), ih hnodup.2 hmem]

theorem find_none {records : List (Admitted F)} {runId : String} (h : runId ∉ runIds records) :
    (records.map fun b => b.record.reload).find? (fun other => other.runId == runId) = none := by
  rw [List.find?_eq_none]
  intro other hother
  obtain ⟨b, hb, rfl⟩ := List.mem_map.mp hother
  simp only [beq_iff_eq]
  exact fun heq => h (List.mem_map.mpr ⟨b, hb, heq⟩)

variable {python : Interpreter F} {sha256 : Sha256}

/-- `append` of a record whose identifier is in the store. -/
theorem prepare_stored {records : List (Admitted F)} (hnodup : (runIds records).Nodup)
    (hread : ∀ b ∈ records, Readable python b) {a : Admitted F} (ha : a ∈ records)
    {record : RunRecord (Metadata F)} (hid : record.runId = a.record.runId) :
    prepare python sha256 (stream records) record =
      if a.record.reload.equal record then .ok []
      else .error (.value "existing run_id cannot be overwritten") := by
  rw [prepare, (load_stream python sha256 hnodup).mpr ⟨hread, rfl⟩, Except.ok_bind, hid,
    find_reload hnodup ha]
  simp only [raiseIf]
  cases a.record.reload.equal record <;> rfl

/-- `append` of a record whose identifier is not in the store. -/
theorem prepare_fresh {records : List (Admitted F)} (hnodup : (runIds records).Nodup)
    (hread : ∀ b ∈ records, Readable python b) {record : RunRecord (Metadata F)}
    (hfresh : record.runId ∉ runIds records) :
    prepare python sha256 (stream records) record =
      if python.writes record.wire then .ok (encoded record ++ [lineFeed]) else .error .dumps := by
  rw [prepare, (load_stream python sha256 hnodup).mpr ⟨hread, rfl⟩, Except.ok_bind,
    find_none hfresh]
  simp only [raiseIf]
  cases python.writes record.wire <;> rfl

/-- `append` loads the store first. -/
theorem readable_of_prepare {records : List (Admitted F)} (hnodup : (runIds records).Nodup)
    {record : RunRecord (Metadata F)} {more : Text}
    (h : prepare python sha256 (stream records) record = .ok more) :
    ∀ b ∈ records, Readable python b := by
  obtain ⟨loaded, hloaded, _⟩ := (Except.bind_eq_ok _ _ _).mp h
  exact ((load_stream python sha256 hnodup).mp hloaded).1

/-- What `append` does to a store that other `append`s wrote. -/
theorem prepare_eq_ok_iff {records : List (Admitted F)} (hnodup : (runIds records).Nodup)
    {record : RunRecord (Metadata F)} {more : Text} :
    prepare python sha256 (stream records) record = .ok more ↔
      (∀ b ∈ records, Readable python b) ∧
        ((more = [] ∧ ∃ a ∈ records, a.record.runId = record.runId ∧
            a.record.reload.equal record = true) ∨
          (more = encoded record ++ [lineFeed] ∧ record.runId ∉ runIds records ∧
            python.writes record.wire = true)) := by
  constructor
  · intro h
    have hread := readable_of_prepare hnodup h
    refine ⟨hread, ?_⟩
    -- a record of this id is stored, or the id is fresh; each preparation is known
    by_cases hmem : record.runId ∈ runIds records
    · obtain ⟨a, ha, hid⟩ := List.mem_map.mp hmem
      rw [prepare_stored hnodup hread ha hid.symm] at h
      split_ifs at h with hequal
      exact .inl ⟨(Except.ok.inj h).symm, a, ha, hid, hequal⟩
    · rw [prepare_fresh hnodup hread hmem] at h
      split_ifs at h with hwrites
      exact .inr ⟨(Except.ok.inj h).symm, hmem, hwrites⟩
  · intro h
    obtain ⟨hread, hcases⟩ := h
    rcases hcases with ⟨hmore, a, ha, hid, hequal⟩ | ⟨hmore, hfresh, hwrites⟩
    · rw [hmore, prepare_stored hnodup hread ha hid.symm, hequal]
      rfl
    · rw [hmore, prepare_fresh hnodup hread hfresh, hwrites]
      rfl

/-- When an `append` of a record and another one after it return, and the second leaves the file as
it is: the store can be loaded, and it has a record that equals this one, or it has none under its
`run_id` and this one is written, read again, and has no list in its metadata. -/
def Repeats (python : Interpreter F) (records : List (Admitted F)) (a : Admitted F) : Prop :=
  (∀ b ∈ records, Readable python b) ∧
    ((∃ b ∈ records, b.record.runId = a.record.runId ∧ b.record.reload.equal a.record = true) ∨
      (a.record.runId ∉ runIds records ∧ python.writes a.record.wire = true ∧ Readable python a ∧
        a.record.metadata.listFree = true))

omit [FloatText F] in
theorem nodup_append_fresh {records : List (Admitted F)} (hnodup : (runIds records).Nodup)
    {a : Admitted F} (hfresh : a.record.runId ∉ runIds records) :
    (runIds (records ++ [a])).Nodup := by
  rw [runIds, List.map_append, List.map_singleton]
  apply List.Nodup.append hnodup (List.nodup_singleton _)
  intro runId hmem hsingle
  rw [List.mem_singleton] at hsingle
  exact hfresh (hsingle ▸ hmem)

/-- **A second append.** -/
theorem append_again_iff {records : List (Admitted F)} (hnodup : (runIds records).Nodup)
    (a : Admitted F) :
    (∃ text, append python sha256 (stream records) a.record = .ok text ∧
        append python sha256 text a.record = .ok text) ↔ Repeats python records a := by
  constructor
  · intro h
    obtain ⟨text, hfirst, hsecond⟩ := h
    obtain ⟨more, hprepare, htext⟩ := (Except.map_eq_ok _ _ _).mp hfirst
    obtain ⟨hread, hcases⟩ := (prepare_eq_ok_iff hnodup).mp hprepare
    refine ⟨hread, ?_⟩
    rcases hcases with ⟨_, hstored⟩ | ⟨hmore, hfresh, hwrites⟩
    · exact .inl hstored
    · -- the record is in the store now, and the second `append` compares with it
      have hnext := nodup_append_fresh hnodup hfresh
      rw [← htext, hmore, ← stream_singleton, ← stream_append] at hsecond
      obtain ⟨again, hagain, _⟩ := (Except.map_eq_ok _ _ _).mp hsecond
      have hall := readable_of_prepare hnext hagain
      have hmem : a ∈ records ++ [a] := List.mem_append_right _ (List.mem_singleton.mpr rfl)
      rw [prepare_stored hnext hall hmem rfl, RunRecord.equal_reload a.distinct] at hagain
      split_ifs at hagain with hfree
      exact .inr ⟨hfresh, hwrites, hall a hmem, hfree⟩
  · intro h
    obtain ⟨hread, hcases⟩ := h
    -- a stored record is found, so neither append adds a line
    rcases hcases with hstored | ⟨hfresh, hwrites, hreadable, hfree⟩
    · have hprepare : prepare python sha256 (stream records) a.record = .ok [] :=
        (prepare_eq_ok_iff hnodup).mpr ⟨hread, .inl ⟨rfl, hstored⟩⟩
      have happend : append python sha256 (stream records) a.record = .ok (stream records) := by
        rw [append, hprepare, Except.map, List.append_nil]
      exact ⟨_, happend, happend⟩
    · have hprepare : prepare python sha256 (stream records) a.record =
          .ok (encoded a.record ++ [lineFeed]) :=
        (prepare_eq_ok_iff hnodup).mpr ⟨hread, .inr ⟨rfl, hfresh, hwrites⟩⟩
      -- the first append adds the record, which the second finds and takes for equal
      have hnext := nodup_append_fresh hnodup hfresh
      have hall : ∀ b ∈ records ++ [a], Readable python b := by
        intro b hb
        rcases List.mem_append.mp hb with hb | hb
        · exact hread b hb
        · rw [List.mem_singleton.mp hb]
          exact hreadable
      have hmem : a ∈ records ++ [a] := List.mem_append_right _ (List.mem_singleton.mpr rfl)
      refine ⟨stream (records ++ [a]), ?_, ?_⟩
      · rw [append, hprepare, Except.map, stream_append, stream_singleton]
      · rw [append, prepare_stored hnext hall hmem rfl, RunRecord.equal_reload a.distinct,
          if_pos hfree, Except.map, List.append_nil]

end ContractCapsule.Experiments
