import ContractCapsule.Build.SourceMaps

/-!
# Binding of Extracted Statements

`extract_candidate_atoms` makes a candidate of each span and `bind_evidence` binds it to its lines.
The quarantine and the registry later read the bound lines again and recover the statement from
them, each with its own code.

`extracted_promotable_iff` says exactly which statements they recover: those of a line that does
not begin with `#` when stripped, and those of a Markdown heading whose title is not only marks.
-/

namespace ContractCapsule.Build

open Library Models

variable {host : Host} {ν : Type} {parsers : Parsers ν}

/-! ## Section 1: Candidates and bindings -/

/-- What identifies a candidate. -/
def candidateIdentity (snapshotId : String) (span : ExtractedSpan) : Payload :=
  [("snapshot_id", .str snapshotId), ("statement", .text span.statement),
    ("kind", .str (Enumeration.wire span.kind)), ("start_line", .number span.startLine),
    ("end_line", .number span.endLine), ("symbol_or_heading", .text span.symbolOrHeading)]

/-- The candidate that `extract_candidate_atoms` makes of a span; `proved` says whether the
quarantine has a deterministic source proof of the snapshot. -/
def Parsers.candidateFor (parsers : Parsers ν) (snapshot : SourceSnapshot host) (proved : Bool)
    (span : ExtractedSpan) : Except String CandidateAtom := do
  let digest ← host.digestOf (candidateIdentity snapshot.snapshotId span)
  let candidate : CandidateAtom :=
    { candidateId := identifier "candidate-" digest
      atomId := identifier "atom-" digest
      kind := span.kind
      statement := span.statement
      modality := parsers.modality span.statement
      scope := ["path:" ++ snapshot.relativePath]
      sourceSnapshotId := snapshot.snapshotId
      startLine := span.startLine
      endLine := span.endLine
      symbolOrHeading := span.symbolOrHeading
      compressionClass := "P1_STRUCTURED"
      generated := snapshot.generated
      trustLevel := if proved && !snapshot.generated then .t2 else .t3 }
  candidate.postInit
  pure candidate

/-- What a quarantine answers about a candidate and about the source of a snapshot. -/
structure Quarantined where
  candidate : String → Except String CandidateAtom
  assertCurrent : Except String Unit

/-- The binding of a candidate to the span of which a digest was taken. -/
def bindingOf (snapshot : SourceSnapshot host) (atom : CandidateAtom)
    (digest spanDigest : String) : EvidenceBinding where
  bindingId := identifier "evidence-" digest
  candidateId := atom.candidateId
  snapshotId := snapshot.snapshotId
  mode := snapshot.mode
  contentDigest := snapshot.contentDigest
  spanDigest := spanDigest
  mediaType := snapshot.mediaType
  capturedAt := snapshot.capturedAt
  accessPolicy := snapshot.accessPolicy
  repository := snapshot.repository
  revision := snapshot.revision
  path := some snapshot.relativePath
  symbolOrHeading := some atom.symbolOrHeading
  startLine := some atom.startLine
  endLine := some atom.endLine
  uri := snapshot.uri
  source := snapshot.source
  verificationMethod := snapshot.verificationMethod
  sourceBytes := snapshot.content

/-- `bind_evidence` -/
def bindEvidence (quarantine : Quarantined) (atom : CandidateAtom) (snapshot : SourceSnapshot host) :
    Except String EvidenceBinding := do
  raiseIf (atom.sourceSnapshotId ≠ snapshot.snapshotId) "candidate and snapshot do not match"
  let registered ← quarantine.candidate atom.candidateId
  raiseIf (registered ≠ atom) "candidate is not the registered quarantined value"
  quarantine.assertCurrent
  let span ← snapshot.lineSpan atom.startLine atom.endLine
  host.scanSecrets span
  let candidateDigest ← candidateDigestFor host atom
  let digest ← host.digestOf
    [("candidate_digest", .str candidateDigest), ("snapshot_id", .str snapshot.snapshotId),
      ("content_digest", .str snapshot.contentDigest), ("span_digest", .str (host.digestBytes span)),
      ("mode", .str (Enumeration.wire snapshot.mode))]
  let binding := bindingOf snapshot atom digest (host.digestBytes span)
  binding.postInit host
  pure binding

/-! ## Section 2: The verifiers -/

/-- The statement that a verifier reads off a span. -/
def statementOf (span : Text) : Text :=
  let stripped := strip span
  if stripped.head? = some mark then
    strip ((strip (stripped.dropWhile (· == mark))).rdropWhile (· == mark))
  else stripped

/-- `QuarantineStore._verify_binding_bytes` -/
def verifyBindingBytes (candidate : CandidateAtom) (snapshot : SourceSnapshot host)
    (binding : EvidenceBinding) : Except String Unit := do
  raiseIf (binding.sourceBytes ≠ snapshot.content) "evidence binding bytes mismatch"
  let actual ← snapshot.lineSpan candidate.startLine candidate.endLine
  let span ← orRaise (decodeStrict actual) "evidence binding span is not valid UTF-8"
  raiseIf (statementOf span ≠ strip candidate.statement) "evidence binding statement mismatch"
  raiseIf (host.digestBytes actual ≠ binding.spanDigest) "evidence binding span digest mismatch"
  host.scanSecrets binding.sourceBytes

/-- `Registry._authoritative_line_span` -/
def authoritativeLineSpan (sourceData : Bytes) (start stop : Option ℕ) : Except String Bytes := do
  let text ← orRaise (decodeStrict sourceData) "authoritative source is not valid UTF-8"
  let start ← orRaise start "authoritative source span is invalid"
  let stop ← orRaise stop "authoritative source span is invalid"
  encodedSpan text start stop "authoritative source span is invalid"

/-- The checks of `Registry._validate_authoritative_binding`. -/
def authoritativeChecks (host : Host) (statement : Text) (binding : EvidenceBinding)
    (sourceData : Bytes) : Except String Unit := do
  raiseIf (host.digestBytes sourceData ≠ binding.contentDigest)
    "authoritative source digest mismatch"
  let actual ← authoritativeLineSpan sourceData binding.startLine binding.endLine
  raiseIf (host.digestBytes actual ≠ binding.spanDigest)
    "authoritative source span digest mismatch"
  let span ← orRaise (decodeStrict actual) "authoritative source span is not valid UTF-8"
  raiseIf (statementOf span ≠ strip statement) "authoritative source statement mismatch"

/-- `Registry._validate_authoritative_binding`; any failure becomes one error. -/
def validateAuthoritativeBinding (host : Host) (statement : Text) (binding : EvidenceBinding)
    (sourceData : Bytes) : Except String Unit :=
  (authoritativeChecks host statement binding sourceData).mapError
    fun _ => "M3 authoritative source binding mismatch"

/-- A bound candidate passes both verifiers against the text of its snapshot. -/
def Promotable (snapshot : SourceSnapshot host) (candidate : CandidateAtom)
    (binding : EvidenceBinding) : Prop :=
  verifyBindingBytes candidate snapshot binding = .ok () ∧
    validateAuthoritativeBinding host candidate.statement binding snapshot.content = .ok ()

/-! ## Section 3: Headings -/

/-- What a heading says behind its marks. -/
def headingTitle (stripped : Text) : Text := (stripped.dropWhile (· == mark)).dropWhile isSpace

theorem isSpace_mark : isSpace mark = false := by decide

/-- Lines end at white space only. -/
theorem isSpace_of_splitlinesEnd {c : CodePoint} (h : splitlinesEnd c = true) :
    isSpace c = true := by
  simp only [splitlinesEnd, Bool.or_eq_true, Bool.and_eq_true, decide_eq_true_eq,
    beq_iff_eq] at h
  simp only [isSpace, Bool.or_eq_true, Bool.and_eq_true, decide_eq_true_eq, beq_iff_eq]
  omega

/-- The rest of the pattern, behind the marks, refuses another mark. -/
theorem behindMarks_refuses (c : CodePoint) (rest : Text) (hc : (c == mark) = true) :
    behindMarks (c :: rest) = none := by
  rw [beq_iff_eq.mp hc, behindMarks, greedyPlus, isSpace_mark]
  rfl

/-- A line that is a heading begins with a mark, and its group is searched for in its title. -/
theorem lazyPlus_of_headingGroup {stripped group : Text} (h : headingGroup stripped = some group)
    (hstripped : Stripped isSpace stripped) (hline : ∀ c ∈ stripped, c ≠ lineFeed) :
    stripped.head? = some mark ∧ headingTitle stripped ≠ [] ∧
      lazyPlus (· != lineFeed) closesHeading (headingTitle stripped) = some group := by
  cases stripped with
  | nil => cases h
  | cons c rest =>
    rw [headingGroup, greedyPlus] at h
    split_ifs at h with hc
    -- the marks are taken by a loop that never gives one back: what follows them refuses a mark
    rw [greedyStar_of_refuses behindMarks_refuses] at h
    split_ifs at h
    have hdrop : (c :: rest).dropWhile (· == mark) = rest.dropWhile (· == mark) :=
      List.dropWhile_cons_of_pos hc
    have hsuffix : rest.dropWhile (· == mark) <:+ c :: rest := hdrop ▸ List.dropWhile_suffix _
    rw [headingTitle, hdrop]
    cases hbehind : rest.dropWhile (· == mark) with
    | nil =>
      rw [hbehind] at h
      cases h
    | cons d tail =>
      rw [hbehind] at h hsuffix
      rw [behindMarks, greedyPlus] at h
      split_ifs at h with hd
      rw [List.dropWhile_cons_of_pos hd]
      have htitle : tail.dropWhile isSpace ≠ [] := by
        intro hnil
        -- the line would end in white space
        have hspaces : ∀ e ∈ d :: tail, isSpace e = true := by
          intro e he
          rcases List.mem_cons.mp he with rfl | hin
          · exact hd
          · exact List.dropWhile_eq_nil_iff.mp hnil e hin
        have hlast := hstripped.2 (List.cons_ne_nil c rest)
        rw [← hsuffix.getLast (List.cons_ne_nil d tail), hspaces _ (List.getLast_mem _)] at hlast
        cases hlast
      have hclass : ∀ e ∈ tail.dropWhile isSpace, (e != lineFeed) = true := by
        intro e he
        have hin := hsuffix.mem (List.mem_cons_of_mem d ((List.dropWhile_suffix _).mem he))
        simpa using hline e hin
      -- so the white space is not given back either, and the group is searched for in the title
      have hsome := @isSome_lazyPlus _ _ closesHeading _ htitle hclass rfl
      rw [greedyStar_of_isSome (by simp) hsome] at h
      exact ⟨by rw [beq_iff_eq.mp hc]; rfl, htitle, h⟩

/-- What a verifier reads off a heading is its group, unless the title consists of marks. -/
theorem strip_title_iff {stripped group : Text} (hstripped : Stripped isSpace stripped)
    (hline : ∀ c ∈ stripped, c ≠ lineFeed) (htitle : headingTitle stripped ≠ [])
    (hgroup : lazyPlus (· != lineFeed) closesHeading (headingTitle stripped) = some group) :
    strip ((strip (stripped.dropWhile (· == mark))).rdropWhile (· == mark)) = strip group ↔
      ∃ c ∈ headingTitle stripped, c ≠ mark := by
  have hsuffix : stripped.dropWhile (· == mark) <:+ stripped := List.dropWhile_suffix _
  have hbehind : stripped.dropWhile (· == mark) ≠ [] := by
    intro hnil
    rw [headingTitle, hnil] at htitle
    exact htitle rfl
  have hne : stripped ≠ [] := by
    intro hnil
    rw [hnil] at hbehind
    exact hbehind rfl
  -- the line ends in no white space, so stripping takes only what stands in front of the title
  have hstrip : strip (stripped.dropWhile (· == mark)) = headingTitle stripped := by
    rw [strip, stripBy, List.rdropWhile_eq_self_iff.mpr]
    · rfl
    · intro hne'
      rw [hsuffix.getLast hne', hstripped.2 hne]
      simp
  rw [hstrip]
  -- the title begins with something visible, which is what stripping on the left comes to
  have hhead : isSpace ((headingTitle stripped).head htitle) = false :=
    List.head_dropWhile_not isSpace htitle
  have hclass : ∀ c ∈ headingTitle stripped, (c != lineFeed) = true := by
    intro c hc
    simpa using hline c (hsuffix.mem ((List.dropWhile_suffix _).mem hc))
  by_cases hmarks : ∀ c ∈ headingTitle stripped, c = mark
  · -- a title of marks: the group is the first of them, and the verifiers read nothing
    have hempty : (headingTitle stripped).rdropWhile (· == mark) = [] := by
      apply List.rdropWhile_eq_nil_iff.mpr
      intro c hc
      simp [hmarks c hc]
    have hfirst : group = [mark] := by
      obtain ⟨c, rest, hcons⟩ := List.exists_cons_of_ne_nil htitle
      rw [hcons] at hgroup hmarks hclass
      have hcloses : closesHeading rest = true := by
        rw [closesHeading, List.all_eq_true]
        intro d hd
        simp [hmarks d (List.mem_cons_of_mem c ((List.dropWhile_suffix _).mem hd))]
      rw [lazyPlus, if_pos (hclass c List.mem_cons_self), if_pos hcloses,
        hmarks c List.mem_cons_self] at hgroup
      exact (Option.some.inj hgroup).symm
    rw [hempty, hfirst]
    constructor
    · intro heq
      exact absurd heq (by decide)
    · intro hother
      obtain ⟨c, hc, hnot⟩ := hother
      exact absurd (hmarks c hc) hnot
  -- otherwise the group is the title without its closing marks and the white space before them
  · have hother : ∃ c ∈ headingTitle stripped, c ≠ mark := by
      simpa using hmarks
    have hhead' : ∀ {t : Text} (ht : t ≠ []), t <+: headingTitle stripped →
        isSpace (t.head ht) = false := by
      intro t ht hfront
      rw [hfront.head ht]
      exact hhead
    have hleft : ∀ {t : Text}, t <+: headingTitle stripped → t.dropWhile isSpace = t := by
      intro t hfront
      cases t with
      | nil => rfl
      | cons d tail =>
        apply List.dropWhile_cons_of_neg
        simpa using hhead' (List.cons_ne_nil d tail) hfront
    have hright := List.rdropWhile_prefix (· == mark) (headingTitle stripped)
    have hrightNe : (headingTitle stripped).rdropWhile (· == mark) ≠ [] := by
      intro hnil
      obtain ⟨c, hc, hnot⟩ := hother
      exact hnot (by simpa using List.rdropWhile_eq_nil_iff.mp hnil c hc)
    have hinner := List.rdropWhile_prefix isSpace ((headingTitle stripped).rdropWhile (· == mark))
    have hinnerNe : ((headingTitle stripped).rdropWhile (· == mark)).rdropWhile isSpace ≠ [] := by
      intro hnil
      have hspace := List.rdropWhile_eq_nil_iff.mp hnil _ (List.head_mem hrightNe)
      rw [hhead' hrightNe hright] at hspace
      cases hspace
    have hdisjoint : ∀ c, isSpace c = true → (c == mark) = false := by
      intro c hc
      by_contra hmark
      rw [Bool.not_eq_false, beq_iff_eq] at hmark
      rw [hmark, isSpace_mark] at hc
      cases hc
    -- white space and marks are disjoint, so the shortest group is found by taking off both
    have hfound := lazyPlus_trailing hdisjoint hclass hinnerNe
    obtain rfl := Option.some.inj (hgroup.symm.trans hfound)
    constructor
    · intro _
      exact hother
    · intro _
      simp only [strip, stripBy, List.rdropWhile_idempotent]

/-! ## Section 4: Recovery -/

/-- The verifiers recover what the extractor took from a line: the stripped line does not begin with
a mark, or it is a heading of Markdown whose title is not only marks. -/
def Recoverable (kind : ParserKind) (line : Text) : Prop :=
  (strip line).head? ≠ some mark ∨
    kind = .markdown ∧ (headingGroup (strip line)).isSome = true ∧
      ∃ c ∈ headingTitle (strip line), c ≠ mark

theorem strip_idempotent (text : Text) : strip (strip text) = strip text :=
  (stripped_stripBy text).stripBy_eq

theorem mem_of_mem_strip {c : CodePoint} {text : Text} (h : c ∈ strip text) : c ∈ text :=
  (List.rdropWhile_prefix isSpace text).mem ((List.dropWhile_suffix isSpace).mem h)

/-- Taking marks off a text that begins with one makes it shorter. -/
theorem strip_marks_ne {stripped : Text} (h : stripped.head? = some mark) :
    strip ((strip (stripped.dropWhile (· == mark))).rdropWhile (· == mark)) ≠ stripped := by
  intro heq
  obtain ⟨rest, rfl⟩ := List.head?_eq_some_iff.mp h
  -- at least the first mark is gone, and no later step makes the text longer
  have hshort : ((mark :: rest).dropWhile (· == mark)).length ≤ rest.length := by
    rw [List.dropWhile_cons_of_pos (by decide)]
    exact (List.dropWhile_suffix _).length_le
  have hstrip := @length_stripBy_le isSpace ((mark :: rest).dropWhile (· == mark))
  have hmarks := (List.rdropWhile_prefix (· == mark)
    (strip ((mark :: rest).dropWhile (· == mark)))).length_le
  have houter := @length_stripBy_le isSpace
    ((strip ((mark :: rest).dropWhile (· == mark))).rdropWhile (· == mark))
  have hlength := congrArg List.length heq
  simp only [strip] at hlength hmarks houter
  rw [List.length_cons] at hlength
  omega

/-- A verifier reads the statement off its line exactly when the line is recoverable. -/
theorem statementOf_eq_iff {kind : ParserKind} {text line span : Text} {s : ExtractedSpan}
    (hline : line ∈ lineTexts text) (hquotes : QuotesLine kind s line)
    (hspan : strip span = strip line) :
    statementOf span = strip s.statement ↔ Recoverable kind line := by
  -- a line holds no line feed: it ends where `splitlines` ends it
  have hnoFeed : ∀ c ∈ strip line, c ≠ lineFeed := by
    intro c hc heq
    obtain ⟨whole, _, rfl⟩ := List.mem_map.mp hline
    have hends := List.mem_takeWhile_imp (mem_of_mem_strip hc)
    rw [heq, splitlines.lineFeed_ends] at hends
    cases hends
  rw [statementOf, hspan, Recoverable]
  rcases hquotes with ⟨hstatement, hnone⟩ | ⟨hkind, group, hgroup, hstatement⟩
  · rw [hstatement, strip_idempotent]
    by_cases hmark : (strip line).head? = some mark
    · -- the marks are part of the statement, and the verifier takes them off
      rw [if_pos hmark]
      constructor
      · intro heq
        exact absurd heq (strip_marks_ne hmark)
      · intro hrecoverable
        rcases hrecoverable with hhead | ⟨hkind, hsome, _⟩
        · exact absurd hmark hhead
        · rw [hnone hkind] at hsome
          cases hsome
    · rw [if_neg hmark]
      exact ⟨fun _ => .inl hmark, fun _ => rfl⟩
  · have hstripped : Stripped isSpace (strip line) := stripped_stripBy line
    obtain ⟨hmark, htitle, hlazy⟩ := lazyPlus_of_headingGroup hgroup hstripped hnoFeed
    rw [if_pos hmark, hstatement, strip_idempotent,
      strip_title_iff hstripped hnoFeed htitle hlazy]
    constructor
    · intro hother
      exact .inr ⟨hkind, by rw [hgroup]; rfl, hother⟩
    · intro hrecoverable
      rcases hrecoverable with hhead | ⟨_, _, hother⟩
      · exact absurd hmark hhead
      · exact hother

/-! ## Section 5: Promotion -/

/-- The span of one line is that line with its end. -/
theorem encodedSpan_line {text : Text} {located : ℕ} {message : String} {bytes : Bytes}
    (h : encodedSpan text (located + 1) (located + 1) message = .ok bytes) :
    ∃ whole, (splitlines.lines text)[located]? = some whole ∧ decodeStrict bytes = some whole := by
  simp only [encodedSpan, Except.bind_eq_ok, raiseIf_eq_ok, orRaise_eq_ok] at h
  obtain ⟨_, hrange, hencode⟩ := h
  have hlt : located < (splitlines.lines text).length := by omega
  have hone : ((splitlines.lines text).take (located + 1)).drop (located + 1 - 1) =
      [(splitlines.lines text)[located]] := by
    rw [Nat.add_sub_cancel, List.take_succ_eq_append_getElem hlt,
      List.drop_left' (List.length_take_of_le hlt.le)]
  rw [hone, List.flatten_singleton] at hencode
  exact ⟨_, List.getElem?_eq_getElem hlt, decode_encodeUtf8 hencode⟩

/-- What a candidate takes over from its span. -/
theorem candidateFor_eq_ok {snapshot : SourceSnapshot host} {proved : Bool} {span : ExtractedSpan}
    {candidate : CandidateAtom} (h : parsers.candidateFor snapshot proved span = .ok candidate) :
    candidate.statement = span.statement ∧ candidate.startLine = span.startLine ∧
      candidate.endLine = span.endLine := by
  simp only [Parsers.candidateFor, Except.bind_eq_ok, Except.pure_eq_ok] at h
  obtain ⟨_, _, _, _, rfl⟩ := h
  exact ⟨rfl, rfl, rfl⟩

/-- A binding is made of the snapshot, of the candidate and of a digest of the bound span. -/
theorem bindEvidence_eq_ok {quarantine : Quarantined} {candidate : CandidateAtom}
    {snapshot : SourceSnapshot host} {binding : EvidenceBinding}
    (h : bindEvidence quarantine candidate snapshot = .ok binding) :
    ∃ bytes digest, snapshot.lineSpan candidate.startLine candidate.endLine = .ok bytes ∧
      binding = bindingOf snapshot candidate digest (host.digestBytes bytes) := by
  simp only [bindEvidence, Except.bind_eq_ok, Except.pure_eq_ok] at h
  obtain ⟨_, _, _, _, _, _, _, _, bytes, hbytes, _, _, _, _, digest, _, _, _, rfl⟩ := h
  exact ⟨bytes, digest, hbytes, rfl⟩

/-- **When extracted candidates can be promoted.** Of every source and every parser kind, the
binding that `bind_evidence` makes of an extracted span passes the verifiers of the quarantine and
of the registry exactly when the line of the span is recoverable. -/
theorem extracted_promotable_iff {snapshot : SourceSnapshot host} {text : Text}
    {spans : List ExtractedSpan} {span : ExtractedSpan} {proved : Bool}
    {candidate : CandidateAtom} {quarantine : Quarantined} {binding : EvidenceBinding}
    (htext : snapshot.text = .ok text) (hspans : parsers.extract snapshot = .ok spans)
    (hspan : span ∈ spans) (hcandidate : parsers.candidateFor snapshot proved span = .ok candidate)
    (hbinding : bindEvidence quarantine candidate snapshot = .ok binding) :
    Promotable snapshot candidate binding ↔
      ∃ line, (lineTexts text)[span.startLine - 1]? = some line ∧
        Recoverable snapshot.parserKind line := by
  obtain ⟨located, line, hline, hstart, hend, hquotes⟩ := quotes_extract htext hspans hspan
  obtain ⟨hstatement, hcstart, hcend⟩ := candidateFor_eq_ok hcandidate
  obtain ⟨bytes, digest, hbytes, rfl⟩ := bindEvidence_eq_ok hbinding
  have hdecoded : decodeStrict snapshot.content = some text := (orRaise_eq_ok _ _ _).mp htext
  have hspanBytes : ∀ message, encodedSpan text (located + 1) (located + 1) message = .ok bytes := by
    intro message
    rw [SourceSnapshot.lineSpan, htext, Except.ok_bind, hcstart, hcend, hstart, hend] at hbytes
    simp only [encodedSpan, Except.bind_eq_ok, raiseIf_eq_ok] at hbytes ⊢
    exact hbytes
  obtain ⟨whole, hwhole, hdecode⟩ := encodedSpan_line (hspanBytes "")
  have hbody : splitlines.body whole = line := by
    rw [lineTexts, List.getElem?_map, hwhole] at hline
    exact Option.some.inj hline
  have hstrip : strip whole = strip line := by
    rw [← hbody]
    exact (stripBy_body (List.mem_of_getElem? hwhole) fun _ => isSpace_of_splitlinesEnd).symm
  have hrecover := statementOf_eq_iff (List.mem_of_getElem? hline) hquotes hstrip
  -- every other check compares values that the binding took over
  have hquarantine : verifyBindingBytes candidate snapshot
      (bindingOf snapshot candidate digest (host.digestBytes bytes)) = .ok () ↔
        statementOf whole = strip span.statement := by
    simp only [verifyBindingBytes, bindingOf, hbytes, Except.ok_bind, hdecode, hstatement,
      Except.bind_eq_ok, orRaise_eq_ok, raiseIf_eq_ok, not_not, snapshot.scanned]
    simp
  have hregistry : validateAuthoritativeBinding host candidate.statement
      (bindingOf snapshot candidate digest (host.digestBytes bytes)) snapshot.content = .ok () ↔
        statementOf whole = strip span.statement := by
    have hauthoritative : authoritativeLineSpan snapshot.content (some candidate.startLine)
        (some candidate.endLine) = .ok bytes := by
      rw [authoritativeLineSpan, hdecoded, hcstart, hcend, hstart, hend]
      exact hspanBytes _
    have hchecks : authoritativeChecks host candidate.statement
        (bindingOf snapshot candidate digest (host.digestBytes bytes)) snapshot.content = .ok () ↔
          statementOf whole = strip span.statement := by
      simp only [authoritativeChecks, bindingOf, hauthoritative, Except.ok_bind, hdecode,
        hstatement, Except.bind_eq_ok, orRaise_eq_ok, raiseIf_eq_ok, not_not, snapshot.digest_eq]
      simp
    rw [← hchecks, validateAuthoritativeBinding]
    cases authoritativeChecks host candidate.statement
      (bindingOf snapshot candidate digest (host.digestBytes bytes)) snapshot.content with
    | error e => simp [Except.mapError]
    | ok u => simp [Except.mapError]
  rw [Promotable, hquarantine, hregistry, and_self, hrecover, hstart, Nat.add_sub_cancel, hline]
  simp

/-! ## Section 6: A line that only looks like a heading -/

/-- SHA-256 of the bytes of the sample and of its two lines. -/
def sampleDigest (data : Bytes) : String :=
  if data.length = 9 then
    "sha256:d39a19b0391edde0efec185d2ca39b3be699df1515da675639eb5ede972c5936"
  else if data.length = 7 then
    "sha256:79aeaf7ba450cdab4b13e948c49101b1de4d13e9b45e10e51ee99442c982a7e8"
  else "sha256:0d9d44d93981de97306b9d947e37ca8e0b34acd17137778fa06c5471ef15261e"

/-- SHA-256 of the canonical JSON of the payloads that belong to a line of the sample. -/
def sampleJsonDigest (first : Bool) (payload : Payload) : String :=
  if payload.length = 6 then
    if first then "sha256:0881597c3ef24c48e21bc9fb5697fb6cbcc02419b0bf0ab7306e8fff7441b51f"
    else "sha256:f7a0c591a04af33e4acaa3fb095e18bea813c2b24110bedb2659edb9bb95515a"
  else if payload.length = 14 then
    if first then "sha256:bc4f3f258c7ebdadab96be027599b7002ce780761e49bb719ae05001e0728a5d"
    else "sha256:ba720e4a13936d51790f7554bc5149f45ea269d5e7722d3b3877ae5e54fcbde7"
  else
    if first then "sha256:112c6a15504cb97faf9da31e6cb24de13f6e63aee91209982cbc1664b37ee564"
    else "sha256:07a7842282119e17aa18e3a9c6a380a6cf4eab89ca06f25d546647a11fa2a38b"

/-- A host for a line of the sample. -/
def sampleHost (first : Bool) : Host where
  digestBytes := sampleDigest
  digestJson := sampleJsonDigest first
  hasSecret := fun _ => false

/-- A Markdown source of a line that looks like a heading and of a heading. -/
def sampleContent : Bytes := "#hashtag\n# Title".toUTF8.toList

/-- The snapshot of `sampleContent`. -/
def sampleSnapshot (first : Bool) : SourceSnapshot (sampleHost first) where
  snapshotId := "snapshot-sample"
  content := sampleContent
  contentDigest := sampleDigest sampleContent
  mode := .cas
  mediaType := "text/markdown"
  capturedAt := "2026-01-01T00:00:00.000000Z"
  principalId := "author"
  relativePath := "notes.md"
  parserKind := .markdown
  digest_eq := rfl
  identified := by decide
  scanned := by cases first <;> decide +kernel

/-- The spans of the two lines. -/
def sampleSpans : List ExtractedSpan :=
  [⟨textOf "#hashtag", .fact, 1, 1, textOf "document"⟩, ⟨textOf "Title", .fact, 2, 2, textOf "Title"⟩]

/-- The candidate of a line. -/
def sampleCandidate (first : Bool) : CandidateAtom where
  candidateId :=
    if first then "candidate-0881597c3ef24c48e21bc9fb5697fb6c"
    else "candidate-f7a0c591a04af33e4acaa3fb095e18be"
  atomId :=
    if first then "atom-0881597c3ef24c48e21bc9fb5697fb6c"
    else "atom-f7a0c591a04af33e4acaa3fb095e18be"
  kind := .fact
  statement := if first then textOf "#hashtag" else textOf "Title"
  modality := .informative
  scope := ["path:notes.md"]
  sourceSnapshotId := "snapshot-sample"
  startLine := if first then 1 else 2
  endLine := if first then 1 else 2
  symbolOrHeading := if first then textOf "document" else textOf "Title"

/-- A quarantine that holds the candidate of a line. -/
def sampleQuarantine (first : Bool) : Quarantined := ⟨fun _ => .ok (sampleCandidate first), .ok ()⟩

/-- The binding of a line. -/
def sampleBinding (first : Bool) : Except String EvidenceBinding :=
  bindEvidence (sampleQuarantine first) (sampleCandidate first) (sampleSnapshot first)

/-- `#hashtag` is extracted as it stands, and both verifiers read `hashtag` off its line. -/
theorem hashtag_not_promotable :
    sampleParsers.extract (sampleSnapshot true) = .ok sampleSpans ∧
      sampleParsers.candidateFor (sampleSnapshot true) false
        ⟨textOf "#hashtag", .fact, 1, 1, textOf "document"⟩ = .ok (sampleCandidate true) ∧
      ∃ binding, sampleBinding true = .ok binding ∧
        ¬ Promotable (sampleSnapshot true) (sampleCandidate true) binding := by
  have hbound : ((sampleBinding true).bind fun binding =>
      verifyBindingBytes (sampleCandidate true) (sampleSnapshot true) binding) =
        .error "evidence binding statement mismatch" := by decide +kernel
  have hsome : (sampleBinding true).isOk = true := by decide +kernel
  refine ⟨by decide +kernel, by decide +kernel, ?_⟩
  cases hbinding : sampleBinding true with
  | error e =>
    rw [hbinding] at hsome
    cases hsome
  | ok binding =>
    refine ⟨binding, rfl, ?_⟩
    intro hpromotable
    rw [hbinding] at hbound
    have herror := hbound.symm.trans hpromotable.1
    cases herror

/-- The heading of the sample is promotable. -/
theorem extracted_promotable_iff_heading :
    ∃ binding, sampleBinding false = .ok binding ∧
      Promotable (sampleSnapshot false) (sampleCandidate false) binding := by
  have hsome : (sampleBinding false).isOk = true := by decide +kernel
  have htitle : headingTitle (strip (textOf "# Title")) = textOf "Title" := by decide +kernel
  cases hbinding : sampleBinding false with
  | error e =>
    rw [hbinding] at hsome
    cases hsome
  | ok binding =>
    refine ⟨binding, rfl, ?_⟩
    apply (@extracted_promotable_iff (sampleHost false) ℕ sampleParsers (sampleSnapshot false)
      (textOf "#hashtag\n# Title") sampleSpans ⟨textOf "Title", .fact, 2, 2, textOf "Title"⟩ false
      (sampleCandidate false) (sampleQuarantine false) binding (by decide +kernel)
      (by decide +kernel) (by decide +kernel) (by decide +kernel) hbinding).mpr
    refine ⟨textOf "# Title", by decide +kernel, .inr ⟨rfl, by decide +kernel, ofChar 'T', ?_, ?_⟩⟩
    · rw [htitle]
      exact List.mem_cons_self
    · decide

end ContractCapsule.Build
