import ContractCapsule.Library.Lines
import ContractCapsule.Library.Transaction
import ContractCapsule.Models.Core

/-!
# Records of the Builder

The records that a source passes through before its statements become atoms: the snapshot of the
source, a candidate atom, and the evidence binding of a candidate to a span of the source.

What is computed outside the repository is held by a `Host`: the digests, and the patterns of the
secret scanner. A text that comes from a source is a `Text`; names and digests are strings.
-/

namespace ContractCapsule.Build

open Library Models

/-- A byte string. -/
abbrev Bytes := List UInt8

/-! ## Section 1: The host -/

/-- A value of a payload that is hashed in canonical JSON. -/
inductive PayloadValue where
  | null
  | flag (b : Bool)
  | number (n : ℕ)
  | str (s : String)
  | strs (ss : List String)
  | text (t : Text)
deriving DecidableEq, Repr

/-- A payload: the members of a JSON object. -/
abbrev Payload := List (String × PayloadValue)

/-- An optional string of a payload. -/
def PayloadValue.ofOption (s : Option String) : PayloadValue := s.elim .null .str

/-- A host: SHA-256 of bytes and of the canonical JSON of a payload, and the three patterns of the
secret scanner. -/
structure Host where
  digestBytes : Bytes → String
  digestJson : Payload → String
  hasSecret : Text → Bool

variable (host : Host)

/-- The digest of `canonical_json_bytes`, which refuses surrogates. -/
def Host.digestOf (payload : Payload) : Except String String := do
  raiseIf ((payload.all fun member =>
    match member.2 with
    | .text t => encodable t
    | _ => true) = false) "value is not JCS-compatible"
  pure (host.digestJson payload)

/-- `hexdigest()[:32]` of a digest, behind the name of what it identifies. -/
def identifier (kind digest : String) : String :=
  kind ++ String.ofList ((digest.toList.drop "sha256:".length).take 32)

/-- `bytes.decode("utf-8", errors="strict")` -/
def decodeStrict (data : Bytes) : Option Text := (utf8 false).decode data

/-- `scan_secrets` of a text -/
def Host.scanText (text : Text) : Except String Unit := do
  raiseIf (encodable text = false) "lone Unicode surrogate is forbidden in evidence"
  raiseIf (host.hasSecret text = true) "secret-like content is forbidden in source evidence"

/-- `scan_secrets` of bytes -/
def Host.scanSecrets (data : Bytes) : Except String Unit := do
  let text ← orRaise (decodeStrict data) "evidence is not valid UTF-8"
  host.scanText text

/-! ## Section 2: Sources -/

/-- `str.splitlines` ends lines here. -/
def splitlinesEnd (c : CodePoint) : Bool :=
  (0x0A ≤ c.val && c.val ≤ 0x0D) || (0x1C ≤ c.val && c.val ≤ 0x1E) || c.val == 0x85 ||
    c.val == 0x2028 || c.val == 0x2029

/-- The lines of `str.splitlines`. -/
def splitlines : LineEnds := ⟨splitlinesEnd, by decide, by decide⟩

/-- `str.isspace` of a character -/
def isSpace (c : CodePoint) : Bool :=
  (0x09 ≤ c.val && c.val ≤ 0x0D) || (0x1C ≤ c.val && c.val ≤ 0x20) || c.val == 0x85 ||
    c.val == 0xA0 || c.val == 0x1680 || (0x2000 ≤ c.val && c.val ≤ 0x200A) || c.val == 0x2028 ||
    c.val == 0x2029 || c.val == 0x202F || c.val == 0x205F || c.val == 0x3000

/-- `str.strip()` -/
def strip (text : Text) : Text := stripBy isSpace text

/-- `SourceMode` -/
inductive SourceMode where
  | cas
  | gitImmutable
  | externalImmutable
deriving DecidableEq, Repr

instance : Enumeration SourceMode where
  values := [.cas, .gitImmutable, .externalImmutable]
  wire
    | .cas => "CAS"
    | .gitImmutable => "GIT_IMMUTABLE"
    | .externalImmutable => "EXTERNAL_IMMUTABLE"
  complete := by rintro ⟨⟩ <;> decide
  injective := by rintro ⟨⟩ ⟨⟩ <;> simp

/-- The parser kinds of a source. -/
inductive ParserKind where
  | markdown
  | code
  | json
  | yaml
  | text
deriving DecidableEq, Repr

/-- `SourceSnapshot`; the last fields are what its constructor checks. -/
structure SourceSnapshot where
  snapshotId : String
  content : Bytes
  contentDigest : String
  mode : SourceMode
  mediaType : String
  capturedAt : String
  principalId : String
  relativePath : String
  path : Option String := none
  repositoryRoot : Option String := none
  repository : Option String := none
  revision : Option String := none
  uri : Option String := none
  source : Option String := none
  verificationMethod : Option String := none
  accessPolicy : String := "repository-authorized"
  parserKind : ParserKind := .text
  generated : Bool := false
  digest_eq : host.digestBytes content = contentDigest
  identified : (isNonEmpty snapshotId && isNonEmpty relativePath) = true
  scanned : host.scanSecrets content = .ok ()
deriving DecidableEq

variable {host}

/-- `text` -/
def SourceSnapshot.text (snapshot : SourceSnapshot host) : Except String Text :=
  orRaise (decodeStrict snapshot.content) "source snapshot is not valid UTF-8"

/-- The lines from `start` to `stop`, counted from one, joined and encoded. -/
def encodedSpan (text : Text) (start stop : ℕ) (message : String) : Except String Bytes := do
  let lines := splitlines.lines text
  raiseIf (start < 1 ∨ stop < start ∨ lines.length < stop) message
  orRaise (encodeUtf8 ((lines.take stop).drop (start - 1)).flatten) "surrogates not allowed"

/-- `line_span` -/
def SourceSnapshot.lineSpan (snapshot : SourceSnapshot host) (start stop : ℕ) :
    Except String Bytes := do
  let text ← snapshot.text
  encodedSpan text start stop "source span is outside snapshot"

/-! ## Section 3: Candidates and bindings -/

/-- `TrustLevel` -/
inductive TrustLevel where
  | t0
  | t1
  | t2
  | t3
deriving DecidableEq, Repr

instance : Enumeration TrustLevel where
  values := [.t0, .t1, .t2, .t3]
  wire
    | .t0 => "T0"
    | .t1 => "T1"
    | .t2 => "T2"
    | .t3 => "T3"
  complete := by rintro ⟨⟩ <;> decide
  injective := by rintro ⟨⟩ ⟨⟩ <;> simp

/-- `CandidateAtom`; its status is always `candidate`. -/
structure CandidateAtom where
  candidateId : String
  atomId : String
  kind : AtomKind
  statement : Text
  modality : Modality
  scope : List String
  sourceSnapshotId : String
  startLine : ℕ
  endLine : ℕ
  symbolOrHeading : Text
  compressionClass : String := "P1_STRUCTURED"
  generated : Bool := false
  trustLevel : TrustLevel := .t3
deriving DecidableEq, Repr

/-- `CandidateAtom.__post_init__` -/
def CandidateAtom.postInit (atom : CandidateAtom) : Except String Unit := do
  raiseIf (atom.generated = true ∧ atom.trustLevel ≠ .t3)
    "generated candidates must start at T3/candidate"
  raiseIf (atom.candidateId = "" ∨ atom.atomId = "" ∨ strip atom.statement = [])
    "candidate identity and statement are required"
  raiseIf (atom.scope = [] ∨ atom.startLine < 1 ∨ atom.endLine < atom.startLine)
    "candidate source span is invalid"
  raiseIf (encodable atom.statement = false) "lone Unicode surrogate is forbidden"

/-- `candidate_digest_for` -/
def candidateDigestFor (host : Host) (candidate : CandidateAtom) : Except String String :=
  host.digestOf
    [("candidate_id", .str candidate.candidateId), ("atom_id", .str candidate.atomId),
      ("kind", .str (Enumeration.wire candidate.kind)), ("statement", .text candidate.statement),
      ("modality", .str (Enumeration.wire candidate.modality)), ("scope", .strs candidate.scope),
      ("source_snapshot_id", .str candidate.sourceSnapshotId),
      ("start_line", .number candidate.startLine), ("end_line", .number candidate.endLine),
      ("symbol_or_heading", .text candidate.symbolOrHeading),
      ("compression_class", .str candidate.compressionClass),
      ("generated", .flag candidate.generated),
      ("trust_level", .str (Enumeration.wire candidate.trustLevel)), ("status", .str "candidate")]

/-- `EvidenceBinding` -/
structure EvidenceBinding where
  bindingId : String
  candidateId : String
  snapshotId : String
  mode : SourceMode
  contentDigest : String
  spanDigest : String
  mediaType : String
  capturedAt : String
  accessPolicy : String := "repository-authorized"
  repository : Option String := none
  revision : Option String := none
  path : Option String := none
  symbolOrHeading : Option Text := none
  startLine : Option ℕ := none
  endLine : Option ℕ := none
  uri : Option String := none
  source : Option String := none
  verificationMethod : Option String := none
  sourceBytes : Bytes := []
deriving DecidableEq, Repr

/-- The value of an optional string is true. -/
def given (value : Option String) : Bool := value.any isNonEmpty

/-- The locator of a binding has what its mode requires. -/
def EvidenceBinding.locates (binding : EvidenceBinding) : Except String Unit :=
  match binding.mode with
  | .cas => pure ()
  | .gitImmutable => do
    raiseIf ((given binding.repository && given binding.revision && given binding.path &&
      binding.symbolOrHeading.any (! List.isEmpty ·)) = false)
      "Git evidence requires repository, revision, path, and locator"
    raiseIf ((binding.startLine.bind fun start => binding.endLine.map fun stop =>
      decide (1 ≤ start ∧ start ≤ stop)) ≠ some true) "Git evidence locator lines are invalid"
  | .externalImmutable =>
    raiseIf ((given binding.uri && given binding.source && given binding.verificationMethod) =
      false) "external evidence requires a complete locator"

/-- `EvidenceBinding.__post_init__` -/
def EvidenceBinding.postInit (host : Host) (binding : EvidenceBinding) : Except String Unit := do
  raiseIf (isDigest binding.contentDigest = false)
    "content_digest must be a canonical sha256 digest"
  raiseIf (isDigest binding.spanDigest = false) "span_digest must be a canonical sha256 digest"
  raiseIf (binding.candidateId = "" ∨ binding.snapshotId = "" ∨ binding.bindingId = "")
    "evidence binding identifiers must be non-empty"
  binding.locates
  raiseIf (host.digestBytes binding.sourceBytes ≠ binding.contentDigest)
    "evidence bytes do not match content_digest"

/-- The fields of a binding, under the names they have in a payload. -/
def EvidenceBinding.payload (binding : EvidenceBinding) : Payload :=
  [("binding_id", .str binding.bindingId), ("candidate_id", .str binding.candidateId),
    ("snapshot_id", .str binding.snapshotId), ("mode", .str (Enumeration.wire binding.mode)),
    ("content_digest", .str binding.contentDigest), ("span_digest", .str binding.spanDigest),
    ("media_type", .str binding.mediaType), ("captured_at", .str binding.capturedAt),
    ("access_policy", .str binding.accessPolicy),
    ("repository", .ofOption binding.repository), ("revision", .ofOption binding.revision),
    ("path", .ofOption binding.path),
    ("symbol_or_heading", binding.symbolOrHeading.elim .null .text),
    ("start_line", binding.startLine.elim .null .number),
    ("end_line", binding.endLine.elim .null .number), ("uri", .ofOption binding.uri),
    ("source", .ofOption binding.source),
    ("verification_method", .ofOption binding.verificationMethod)]

/-- `binding_digest_for` -/
def bindingDigestFor (host : Host) (binding : EvidenceBinding) : Except String String :=
  host.digestOf binding.payload

end ContractCapsule.Build
