import ContractCapsule.Library.Framing
import ContractCapsule.Library.Sorting
import ContractCapsule.Library.Transaction
import ContractCapsule.Library.Unicode
import ContractCapsule.Models.Canonical
import ContractCapsule.Models.Identity

/-!
# The Envelope of the Content-Addressed Store

`storage/cas.py`: an object of the store is a file with a magic text, the length of a header, the
header, and the data. The header is the canonical JSON text of the digest, the media type and the
size. `_read_verified_unlocked` checks all of it before it returns the data.

`readVerified_exact` says that this format is exact: what the reader accepts for a digest is what
the writer makes of data with that digest, byte for byte.
-/

namespace ContractCapsule.Storage

open Library Models

/-- Bytes. -/
abbrev Bytes := List UInt8

variable {F : Type} [FloatText F]

/-! ## Section 1: Writing -/

/-- `BlobRef` -/
structure BlobRef where
  digest : String
  mediaType : String
  size : ℕ
deriving DecidableEq, Repr

/-- `StoredBlob` -/
structure StoredBlob where
  ref : BlobRef
  data : Bytes
deriving DecidableEq, Repr

/-- What the store raises. -/
inductive BlobError where
  | integrity (message : String)
  | value (message : String)
deriving DecidableEq, Repr

/-- `_MAGIC` -/
def magic : Bytes := [0x43, 0x43, 0x53, 0x2D, 0x43, 0x41, 0x53, 0x2D, 0x31, 0x00]

/-- The size of `_HEADER_LENGTH`. -/
def headerLengthSize : ℕ := 4

/-- `_HEADER_LENGTH.pack` -/
def pack (n : ℕ) : Option Bytes :=
  if n < 256 ^ headerLengthSize then some (bigEndian headerLengthSize n) else none

/-- The members of the header of an envelope. -/
def headerMembers (digest mediaType : String) (size : ℕ) : Members (Number F) :=
  [("digest", .string digest), ("media_type", .string mediaType), ("size", integer size)]

/-- The header of an envelope. -/
def header (digest mediaType : String) (size : ℕ) : Value F :=
  .object (headerMembers digest mediaType size)

/-- `canonical_json_bytes` -/
def canonicalBytes (v : Value F) : Option Bytes :=
  (canonicalJsonBytes v).bind fun text => encodeUtf8 (ofChars text)

variable (F) in
/-- `_envelope` -/
def envelope (data : Bytes) (mediaType digest : String) : Option Bytes := do
  let headerBytes ← canonicalBytes (header digest mediaType data.length : Value F)
  let headerLength ← pack headerBytes.length
  return magic ++ headerLength ++ headerBytes ++ data

/-! ## Section 2: Reading -/

/-- The error of an envelope that is none. -/
def malformed : BlobError := .integrity "CAS envelope is malformed"

/-- The keys of a header. -/
def headerKeys : List String := ["digest", "media_type", "size"]

/-- `set(header) == {"digest", "media_type", "size"}` -/
def hasHeaderKeys (members : Members (Number F)) : Bool :=
  members.all (fun m => headerKeys.contains m.1) &&
    headerKeys.all fun key => (members.lookup key).isSome

/-- The members of a header in its bytes. -/
def readHeader (headerBytes : Bytes) : Except BlobError (Members (Number F)) := do
  let text ← orRaise ((utf8 false).decode headerBytes) malformed
  let header : Value F ← orRaise (loads (toChars text)) malformed
  let members ← orRaise (Wire.object header) (.integrity "CAS envelope header is not canonical JCS")
  raiseIf (hasHeaderKeys members = false) (.integrity "CAS envelope header is not canonical JCS")
  let canonical ← orRaise (canonicalBytes header) malformed
  raiseIf (canonical ≠ headerBytes) (.integrity "CAS envelope header is not canonical JCS")
  .ok members

/-- `_validate_media_type` and `_validate_digest` of a value. -/
def validated (valid : String → Bool) (v : Option (Value F)) : Except BlobError String :=
  orRaise ((v.bind Wire.string).filter valid) malformed

variable (F) in
/-- `_read_verified_unlocked`, of a regular file with these bytes. -/
def readVerified (sha256 : Bytes → String) (digest : String) (raw : Bytes) :
    Except BlobError StoredBlob := do
  raiseIf (isDigest digest = false)
    (.value "digest must be sha256 followed by 64 lowercase hexadecimal digits")
  raiseIf (magic.isPrefixOf raw = false ∨ raw.length < magic.length + headerLengthSize) malformed
  let headerLength := ofBigEndian ((raw.drop magic.length).take headerLengthSize)
  let offset := magic.length + headerLengthSize
  raiseIf (headerLength = 0 ∨ raw.length < offset + headerLength)
    (.integrity "CAS envelope header length is invalid")
  let headerBytes := (raw.drop offset).take headerLength
  let data := raw.drop (offset + headerLength)
  let members : Members (Number F) ← readHeader headerBytes
  let mediaType ← validated isMediaType (members.lookup "media_type")
  let storedDigest ← validated isDigest (members.lookup "digest")
  let size := (members.lookup "size").bind Wire.integer
  raiseIf (storedDigest ≠ digest ∨ sha256 data ≠ digest ∨ size ≠ some (data.length : ℤ))
    (.integrity "CAS object failed digest or size verification")
  .ok ⟨⟨digest, mediaType, data.length⟩, data⟩

/-! ## Section 3: Headers -/

variable {digest mediaType : String} {size : ℕ} {members : Members (Number F)}

omit [FloatText F] in
/-- The keys of a header are in order. -/
theorem sortKeys_header :
    (header digest mediaType size : Value F).sortKeys utf16 = header digest mediaType size := by
  have hfirst : utf16 "digest" ≤ utf16 "media_type" := by decide
  have hsecond : utf16 "media_type" ≤ utf16 "size" := by decide
  simp [header, headerMembers, integer, Json.sortMembers, hfirst, hsecond]

/-- A header is read from its canonical text. -/
theorem loads_header :
    loads (canonicalText (header digest mediaType size : Value F)) =
      some (header digest mediaType size : Value F) := by
  have hdistinct : (header digest mediaType size : Value F).distinct = true := by
    simp [header, headerMembers, integer]
  have hreread : (header digest mediaType size : Value F).map reread =
      header digest mediaType size := by
    simp [header, headerMembers, integer, Transport.reread_int]
  rw [loads_canonicalText hdistinct, sortKeys_header, hreread]

/-- What `json.loads` gives repeats no key. -/
theorem nodup_of_loads {text : List Char} (h : loads text = some (.object members : Value F)) :
    (members.map Prod.fst).Nodup := by
  obtain ⟨raw, _, hraw⟩ := Option.bind_eq_some_iff.mp h
  obtain ⟨value, _, hvalue⟩ := Option.map_eq_some_iff.mp hraw
  cases value with
  | object ms =>
    rw [Json.collapse] at hvalue
    rw [← Json.object.inj hvalue]
    exact nodup_index
  | _ => cases hvalue

omit [FloatText F] in
theorem hasHeaderKeys_header :
    hasHeaderKeys (headerMembers digest mediaType size : Members (Number F)) = true := by
  simp [hasHeaderKeys, headerMembers, headerKeys]

omit [FloatText F] in
/-- An object with the keys of a header is a header in some order. -/
theorem perm_headerMembers (hnodup : (members.map Prod.fst).Nodup)
    (hkeys : hasHeaderKeys members = true)
    (hmedia : members.lookup "media_type" = some (.string mediaType))
    (hdigest : members.lookup "digest" = some (.string digest))
    (hsize : members.lookup "size" = some (integer size)) :
    members.Perm (headerMembers digest mediaType size) := by
  simp only [hasHeaderKeys, Bool.and_eq_true, List.all_eq_true] at hkeys
  have hheader : (headerMembers digest mediaType size : Members (Number F)).Nodup := by
    apply List.Nodup.of_map Prod.fst
    simp [headerMembers]
  rw [List.perm_ext_iff_of_nodup (List.Nodup.of_map Prod.fst hnodup) hheader]
  intro m
  constructor
  · intro hm
    have hlookup := Transport.lookup_of_mem hnodup hm
    have hkey := hkeys.1 m hm
    obtain ⟨key, value⟩ := m
    simp only [headerKeys, List.contains_cons, List.contains_nil, Bool.or_false, Bool.or_eq_true,
      beq_iff_eq] at hkey
    -- the value of each of the three keys is known
    rcases hkey with rfl | rfl | rfl
    · rw [hdigest] at hlookup
      simp [headerMembers, Option.some.inj hlookup]
    · rw [hmedia] at hlookup
      simp [headerMembers, Option.some.inj hlookup]
    · rw [hsize] at hlookup
      simp [headerMembers, Option.some.inj hlookup]
  · intro hm
    have hmem : ∀ {key value}, members.lookup key = some value → (key, value) ∈ members := by
      intro key value hlookup
      obtain ⟨front, back, rfl, _⟩ := List.lookup_eq_some_iff.mp hlookup
      exact List.mem_append_right _ List.mem_cons_self
    simp only [headerMembers, List.mem_cons, List.not_mem_nil, or_false] at hm
    rcases hm with rfl | rfl | rfl
    · exact hmem hdigest
    · exact hmem hmedia
    · exact hmem hsize

/-- The canonical text of a value is the text of its sorted form. -/
theorem canonicalBytes_of_sorted {v w : Value F} (h : v.sortKeys utf16 = w.sortKeys utf16) :
    canonicalBytes v = canonicalBytes w := by
  have hexact := congrArg (Json.numbersAll Number.exact) h
  rw [Json.numbersAll_sortKeys, Json.numbersAll_sortKeys] at hexact
  rw [canonicalBytes, canonicalBytes, canonicalJsonBytes, canonicalJsonBytes, hexact, canonicalText,
    canonicalText, h]

/-- A header has one canonical text in every order. -/
theorem canonicalBytes_of_perm (h : members.Perm (headerMembers digest mediaType size)) :
    canonicalBytes (.object members : Value F) =
      canonicalBytes (header digest mediaType size : Value F) := by
  apply canonicalBytes_of_sorted
  -- no two keys of a header have the same code units, so the sort leaves no ties
  have hkeys : ∀ key ∈ headerKeys, ∀ key' ∈ headerKeys, utf16 key = utf16 key' → key = key' := by
    decide
  have hnodup : ((headerMembers digest mediaType size : Members (Number F)).map
      Prod.fst).Nodup := by
    simp [headerMembers]
  have hmem : ∀ m ∈ (headerMembers digest mediaType size : Members (Number F)),
      m.1 ∈ headerKeys := by
    simp [headerMembers, headerKeys]
  have hties : ∀ a ∈ members, ∀ b ∈ members, utf16 a.1 = utf16 b.1 → id a = id b := by
    intro a ha b hb heq
    have ha' := h.mem_iff.mp ha
    have hb' := h.mem_iff.mp hb
    exact List.inj_on_of_nodup_map hnodup ha' hb'
      (hkeys _ (hmem a ha') _ (hmem b hb') heq)
  have hsort := @map_sortBy_perm _ _ _ _ (fun m : String × Value F => utf16 m.1) id _ _ h hties
  rw [List.map_id, List.map_id] at hsort
  rw [header, Json.sortKeys, Json.sortKeys, Json.sortValues_eq, Json.sortValues_eq,
    Json.sortMembers_map, Json.sortMembers_map]
  exact congrArg (fun ms => Json.object (ms.map fun m => (m.1, m.2.sortKeys utf16))) hsort

/-- The header of an envelope is read. -/
theorem readHeader_header {headerBytes : Bytes}
    (h : canonicalBytes (header digest mediaType size : Value F) = some headerBytes) :
    readHeader headerBytes = .ok (headerMembers digest mediaType size : Members (Number F)) := by
  obtain ⟨text, htext, hbytes⟩ := Option.bind_eq_some_iff.mp h
  rw [canonicalJsonBytes, Option.ite_none_right_eq_some] at htext
  have hdecode := decode_encodeUtf8 hbytes
  rw [readHeader, hdecode, (orRaise_eq_ok _ _ _).mpr rfl, Except.ok_bind, toChars_ofChars,
    ← Option.some.inj htext.2, loads_header, (orRaise_eq_ok _ _ _).mpr rfl, Except.ok_bind]
  have hobject : Wire.object (header digest mediaType size : Value F) =
      some (headerMembers digest mediaType size) := rfl
  rw [hobject, (orRaise_eq_ok _ _ _).mpr rfl, Except.ok_bind,
    raiseIf_of_not _ (by simp [hasHeaderKeys_header]), Except.ok_bind, h,
    (orRaise_eq_ok _ _ _).mpr rfl, Except.ok_bind, raiseIf_of_not _ (by simp)]
  rfl

/-- A header that is read is written in its canonical text. -/
theorem readHeader_eq_ok {headerBytes : Bytes} (h : readHeader headerBytes = .ok members) :
    (members.map Prod.fst).Nodup ∧ hasHeaderKeys members = true ∧
      canonicalBytes (.object members : Value F) = some headerBytes := by
  obtain ⟨text, _, h⟩ := (Except.bind_eq_ok _ _ _).mp h
  obtain ⟨value, hvalue, h⟩ := (Except.bind_eq_ok _ _ _).mp h
  obtain ⟨ms, hms, h⟩ := (Except.bind_eq_ok _ _ _).mp h
  obtain ⟨_, hkeys, h⟩ := (Except.bind_eq_ok _ _ _).mp h
  obtain ⟨canonical, hcanonical, h⟩ := (Except.bind_eq_ok _ _ _).mp h
  obtain ⟨_, hsame, h⟩ := (Except.bind_eq_ok _ _ _).mp h
  obtain rfl := Except.ok.inj h
  rw [orRaise_eq_ok] at hvalue hms hcanonical
  have hobject : value = .object ms := by
    cases value with
    | object _ => rw [Option.some.inj hms]
    | _ => cases hms
  rw [hobject] at hvalue hcanonical
  rw [raiseIf_eq_ok] at hkeys hsame
  refine ⟨nodup_of_loads hvalue, by simpa using hkeys, ?_⟩
  rw [hcanonical, not_not.mp hsame]

/-! ## Section 4: Envelopes -/

/-- What the writer makes of data. -/
theorem envelope_eq_some {data raw : Bytes} :
    envelope F data mediaType digest = some raw ↔
      ∃ headerBytes, canonicalBytes (header digest mediaType data.length : Value F) =
          some headerBytes ∧ headerBytes.length < 256 ^ headerLengthSize ∧
        raw = magic ++ bigEndian headerLengthSize headerBytes.length ++ headerBytes ++ data := by
  rw [envelope]
  constructor
  · intro h
    obtain ⟨headerBytes, hheader, h⟩ := Option.bind_eq_some_iff.mp h
    obtain ⟨headerLength, hpack, h⟩ := Option.bind_eq_some_iff.mp h
    rw [pack, Option.ite_none_right_eq_some] at hpack
    obtain ⟨hfits, hlength⟩ := hpack
    exact ⟨headerBytes, hheader, hfits, by rw [Option.some.inj hlength, ← Option.some.inj h]⟩
  · intro h
    obtain ⟨headerBytes, hheader, hfits, rfl⟩ := h
    rw [hheader, Option.bind_eq_bind, Option.bind_some, pack, if_pos hfits]
    rfl

/-- A canonical text is not empty. -/
theorem canonicalBytes_ne_nil {headerBytes : Bytes}
    (h : canonicalBytes (header digest mediaType size : Value F) = some headerBytes) :
    headerBytes ≠ [] := by
  -- an empty header would be the text of nothing, which is no document
  intro hnil
  obtain ⟨text, htext, hbytes⟩ := Option.bind_eq_some_iff.mp h
  rw [canonicalJsonBytes, Option.ite_none_right_eq_some] at htext
  rw [hnil] at hbytes
  have hempty : ofChars text = [] := (Option.some.inj (decode_encodeUtf8 hbytes)).symm
  have hloads := @loads_header F _ digest mediaType size
  rw [Option.some.inj htext.2, List.map_eq_nil_iff.mp hempty] at hloads
  cases hloads

/-- A file that is long enough for the header that it announces, in its four parts. -/
theorem exists_parts {raw : Bytes} (hmagic : magic.isPrefixOf raw = true)
    (hlong : ¬ raw.length < magic.length + headerLengthSize)
    (hheader : ¬ raw.length < magic.length + headerLengthSize +
      ofBigEndian ((raw.drop magic.length).take headerLengthSize)) :
    raw = magic ++
        bigEndian headerLengthSize ((raw.drop (magic.length + headerLengthSize)).take
          (ofBigEndian ((raw.drop magic.length).take headerLengthSize))).length ++
        (raw.drop (magic.length + headerLengthSize)).take
          (ofBigEndian ((raw.drop magic.length).take headerLengthSize)) ++
        raw.drop (magic.length + headerLengthSize +
          ofBigEndian ((raw.drop magic.length).take headerLengthSize)) ∧
      ofBigEndian ((raw.drop magic.length).take headerLengthSize) < 256 ^ headerLengthSize := by
  obtain ⟨rest, rfl⟩ := List.isPrefixOf_iff_prefix.mp hmagic
  rw [List.length_append] at hlong hheader
  have hrest : (magic ++ rest).drop magic.length = rest := List.drop_left
  rw [hrest] at hheader ⊢
  -- behind the magic bytes the file is the length, the header and the data, by three cuts
  have hbehind : (magic ++ rest).drop (magic.length + headerLengthSize) =
      rest.drop headerLengthSize := by
    rw [← List.drop_drop, hrest]
  have hdata : ∀ n, (magic ++ rest).drop (magic.length + headerLengthSize + n) =
      (rest.drop headerLengthSize).drop n := by
    intro n
    rw [← List.drop_drop, hbehind]
  -- both cuts are as long as they should be, because the file is long enough
  have hwidth : (rest.take headerLengthSize).length = headerLengthSize := by
    rw [List.length_take]
    omega
  have hlength : ((rest.drop headerLengthSize).take
      (ofBigEndian (rest.take headerLengthSize))).length =
        ofBigEndian (rest.take headerLengthSize) := by
    rw [List.length_take, List.length_drop]
    omega
  -- the length field is what its number is written as
  have hnumber := bigEndian_ofBigEndian (rest.take headerLengthSize)
  rw [hwidth] at hnumber
  have hfits := ofBigEndian_lt (rest.take headerLengthSize)
  rw [hwidth] at hfits
  refine ⟨?_, hfits⟩
  rw [hbehind, hdata, hlength, hnumber, List.append_assoc, List.append_assoc,
    List.take_append_drop, List.take_append_drop]

/-- The four parts of a file are found. -/
theorem parts_eq {headerBytes data : Bytes} (hfits : headerBytes.length < 256 ^ headerLengthSize) :
    magic.isPrefixOf
        (magic ++ bigEndian headerLengthSize headerBytes.length ++ headerBytes ++ data) = true ∧
      ofBigEndian (((magic ++ bigEndian headerLengthSize headerBytes.length ++ headerBytes ++
        data).drop magic.length).take headerLengthSize) = headerBytes.length ∧
      ((magic ++ bigEndian headerLengthSize headerBytes.length ++ headerBytes ++ data).drop
        (magic.length + headerLengthSize)).take headerBytes.length = headerBytes ∧
      (magic ++ bigEndian headerLengthSize headerBytes.length ++ headerBytes ++ data).drop
        (magic.length + headerLengthSize + headerBytes.length) = data := by
  have hwidth := length_bigEndian headerLengthSize headerBytes.length
  -- behind the magic stand the length, the header and the data
  have hrest : (magic ++ bigEndian headerLengthSize headerBytes.length ++ headerBytes ++
      data).drop magic.length =
        bigEndian headerLengthSize headerBytes.length ++ (headerBytes ++ data) := by
    rw [List.append_assoc, List.append_assoc, List.drop_left]
  have hbehind : (magic ++ bigEndian headerLengthSize headerBytes.length ++ headerBytes ++
      data).drop (magic.length + headerLengthSize) = headerBytes ++ data := by
    rw [← List.drop_drop, hrest, List.drop_left' hwidth]
  refine ⟨?_, ?_, ?_, ?_⟩
  · rw [List.isPrefixOf_iff_prefix, List.append_assoc, List.append_assoc]
    exact List.prefix_append _ _
  · rw [hrest, List.take_left' hwidth, ofBigEndian_bigEndian hfits]
  · rw [hbehind, List.take_left]
  · rw [← List.drop_drop, hbehind, List.drop_left]

omit [FloatText F] in
/-- A checked value is a string that passes its check. -/
theorem validated_eq_ok {valid : String → Bool} {v : Option (Value F)} {s : String} :
    validated valid v = .ok s ↔ v = some (.string s) ∧ valid s = true := by
  rw [validated, orRaise_eq_ok, Option.filter_eq_some_iff, Option.bind_eq_some_iff]
  constructor
  · intro h
    obtain ⟨⟨w, hw, hstring⟩, hvalid⟩ := h
    cases w with
    | string t => exact ⟨by rw [hw, Option.some.inj hstring], hvalid⟩
    | _ => cases hstring
  · intro h
    exact ⟨⟨_, h.1, rfl⟩, h.2⟩

/-- Only an integer is read as an integer. -/
theorem integer_eq_some {v : Value F} {i : ℤ} (h : Wire.integer v = some i) : v = integer i := by
  cases v with
  | number n =>
    cases n with
    | int j =>
      have hij : j = i := Option.some.inj h
      rw [hij]
      rfl
    | float x => cases h
  | _ => cases h

/-! ## Section 5: What can be written -/

/-- The characters that a JSON text writes as they are, in one byte each. -/
def isPlain (c : Char) : Bool :=
  decide (32 ≤ c.toNat) && decide (c.toNat < 128) && c != '"' && c != '\\'

/-- An escape of a plain character is the character. -/
theorem escape_plain {c : Char} (h : isPlain c = true) : Json.escape c = [c] := by
  simp only [isPlain, Bool.and_eq_true, decide_eq_true_eq, bne_iff_ne, ne_eq] at h
  obtain ⟨⟨⟨hlow, _⟩, hquote⟩, hslash⟩ := h
  -- the other characters with a short escape are control characters
  have hcontrol : ∀ d : Char, d.toNat < 32 → c ≠ d := by
    rintro d hd rfl
    omega
  have hshort : Json.shortEscape c = none := by
    simp only [Json.shortEscape, hquote, hslash, hcontrol (Char.ofNat 8) (by decide),
      hcontrol (Char.ofNat 12) (by decide), hcontrol '\n' (by decide), hcontrol '\r' (by decide),
      hcontrol '\t' (by decide), or_self, if_false]
  rw [Json.escape, hshort]
  exact if_neg (by omega)

theorem flatMap_escape_plain {cs : List Char} (h : ∀ c ∈ cs, isPlain c = true) :
    cs.flatMap Json.escape = cs := by
  induction cs with
  | nil => rfl
  | cons c cs ih =>
    rw [List.flatMap_cons, escape_plain (h c List.mem_cons_self),
      ih fun d hd => h d (List.mem_cons_of_mem _ hd), List.singleton_append]

/-- Characters of ASCII take one byte each. -/
theorem length_encodeUtf8_ascii {cs : List Char} {bytes : Bytes} (h : ∀ c ∈ cs, c.toNat < 128)
    (hbytes : encodeUtf8 (ofChars cs) = some bytes) : bytes.length = cs.length := by
  rw [encodeUtf8, if_pos (encodable_ofChars cs), Option.some.injEq] at hbytes
  rw [← hbytes]
  clear hbytes
  induction cs with
  | nil => rfl
  | cons c cs ih =>
    have hone : (encodeChar (ofChar c)).length = 1 := by
      rw [encodeChar, if_pos (by rw [ofChar_val]; exact h c List.mem_cons_self),
        List.length_singleton]
    have hrest := ih fun d hd => h d (List.mem_cons_of_mem _ hd)
    rw [ofChars] at hrest ⊢
    rw [List.map_cons, List.flatMap_cons, List.length_append, hone, hrest, List.length_cons,
      Nat.add_comm]

/-- Letters and digits are plain. -/
theorem isPlain_of_isAlphanum {c : Char} (h : c.isAlphanum = true) : isPlain c = true := by
  unfold Char.isAlphanum Char.isAlpha Char.isUpper Char.isLower Char.isDigit at h
  simp only [Bool.or_eq_true, Bool.and_eq_true, decide_eq_true_eq, UInt32.le_iff_toNat_le,
    ge_iff_le] at h
  have hval : c.toNat = c.val.toNat := rfl
  have hbounds : 'A'.val.toNat = 65 ∧ 'Z'.val.toNat = 90 ∧ 'a'.val.toNat = 97 ∧
      'z'.val.toNat = 122 ∧ '0'.val.toNat = 48 ∧ '9'.val.toNat = 57 := by decide
  -- neither the quotation mark nor the backslash is in one of the three ranges
  have hquote : c ≠ '"' := by
    rintro rfl
    revert h
    decide
  have hslash : c ≠ '\\' := by
    rintro rfl
    revert h
    decide
  simp only [isPlain, Bool.and_eq_true, decide_eq_true_eq, bne_iff_ne, ne_eq]
  exact ⟨⟨⟨by omega, by omega⟩, hquote⟩, hslash⟩

/-- Media types have plain characters only. -/
theorem isPlain_mediaType (h : isMediaType mediaType = true) :
    ∀ c ∈ mediaType.toList, isPlain c = true := by
  intro c hc
  have halphabet := Pattern.accepts_alphabet h hc
  have hmedia : isMediaChar c = true ∨ c = '/' ∨ c = ';' ∨ c = '=' := by
    simp only [mediaTypePattern, Pattern.all, Pattern.plus, Pattern.lit, Pattern.alphabet,
      Bool.or_eq_true, beq_iff_eq] at halphabet
    tauto
  simp only [isMediaChar, Bool.or_eq_true, beq_iff_eq, or_assoc] at hmedia
  rcases hmedia with h | rfl | rfl | rfl | rfl | rfl | rfl | rfl | rfl | rfl | rfl | rfl | rfl | rfl
  · exact isPlain_of_isAlphanum h
  all_goals decide

/-- And so have digests. -/
theorem isPlain_digest (h : isDigest digest = true) : ∀ c ∈ digest.toList, isPlain c = true := by
  intro c hc
  have halphabet := Pattern.accepts_alphabet h hc
  have hhex : isHex c = true ∨ c ∈ ['s', 'h', 'a', '2', '5', '6', ':'] := by
    simp only [digestPattern, Pattern.word, Pattern.lit, Pattern.times, Pattern.alphabet,
      Bool.or_eq_true, beq_iff_eq] at halphabet
    simp only [List.mem_cons, List.not_mem_nil, or_false]
    tauto
  rcases hhex with hhex | hword
  · apply isPlain_of_isAlphanum
    unfold isHex Char.isDigit at hhex
    unfold Char.isAlphanum Char.isAlpha Char.isUpper Char.isLower Char.isDigit
    simp only [Bool.or_eq_true, Bool.and_eq_true, decide_eq_true_eq, UInt32.le_iff_toNat_le,
      ge_iff_le] at hhex ⊢
    have hval : c.toNat = c.val.toNat := rfl
    have hbounds : 'a'.val.toNat = 97 ∧ 'z'.val.toNat = 122 := by decide
    omega
  · simp only [List.mem_cons, List.not_mem_nil, or_false] at hword
    rcases hword with rfl | rfl | rfl | rfl | rfl | rfl | rfl
    all_goals decide

/-- The text of a header of plain characters. -/
theorem canonicalText_header (hdigest : ∀ c ∈ digest.toList, isPlain c = true)
    (hmedia : ∀ c ∈ mediaType.toList, isPlain c = true) :
    canonicalText (header digest mediaType size : Value F) =
      ['{', '"', 'd', 'i', 'g', 'e', 's', 't', '"', ':', '"'] ++ digest.toList ++
        ['"', ',', '"', 'm', 'e', 'd', 'i', 'a', '_', 't', 'y', 'p', 'e', '"', ':', '"'] ++
        mediaType.toList ++ ['"', ',', '"', 's', 'i', 'z', 'e', '"', ':'] ++ Json.decimal size ++
        ['}'] := by
  rw [canonicalText, sortKeys_header]
  simp only [header, headerMembers, integer, Json.map, Json.mapMembers_eq, List.map_cons,
    List.map_nil, Number.jcsLexeme, Json.Style.write, Json.Style.writeTokens, Json.tokens,
    Json.memberTokens, Json.Style.writeToken, compactStyle, List.flatMap_cons, List.flatMap_nil,
    flatMap_escape_plain hdigest, flatMap_escape_plain hmedia, List.append_assoc,
    List.cons_append, List.nil_append]
  rfl

/-- The bytes of a header: its keys and marks, its digest, its media type, and the digits of its
size. -/
def headerSize (digest mediaType : String) (size : ℕ) : ℕ :=
  37 + digest.toList.length + mediaType.toList.length + (Json.decimal size).length

/-- The length of what is written of a header. -/
theorem length_headerBytes (hdigest : isDigest digest = true) (hmedia : isMediaType mediaType = true)
    {headerBytes : Bytes}
    (h : canonicalBytes (header digest mediaType size : Value F) = some headerBytes) :
    headerBytes.length = headerSize digest mediaType size := by
  obtain ⟨text, htext, hbytes⟩ := Option.bind_eq_some_iff.mp h
  rw [canonicalJsonBytes, Option.ite_none_right_eq_some,
    canonicalText_header (isPlain_digest hdigest) (isPlain_mediaType hmedia)] at htext
  obtain rfl := Option.some.inj htext.2
  have hplain : ∀ {c : Char}, isPlain c = true → c.toNat < 128 := by
    intro c hc
    simp only [isPlain, Bool.and_eq_true, decide_eq_true_eq] at hc
    exact hc.1.1.2
  have hdigits : ∀ c ∈ Json.decimal size, c.toNat < 128 := by
    intro c hc
    have hchar := List.all_eq_true.mp (Json.isInteger_decimal size) c hc
    simp only [Bool.or_eq_true, beq_iff_eq] at hchar
    rcases hchar with hdigit | rfl
    · exact hplain (isPlain_of_isAlphanum (by simp [Char.isAlphanum, hdigit]))
    · decide
  have hmark : ∀ {mark : List Char}, (mark.all fun c => decide (c.toNat < 128)) = true →
      ∀ c ∈ mark, c.toNat < 128 := by
    intro mark hmark c hc
    exact of_decide_eq_true (List.all_eq_true.mp hmark c hc)
  -- the header is in ASCII, so its bytes are its characters
  rw [length_encodeUtf8_ascii _ hbytes]
  · simp only [headerSize, List.length_append, List.length_cons, List.length_nil]
    omega
  · intro c hc
    simp only [List.mem_append, or_assoc] at hc
    rcases hc with hc | hc | hc | hc | hc | hc | hc
    · exact hmark rfl c hc
    · exact hplain (isPlain_digest hdigest c hc)
    · exact hmark rfl c hc
    · exact hplain (isPlain_mediaType hmedia c hc)
    · exact hmark rfl c hc
    · exact hdigits c hc
    · exact hmark rfl c hc

/-- A header has canonical bytes exactly when its size is an exact integer. -/
theorem canonicalBytes_header :
    (∃ headerBytes, canonicalBytes (header digest mediaType size : Value F) = some headerBytes) ↔
      size ≤ 2 ^ 53 - 1 := by
  have hexact : (header digest mediaType size : Value F).numbersAll Number.exact =
      decide (size ≤ 2 ^ 53 - 1) := by
    simp [header, headerMembers, integer, Number.exact]
  simp only [canonicalBytes, canonicalJsonBytes, hexact, decide_eq_true_eq, encodeUtf8,
    encodable_ofChars, if_true]
  constructor
  · rintro ⟨headerBytes, h⟩
    obtain ⟨text, htext, _⟩ := Option.bind_eq_some_iff.mp h
    exact (Option.ite_none_right_eq_some.mp htext).1
  · intro hsize
    rw [if_pos hsize]
    exact ⟨_, rfl⟩

/-- The writer writes an envelope exactly when the size of the data is an exact integer and the
length of the header fits its four bytes. -/
theorem exists_envelope_iff (hdigest : isDigest digest = true) (hmedia : isMediaType mediaType = true)
    {data : Bytes} :
    (∃ raw, envelope F data mediaType digest = some raw) ↔
      data.length ≤ 2 ^ 53 - 1 ∧ headerSize digest mediaType data.length < 2 ^ 32 := by
  have hfits : 256 ^ headerLengthSize = 2 ^ 32 := rfl
  have hsize : (∃ headerBytes, canonicalBytes (header digest mediaType data.length : Value F) =
      some headerBytes) ↔ data.length ≤ 2 ^ 53 - 1 := canonicalBytes_header
  rw [← hsize]
  constructor
  · rintro ⟨raw, hraw⟩
    obtain ⟨headerBytes, hheader, hlength, _⟩ := envelope_eq_some.mp hraw
    rw [length_headerBytes hdigest hmedia hheader, hfits] at hlength
    exact ⟨⟨headerBytes, hheader⟩, hlength⟩
  · rintro ⟨⟨headerBytes, hheader⟩, hlength⟩
    rw [← length_headerBytes hdigest hmedia hheader, ← hfits] at hlength
    exact ⟨_, envelope_eq_some.mpr ⟨headerBytes, hheader, hlength, rfl⟩⟩

/-! ## Section 6: The Format -/

/-- The reader gives back what an envelope was made of. -/
theorem readVerified_envelope {sha256 : Bytes → String}
    (hsha256 : ∀ data, isDigest (sha256 data) = true) {data raw : Bytes}
    (hmedia : isMediaType mediaType = true)
    (h : envelope F data mediaType (sha256 data) = some raw) :
    readVerified F sha256 (sha256 data) raw =
      .ok ⟨⟨sha256 data, mediaType, data.length⟩, data⟩ := by
  obtain ⟨headerBytes, hheader, hfits, rfl⟩ := envelope_eq_some.mp h
  have hnonempty := List.length_pos_iff.mpr (canonicalBytes_ne_nil hheader)
  obtain ⟨hmagic, hnumber, htake, hdrop⟩ := @parts_eq headerBytes data hfits
  have hlong : (magic ++ bigEndian headerLengthSize headerBytes.length ++ headerBytes ++
      data).length = magic.length + headerLengthSize + headerBytes.length + data.length := by
    rw [List.length_append, List.length_append, List.length_append, length_bigEndian]
  -- no guard in front of the header raises
  simp only [readVerified]
  rw [raiseIf_of_not _ (by rw [hsha256]; simp), Except.ok_bind,
    raiseIf_of_not _ (by rw [hmagic, hlong]; simp; omega), Except.ok_bind, hnumber,
    raiseIf_of_not _ (by rw [hlong]; omega), Except.ok_bind, htake, hdrop,
    readHeader_header hheader, Except.ok_bind]
  -- and the members of the header are what they were
  have hmediaValue : validated isMediaType ((headerMembers (sha256 data) mediaType data.length :
      Members (Number F)).lookup "media_type") = .ok mediaType :=
    validated_eq_ok.mpr ⟨rfl, hmedia⟩
  have hdigestValue : validated isDigest ((headerMembers (sha256 data) mediaType data.length :
      Members (Number F)).lookup "digest") = .ok (sha256 data) :=
    validated_eq_ok.mpr ⟨rfl, hsha256 data⟩
  have hsizeValue : ((headerMembers (sha256 data) mediaType data.length :
      Members (Number F)).lookup "size").bind Wire.integer = some (data.length : ℤ) := rfl
  rw [hmediaValue, Except.ok_bind, hdigestValue, Except.ok_bind, hsizeValue,
    raiseIf_of_not _ (by simp), Except.ok_bind]

/-- What the reader accepts is an envelope. -/
theorem envelope_of_readVerified {sha256 : Bytes → String} {raw : Bytes} {blob : StoredBlob}
    (h : readVerified F sha256 digest raw = .ok blob) :
    isMediaType blob.ref.mediaType = true ∧ sha256 blob.data = digest ∧
      envelope F blob.data blob.ref.mediaType digest = some raw := by
  obtain ⟨_, _, h⟩ := (Except.bind_eq_ok _ _ _).mp h
  obtain ⟨_, hframe, h⟩ := (Except.bind_eq_ok _ _ _).mp h
  obtain ⟨_, hlength, h⟩ := (Except.bind_eq_ok _ _ _).mp h
  obtain ⟨members, hmembers, h⟩ := (Except.bind_eq_ok _ _ _).mp h
  obtain ⟨mediaType, hmedia, h⟩ := (Except.bind_eq_ok _ _ _).mp h
  obtain ⟨storedDigest, hdigest, h⟩ := (Except.bind_eq_ok _ _ _).mp h
  obtain ⟨_, hverified, h⟩ := (Except.bind_eq_ok _ _ _).mp h
  obtain rfl := Except.ok.inj h
  rw [raiseIf_eq_ok, not_or] at hframe hlength
  rw [raiseIf_eq_ok, not_or, not_or, not_not, not_not, not_not] at hverified
  obtain ⟨rfl, hsha, hsize⟩ := hverified
  obtain ⟨hmediaValue, hvalid⟩ := validated_eq_ok.mp hmedia
  obtain ⟨hdigestValue, _⟩ := validated_eq_ok.mp hdigest
  obtain ⟨v, hsizeValue, hinteger⟩ := Option.bind_eq_some_iff.mp hsize
  rw [integer_eq_some hinteger] at hsizeValue
  -- the header is the canonical text of these three members
  obtain ⟨hnodup, hkeys, hcanonical⟩ := readHeader_eq_ok hmembers
  have hperm := perm_headerMembers hnodup hkeys hmediaValue hdigestValue hsizeValue
  rw [canonicalBytes_of_perm hperm] at hcanonical
  -- and the file is the four parts that it was cut into
  obtain ⟨hparts, hfits⟩ := exists_parts (by simpa using hframe.1) hframe.2 hlength.2
  refine ⟨hvalid, hsha, envelope_eq_some.mpr ⟨_, hcanonical, ?_, hparts⟩⟩
  exact lt_of_le_of_lt (List.length_take_le _ _) hfits

/-- The format is exact. The writer makes an envelope of data and a media type whenever the size of
the data is an exact integer and the header fits its length, and the reader gives back the media
type and the data of every envelope. It accepts for a digest the envelopes of the data with that
digest, and no other bytes. -/
theorem readVerified_exact {sha256 : Bytes → String}
    (hsha256 : ∀ data, isDigest (sha256 data) = true) :
    (∀ data mediaType, isMediaType mediaType = true →
      ((∃ raw, envelope F data mediaType (sha256 data) = some raw) ↔
        data.length ≤ 2 ^ 53 - 1 ∧ headerSize (sha256 data) mediaType data.length < 2 ^ 32) ∧
      ∀ raw, envelope F data mediaType (sha256 data) = some raw →
        readVerified F sha256 (sha256 data) raw =
          .ok ⟨⟨sha256 data, mediaType, data.length⟩, data⟩) ∧
    ∀ raw digest, (∃ blob, readVerified F sha256 digest raw = .ok blob) ↔
      ∃ data mediaType, isMediaType mediaType = true ∧ sha256 data = digest ∧
        envelope F data mediaType digest = some raw := by
  refine ⟨fun data mediaType hmedia => ⟨exists_envelope_iff (hsha256 data) hmedia,
    fun raw h => readVerified_envelope hsha256 hmedia h⟩, ?_⟩
  intro raw digest
  constructor
  · intro h
    obtain ⟨blob, hblob⟩ := h
    exact ⟨blob.data, blob.ref.mediaType, envelope_of_readVerified hblob⟩
  · intro h
    obtain ⟨data, mediaType, hmedia, rfl, henvelope⟩ := h
    exact ⟨_, readVerified_envelope hsha256 hmedia henvelope⟩

/-- A text, as bytes. -/
def helloBytes : Bytes := [0x68, 0x65, 0x6C, 0x6C, 0x6F]

/-- The digest of that text. -/
def helloDigest : String :=
  "sha256:2cf24dba5fb0a30e26e83b2ac5b9e29e1b161e5c1fa7425e73043362938b9824"

/-- The envelope of the text is written, it is read, and for its digest it is accepted. -/
theorem readVerified_exact_hello :
    ∃ raw, envelope IntegralFloat helloBytes "text/plain;charset=utf-8" helloDigest = some raw ∧
      readVerified IntegralFloat (fun _ => helloDigest) helloDigest raw =
        .ok ⟨⟨helloDigest, "text/plain;charset=utf-8", 5⟩, helloBytes⟩ ∧
      ∃ blob, readVerified IntegralFloat (fun _ => helloDigest) helloDigest raw = .ok blob := by
  have hdigest : isDigest helloDigest = true := by decide +kernel
  have hmedia : isMediaType "text/plain;charset=utf-8" = true := by decide +kernel
  obtain ⟨hwriter, haccepts⟩ :=
    @readVerified_exact IntegralFloat _ (fun _ => helloDigest) fun _ => hdigest
  obtain ⟨hwritten, hread⟩ := hwriter helloBytes "text/plain;charset=utf-8" hmedia
  obtain ⟨raw, hraw⟩ := hwritten.mpr ⟨by decide, by decide +kernel⟩
  exact ⟨raw, hraw, hread raw hraw, (haccepts raw helloDigest).mpr ⟨_, _, hmedia, rfl, hraw⟩⟩

end ContractCapsule.Storage
