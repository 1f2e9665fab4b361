import Mathlib.Data.Fin.Basic
import Mathlib.Data.List.Basic
import Mathlib.Tactic.Common

/-!
# Texts and their Encodings

A text of Python is a list of code points, among which there may be surrogates. This module has
the decoders of UTF-8, UTF-16 and UTF-32 that Python has, and `detectEncoding`, by which
`json.loads` tells from the first bytes how a document is encoded.

`detect_utf8` says that bytes which are strict UTF-8 of a text without a NUL and without a leading
byte order mark are taken for UTF-8, and `decode_encodeUtf8` that what is encoded is decoded again.
-/

namespace Library

/-! ## Section 1: Texts -/

/-- A code point; the surrogates are code points. -/
abbrev CodePoint := Fin 0x110000

/-- A Python `str`. -/
abbrev Text := List CodePoint

/-- Texts are compared by their code points. -/
instance lawfulBEqText : LawfulBEq Text := inferInstance

/-- The code point of a number below `0x110000`. -/
def codePoint (n : ℕ) : CodePoint := Fin.ofNat 0x110000 n

/-- The code point of a character. -/
def ofChar (c : Char) : CodePoint := codePoint c.toNat

/-- The text of a string. -/
def textOf (s : String) : Text := s.toList.map ofChar

/-- The surrogates, which UTF-8 does not encode. -/
def isSurrogate (c : CodePoint) : Bool := 0xD800 ≤ c.val && c.val ≤ 0xDFFF

/-- `str.encode("utf-8")` succeeds. -/
def encodable (text : Text) : Bool := text.all fun c => !isSurrogate c

theorem codePoint_val {n : ℕ} (h : n < 0x110000) : (codePoint n).val = n :=
  Nat.mod_eq_of_lt h

theorem ofChar_val (c : Char) : (ofChar c).val = c.toNat := by
  apply codePoint_val
  have hvalid := c.valid
  rcases hvalid with hlow | hhigh
  · have : c.toNat < 0xD800 := hlow
    omega
  · exact hhigh.2

theorem isSurrogate_ofChar (c : Char) : isSurrogate (ofChar c) = false := by
  have hvalid := c.valid
  rw [isSurrogate, ofChar_val]
  rcases hvalid with hlow | hhigh
  · have : c.toNat < 0xD800 := hlow
    simp; omega
  · have : 0xDFFF < c.toNat := hhigh.1
    simp; omega

theorem ofChar_injective : Function.Injective ofChar := by
  intro c d h
  have hval := congrArg Fin.val h
  rw [ofChar_val, ofChar_val] at hval
  exact Char.toNat_inj.mp hval

theorem encodable_textOf (s : String) : encodable (textOf s) = true := by
  simp [encodable, textOf, isSurrogate_ofChar]

theorem textOf_injective : Function.Injective textOf := by
  intro s t h
  exact String.toList_injective (List.map_injective_iff.mpr ofChar_injective h)

/-- The text of characters. -/
def ofChars (cs : List Char) : Text := cs.map ofChar

/-- The characters of a text without surrogates. -/
def toChars (text : Text) : List Char := text.map fun c => Char.ofNat c.val

theorem toChars_ofChars (cs : List Char) : toChars (ofChars cs) = cs := by
  rw [toChars, ofChars, List.map_map]
  conv_rhs => rw [← List.map_id cs]
  apply List.map_congr_left
  intro c _
  rw [Function.comp_apply, ofChar_val, Char.ofNat_toNat]
  rfl

theorem encodable_ofChars (cs : List Char) : encodable (ofChars cs) = true := by
  simp [encodable, ofChars, isSurrogate_ofChar]

/-! ## Section 2: Codecs -/

/-- A codec reads one code point after another, each from the bytes in front. -/
structure Codec where
  next : List UInt8 → Option (CodePoint × List UInt8)
  shorter : ∀ {bytes c rest}, next bytes = some (c, rest) → rest.length < bytes.length

namespace Codec

variable (C : Codec)

/-- Decode with at most so many code points. -/
def decodeWithin : ℕ → List UInt8 → Option Text
  | _, [] => some []
  | 0, _ :: _ => none
  | fuel + 1, b :: bytes => do
    let (c, rest) ← C.next (b :: bytes)
    let text ← decodeWithin fuel rest
    pure (c :: text)

/-- `bytes.decode`; no value for bytes that the codec rejects. -/
def decode (bytes : List UInt8) : Option Text := C.decodeWithin bytes.length bytes

/-- More code points than there are bytes are never needed. -/
theorem decodeWithin_of_le {bytes : List UInt8} {fuel : ℕ} (h : bytes.length ≤ fuel) :
    C.decodeWithin fuel bytes = C.decode bytes := by
  induction hn : bytes.length using Nat.strong_induction_on generalizing bytes fuel with
  | _ n ih =>
    cases bytes with
    | nil => simp [decode, decodeWithin]
    | cons b rest =>
      obtain ⟨fuel, rfl⟩ : ∃ k, fuel = k + 1 := ⟨fuel - 1, by simp at h; omega⟩
      have hlength : n = rest.length + 1 := hn.symm
      rw [decode, List.length_cons, decodeWithin, decodeWithin]
      cases hnext : C.next (b :: rest) with
      | none => rfl
      | some pair =>
        obtain ⟨c, tail⟩ := pair
        have hshorter := C.shorter hnext
        simp only [List.length_cons] at hshorter h
        simp only [Option.bind_eq_bind, Option.bind_some]
        rw [ih tail.length (by omega) (by omega) rfl, ih tail.length (by omega) (by omega) rfl]

@[simp] theorem decode_nil : C.decode [] = some [] := rfl

/-- Decoding reads the first code point and decodes the rest. -/
theorem decode_cons (b : UInt8) (bytes : List UInt8) :
    C.decode (b :: bytes) =
      (C.next (b :: bytes)).bind fun pair => (C.decode pair.2).map (pair.1 :: ·) := by
  rw [decode, List.length_cons, decodeWithin]
  cases hnext : C.next (b :: bytes) with
  | none => rfl
  | some pair =>
    obtain ⟨c, rest⟩ := pair
    have hshorter := C.shorter hnext
    simp only [List.length_cons] at hshorter
    simp only [Option.bind_eq_bind, Option.bind_some, C.decodeWithin_of_le
      (show rest.length ≤ bytes.length by omega)]
    cases C.decode rest <;> rfl

/-- A codec that reads whatever another reads decodes whatever the other decodes. -/
theorem decode_mono {C D : Codec}
    (hnext : ∀ bytes c rest, C.next bytes = some (c, rest) → D.next bytes = some (c, rest))
    {bytes : List UInt8} {text : Text} (h : C.decode bytes = some text) :
    D.decode bytes = some text := by
  induction text generalizing bytes with
  | nil =>
    cases bytes with
    | nil => rfl
    -- a byte that is read gives a character, so the text was not empty
    | cons b bytes =>
      rw [decode_cons] at h
      obtain ⟨pair, _, hmap⟩ := Option.bind_eq_some_iff.mp h
      obtain ⟨tail, _, hcons⟩ := Option.map_eq_some_iff.mp hmap
      cases hcons
  | cons c text ih =>
    cases bytes with
    | nil => simp at h
    | cons b bytes =>
      rw [decode_cons] at h ⊢
      obtain ⟨⟨d, rest⟩, hread, hmap⟩ := Option.bind_eq_some_iff.mp h
      obtain ⟨tail, htail, hcons⟩ := Option.map_eq_some_iff.mp hmap
      obtain ⟨rfl, rfl⟩ := List.cons.inj hcons
      rw [hnext _ _ _ hread, Option.bind_some, ih htail]
      rfl

end Codec

/-! ## Section 3: UTF-8 -/

/-- The six bits of a continuation byte. -/
def continuation : List UInt8 → Option (ℕ × List UInt8)
  | [] => none
  | b :: rest => if 0x80 ≤ b.toNat ∧ b.toNat ≤ 0xBF then some (b.toNat - 0x80, rest) else none

/-- The next code point of UTF-8. Surrogates are read under `surrogatepass` alone. -/
def nextUtf8 (surrogatepass : Bool) : List UInt8 → Option (CodePoint × List UInt8)
  | [] => none
  | a :: rest =>
    let lead := a.toNat
    if lead < 0x80 then some (codePoint lead, rest)
    else if 0xC2 ≤ lead ∧ lead ≤ 0xDF then do
      let (x, rest) ← continuation rest
      pure (codePoint ((lead - 0xC0) * 64 + x), rest)
    else if 0xE0 ≤ lead ∧ lead ≤ 0xEF then do
      let (x, rest) ← continuation rest
      let (y, rest) ← continuation rest
      let n := ((lead - 0xE0) * 64 + x) * 64 + y
      -- longer than needed, or a surrogate
      if n < 0x800 ∨ (isSurrogate (codePoint n) ∧ ¬ surrogatepass) then none
      else pure (codePoint n, rest)
    else if 0xF0 ≤ lead ∧ lead ≤ 0xF4 then do
      let (x, rest) ← continuation rest
      let (y, rest) ← continuation rest
      let (z, rest) ← continuation rest
      let n := (((lead - 0xF0) * 64 + x) * 64 + y) * 64 + z
      if n < 0x10000 ∨ 0x110000 ≤ n then none else pure (codePoint n, rest)
    else none

theorem continuation_eq_some {bytes rest : List UInt8} {x : ℕ}
    (h : continuation bytes = some (x, rest)) : ∃ b, bytes = b :: rest ∧ 0x80 ≤ b.toNat := by
  cases bytes with
  | nil => cases h
  | cons b tail =>
    rw [continuation] at h
    split at h
    · next hrange =>
      have htail : tail = rest := congrArg Prod.snd (Option.some.inj h)
      exact ⟨b, by rw [htail], hrange.1⟩
    · cases h

theorem continuation_shorter {bytes rest : List UInt8} {x : ℕ}
    (h : continuation bytes = some (x, rest)) : rest.length < bytes.length := by
  obtain ⟨b, rfl, _⟩ := continuation_eq_some h
  simp

theorem nextUtf8_shorter (surrogatepass : Bool) {bytes : List UInt8} {c : CodePoint}
    {rest : List UInt8} (h : nextUtf8 surrogatepass bytes = some (c, rest)) :
    rest.length < bytes.length := by
  cases bytes with
  | nil => cases h
  | cons a tail =>
    simp only [nextUtf8] at h
    rw [List.length_cons, Nat.lt_succ_iff]
    -- the lead byte alone, or one, two or three continuation bytes behind it
    split_ifs at h
    · have htail := congrArg Prod.snd (Option.some.inj h)
      exact (congrArg List.length htail).ge
    · obtain ⟨⟨x, r⟩, hx, h⟩ := Option.bind_eq_some_iff.mp h
      have htail : r = rest := congrArg Prod.snd (Option.some.inj h)
      have hfirst := continuation_shorter hx
      rw [← htail]
      omega
    · obtain ⟨⟨x, r⟩, hx, h⟩ := Option.bind_eq_some_iff.mp h
      obtain ⟨⟨y, r'⟩, hy, h⟩ := Option.bind_eq_some_iff.mp h
      simp only at h hy
      split_ifs at h
      have htail : r' = rest := congrArg Prod.snd (Option.some.inj h)
      have hfirst := continuation_shorter hx
      have hsecond := continuation_shorter hy
      rw [← htail]
      omega
    · obtain ⟨⟨x, r⟩, hx, h⟩ := Option.bind_eq_some_iff.mp h
      obtain ⟨⟨y, r'⟩, hy, h⟩ := Option.bind_eq_some_iff.mp h
      obtain ⟨⟨z, r''⟩, hz, h⟩ := Option.bind_eq_some_iff.mp h
      simp only at h hy hz
      split_ifs at h
      have htail : r'' = rest := congrArg Prod.snd (Option.some.inj h)
      have hfirst := continuation_shorter hx
      have hsecond := continuation_shorter hy
      have hthird := continuation_shorter hz
      rw [← htail]
      omega

/-- UTF-8, strict or under `surrogatepass`. -/
def utf8 (surrogatepass : Bool) : Codec := ⟨nextUtf8 surrogatepass, nextUtf8_shorter surrogatepass⟩

/-- What strict UTF-8 reads, UTF-8 under `surrogatepass` reads alike. -/
theorem utf8_surrogatepass {bytes : List UInt8} {text : Text}
    (h : (utf8 false).decode bytes = some text) : (utf8 true).decode bytes = some text := by
  apply Codec.decode_mono _ h
  intro bytes c rest hnext
  cases bytes with
  | nil => cases hnext
  | cons a tail =>
    simp only [utf8, nextUtf8] at hnext ⊢
    split_ifs at hnext ⊢ with hascii htwo hthree hfour
    · exact hnext
    · exact hnext
    -- three bytes are refused in fewer cases: a surrogate passes
    · obtain ⟨⟨x, r⟩, hx, hnext⟩ := Option.bind_eq_some_iff.mp hnext
      obtain ⟨⟨y, r'⟩, hy, hnext⟩ := Option.bind_eq_some_iff.mp hnext
      simp only at hnext
      split_ifs at hnext with hrejected
      simp only [hx, hy, Option.bind_eq_bind, Option.bind_some]
      rw [if_neg]
      · exact hnext
      · rintro (hlong | ⟨_, hpass⟩)
        · exact hrejected (.inl hlong)
        · exact hpass trivial
    · exact hnext

/-- What UTF-8 under `surrogatepass` reads without surrogates, strict UTF-8 reads alike. -/
theorem utf8_strict {bytes : List UInt8} {text : Text} (htext : encodable text = true)
    (h : (utf8 true).decode bytes = some text) : (utf8 false).decode bytes = some text := by
  induction text generalizing bytes with
  | nil =>
    cases bytes with
    | nil => rfl
    | cons b bytes =>
      rw [Codec.decode_cons] at h
      obtain ⟨pair, _, hmap⟩ := Option.bind_eq_some_iff.mp h
      obtain ⟨tail, _, hcons⟩ := Option.map_eq_some_iff.mp hmap
      cases hcons
  | cons c text ih =>
    cases bytes with
    | nil => simp at h
    | cons b bytes =>
      rw [Codec.decode_cons] at h ⊢
      obtain ⟨⟨d, rest⟩, hread, hmap⟩ := Option.bind_eq_some_iff.mp h
      obtain ⟨tail, htail, hcons⟩ := Option.map_eq_some_iff.mp hmap
      obtain ⟨rfl, rfl⟩ := List.cons.inj hcons
      simp only [encodable, List.all_cons, Bool.and_eq_true, Bool.not_eq_true'] at htext
      have hnext : (utf8 false).next (b :: bytes) = some (d, rest) := by
        simp only [utf8, nextUtf8] at hread ⊢
        split_ifs at hread ⊢
        · exact hread
        · exact hread
        -- only three bytes can be a surrogate, and the text has none
        · obtain ⟨⟨x, r⟩, hx, hread⟩ := Option.bind_eq_some_iff.mp hread
          obtain ⟨⟨y, r'⟩, hy, hread⟩ := Option.bind_eq_some_iff.mp hread
          simp only at hread
          split_ifs at hread with hrejected
          simp only [hx, hy, Option.bind_eq_bind, Option.bind_some]
          rw [if_neg]
          · exact hread
          · rintro (hlong | ⟨hsurrogate, _⟩)
            · exact hrejected (.inl hlong)
            · cases hread
              rw [htext.1] at hsurrogate
              cases hsurrogate
        · exact hread
      rw [hnext, Option.bind_some, ih htext.2 htail]
      rfl

/-! ## Section 4: UTF-16 and UTF-32 -/

/-- The next two bytes as a number. -/
def next16 (bigEndian : Bool) : List UInt8 → Option (ℕ × List UInt8)
  | a :: b :: rest =>
    some (if bigEndian then a.toNat * 256 + b.toNat else b.toNat * 256 + a.toNat, rest)
  | _ => none

/-- The code point of a pair of surrogates. -/
def joinSurrogates (high low : ℕ) : CodePoint :=
  codePoint (0x10000 + (high - 0xD800) * 0x400 + (low - 0xDC00))

/-- A surrogate that begins a pair. -/
def isHighSurrogate (n : ℕ) : Bool := 0xD800 ≤ n && n ≤ 0xDBFF

/-- A surrogate that ends a pair. -/
def isLowSurrogate (n : ℕ) : Bool := 0xDC00 ≤ n && n ≤ 0xDFFF

/-- The next code point of UTF-16 under `surrogatepass`. -/
def nextUtf16 (bigEndian : Bool) (bytes : List UInt8) : Option (CodePoint × List UInt8) := do
  let (n, rest) ← next16 bigEndian bytes
  match next16 bigEndian rest with
  | some (m, rest') =>
    if isHighSurrogate n && isLowSurrogate m then pure (joinSurrogates n m, rest')
    else pure (codePoint n, rest)
  | none => pure (codePoint n, rest)

/-- The next code point of UTF-32 under `surrogatepass`. -/
def nextUtf32 (bigEndian : Bool) (bytes : List UInt8) : Option (CodePoint × List UInt8) := do
  let (n, rest) ← next16 bigEndian bytes
  let (m, rest') ← next16 bigEndian rest
  let value := if bigEndian then n * 65536 + m else m * 65536 + n
  if 0x110000 ≤ value then none else pure (codePoint value, rest')

theorem next16_shorter {bigEndian : Bool} {bytes rest : List UInt8} {n : ℕ}
    (h : next16 bigEndian bytes = some (n, rest)) : rest.length < bytes.length := by
  cases bytes with
  | nil => cases h
  | cons a tail =>
    cases tail with
    | nil => cases h
    | cons b tail =>
      have htail : tail = rest := congrArg Prod.snd (Option.some.inj h)
      rw [← htail]
      simp only [List.length_cons]
      omega

/-- UTF-16 of either byte order. -/
def utf16 (bigEndian : Bool) : Codec where
  next := nextUtf16 bigEndian
  shorter := by
    intro bytes c rest h
    obtain ⟨⟨n, r⟩, hn, h⟩ := Option.bind_eq_some_iff.mp h
    have hfirst := next16_shorter hn
    simp only at h hfirst
    split at h
    · next m r' hm =>
      have hsecond := next16_shorter hm
      split at h
      · have htail : r' = rest := congrArg Prod.snd (Option.some.inj h)
        rw [← htail]
        omega
      · have htail : r = rest := congrArg Prod.snd (Option.some.inj h)
        rw [← htail]
        omega
    · have htail : r = rest := congrArg Prod.snd (Option.some.inj h)
      rw [← htail]
      omega

/-- UTF-32 of either byte order. -/
def utf32 (bigEndian : Bool) : Codec where
  next := nextUtf32 bigEndian
  shorter := by
    intro bytes c rest h
    obtain ⟨⟨n, r⟩, hn, h⟩ := Option.bind_eq_some_iff.mp h
    obtain ⟨⟨m, r'⟩, hm, h⟩ := Option.bind_eq_some_iff.mp h
    have hfirst := next16_shorter hn
    have hsecond := next16_shorter hm
    simp only at h hfirst hsecond
    split_ifs at h
    all_goals
      have htail : r' = rest := congrArg Prod.snd (Option.some.inj h)
      rw [← htail]
      omega

/-! ## Section 5: Detection -/

/-- The encodings that `json.loads` tells apart. -/
inductive Encoding where
  | utf8
  | utf8Sig
  | utf16
  | utf16be
  | utf16le
  | utf32
  | utf32be
  | utf32le
deriving DecidableEq, Repr

/-- The part of `json.detect_encoding` that looks at the zeros among the first bytes. -/
def detectByZeros : List UInt8 → Encoding
  | b₀ :: b₁ :: b₂ :: b₃ :: _ =>
    if b₀ = 0 then (if b₁ = 0 then .utf32be else .utf16be)
    else if b₁ = 0 then (if b₂ = 0 ∧ b₃ = 0 then .utf32le else .utf16le)
    else .utf8
  | [b₀, b₁] =>
    if b₀ = 0 then .utf16be
    else if b₁ = 0 then .utf16le
    else .utf8
  | _ => .utf8

/-- `json.detect_encoding` -/
def detectEncoding (b : List UInt8) : Encoding :=
  if [0x00, 0x00, 0xFE, 0xFF].isPrefixOf b || [0xFF, 0xFE, 0x00, 0x00].isPrefixOf b then .utf32
  else if [0xFE, 0xFF].isPrefixOf b || [0xFF, 0xFE].isPrefixOf b then .utf16
  else if [0xEF, 0xBB, 0xBF].isPrefixOf b then .utf8Sig
  else detectByZeros b

/-- `bytes.decode(encoding, "surrogatepass")`. The encodings that go by a byte order mark drop
it; `detectEncoding` answers them where there is one. -/
def decodeAs (encoding : Encoding) (b : List UInt8) : Option Text :=
  match encoding with
  | .utf8 => (utf8 true).decode b
  | .utf8Sig => (utf8 true).decode (b.drop 3)
  | .utf16 => (utf16 ([0xFE, 0xFF].isPrefixOf b)).decode (b.drop 2)
  | .utf16be => (utf16 true).decode b
  | .utf16le => (utf16 false).decode b
  | .utf32 => (utf32 ([0x00, 0x00, 0xFE, 0xFF].isPrefixOf b)).decode (b.drop 4)
  | .utf32be => (utf32 true).decode b
  | .utf32le => (utf32 false).decode b

/-- The byte order mark. -/
def byteOrderMark : CodePoint := codePoint 0xFEFF

/-- A byte above `0xF4` begins nothing in UTF-8. -/
theorem decode_utf8_lead {a : UInt8} {rest : List UInt8} {text : Text}
    (h : (utf8 false).decode (a :: rest) = some text) : a.toNat ≤ 0xF4 := by
  rw [Codec.decode_cons] at h
  obtain ⟨pair, hnext, _⟩ := Option.bind_eq_some_iff.mp h
  simp only [utf8, nextUtf8] at hnext
  split_ifs at hnext <;> omega

/-- An ASCII byte in front is the first code point. -/
theorem decode_utf8_ascii {a : UInt8} {rest : List UInt8} {text : Text} (ha : a.toNat < 0x80)
    (h : (utf8 false).decode (a :: rest) = some text) :
    ∃ tail, (utf8 false).decode rest = some tail ∧ text = codePoint a.toNat :: tail := by
  rw [Codec.decode_cons] at h
  obtain ⟨pair, hnext, hmap⟩ := Option.bind_eq_some_iff.mp h
  simp only [utf8, nextUtf8, if_pos ha] at hnext
  cases hnext
  obtain ⟨tail, htail, hcons⟩ := Option.map_eq_some_iff.mp hmap
  exact ⟨tail, htail, hcons.symm⟩

/-- A NUL byte in front, or behind one byte, is a NUL of the text. -/
theorem decode_utf8_nul {a b : UInt8} {rest : List UInt8} {text : Text}
    (h : (utf8 false).decode (a :: b :: rest) = some text) (hzero : a = 0 ∨ b = 0) :
    codePoint 0 ∈ text := by
  rcases hzero with rfl | rfl
  · obtain ⟨tail, _, rfl⟩ := decode_utf8_ascii (by decide) h
    exact List.mem_cons_self
  · by_cases ha : a.toNat < 0x80
    · obtain ⟨tail, htail, rfl⟩ := decode_utf8_ascii ha h
      obtain ⟨tail', _, rfl⟩ := decode_utf8_ascii (by decide) htail
      exact List.mem_cons_of_mem _ List.mem_cons_self
    · -- a longer code point goes on with a continuation byte
      have hstuck : continuation ((0 : UInt8) :: rest) = none := by
        rw [continuation, if_neg]
        decide
      rw [Codec.decode_cons] at h
      obtain ⟨pair, hnext, _⟩ := Option.bind_eq_some_iff.mp h
      simp only [utf8, nextUtf8, if_neg ha, hstuck] at hnext
      split_ifs at hnext <;> cases hnext

/-- The bytes of a byte order mark in front are the byte order mark of the text. -/
theorem decode_utf8_mark {rest : List UInt8} {text : Text}
    (h : (utf8 false).decode (0xEF :: 0xBB :: 0xBF :: rest) = some text) :
    text.head? = some byteOrderMark := by
  rw [Codec.decode_cons] at h
  obtain ⟨pair, hnext, hmap⟩ := Option.bind_eq_some_iff.mp h
  have hmark : (utf8 false).next (0xEF :: 0xBB :: 0xBF :: rest) = some (byteOrderMark, rest) := by
    have hsecond : continuation (0xBB :: 0xBF :: rest) = some (0x3B, 0xBF :: rest) := by
      rw [continuation, if_pos (by decide)]
      rfl
    have hthird : continuation (0xBF :: rest) = some (0x3F, rest) := by
      rw [continuation, if_pos (by decide)]
      rfl
    simp only [utf8, nextUtf8]
    rw [if_neg (by decide), if_neg (by decide), if_pos (by decide), hsecond]
    simp only [Option.bind_eq_bind, Option.bind_some, hthird]
    rw [if_neg (by decide)]
    rfl
  rw [hmark] at hnext
  cases hnext
  obtain ⟨tail, _, rfl⟩ := Option.map_eq_some_iff.mp hmap
  rfl

/-- Strict UTF-8 of a text without a NUL and without a leading byte order mark is taken for
UTF-8. -/
theorem detect_utf8 {b : List UInt8} {text : Text} (h : (utf8 false).decode b = some text)
    (hnul : codePoint 0 ∉ text) (hmark : text.head? ≠ some byteOrderMark) :
    detectEncoding b = .utf8 := by
  cases b with
  | nil => rfl
  | cons b₀ rest =>
    cases rest with
    | nil => simp [detectEncoding, detectByZeros]
    | cons b₁ rest =>
      -- neither byte is a NUL, and the first begins a code point
      have hfirst : b₀ ≠ 0 := fun hzero => hnul (decode_utf8_nul h (.inl hzero))
      have hsecond : b₁ ≠ 0 := fun hzero => hnul (decode_utf8_nul h (.inr hzero))
      have hlead := decode_utf8_lead h
      have hff : b₀ ≠ 0xFF := by
        intro heq
        rw [heq] at hlead
        exact absurd hlead (by decide)
      have hfe : b₀ ≠ 0xFE := by
        intro heq
        rw [heq] at hlead
        exact absurd hlead (by decide)
      have hsig : [0xEF, 0xBB, 0xBF].isPrefixOf (b₀ :: b₁ :: rest) = false := by
        by_contra hsigned
        obtain ⟨tail, htail⟩ := List.isPrefixOf_iff_prefix.mp (Bool.not_eq_false _ ▸ hsigned)
        rw [← htail] at h
        exact hmark (decode_utf8_mark h)
      rw [detectEncoding, hsig]
      simp only [List.isPrefixOf, Bool.false_eq_true, if_false, beq_eq_false_iff_ne.mpr hff.symm,
        beq_eq_false_iff_ne.mpr hfe.symm, beq_eq_false_iff_ne.mpr hfirst.symm, Bool.false_and,
        Bool.or_false]
      rcases rest with _ | ⟨b₂, _ | ⟨b₃, rest⟩⟩
      · rw [detectByZeros, if_neg hfirst, if_neg hsecond]
      · rfl
      · rw [detectByZeros, if_neg hfirst, if_neg hsecond]

/-! ## Section 6: Encoding -/

/-- The byte of a number below 256. -/
def byteOf (n : ℕ) : UInt8 := UInt8.ofNat n

theorem byteOf_toNat {n : ℕ} (h : n < 256) : (byteOf n).toNat = n := by
  rw [byteOf, UInt8.toNat_ofNat']
  exact Nat.mod_eq_of_lt h

/-- The bytes of a code point in UTF-8. -/
def encodeChar (c : CodePoint) : List UInt8 :=
  if c.val < 0x80 then [byteOf c.val]
  else if c.val < 0x800 then [byteOf (0xC0 + c.val / 64), byteOf (0x80 + c.val % 64)]
  else if c.val < 0x10000 then
    [byteOf (0xE0 + c.val / 4096), byteOf (0x80 + c.val / 64 % 64), byteOf (0x80 + c.val % 64)]
  else
    [byteOf (0xF0 + c.val / 262144), byteOf (0x80 + c.val / 4096 % 64),
      byteOf (0x80 + c.val / 64 % 64), byteOf (0x80 + c.val % 64)]

/-- `str.encode("utf-8")`, which surrogates make fail. -/
def encodeUtf8 (text : Text) : Option (List UInt8) :=
  if encodable text then some (text.flatMap encodeChar) else none

theorem continuation_byteOf {x : ℕ} (h : x < 64) (rest : List UInt8) :
    continuation (byteOf (0x80 + x) :: rest) = some (x, rest) := by
  have hval : (byteOf (0x80 + x)).toNat = 0x80 + x := byteOf_toNat (by omega)
  have hrange : 0x80 ≤ 0x80 + x ∧ 0x80 + x ≤ 0xBF := by omega
  simp only [continuation, hval, hrange, and_self, if_true, Nat.add_sub_cancel_left]

theorem nextUtf8_encodeChar {c : CodePoint} (hc : isSurrogate c = false) (rest : List UInt8) :
    nextUtf8 false (encodeChar c ++ rest) = some (c, rest) := by
  have hlt := c.isLt
  -- the bits that were split over the bytes are put together again
  have hval : ∀ n, n = c.val → codePoint n = c := by
    intro n hn
    apply Fin.ext
    rw [codePoint_val (by omega), hn]
  have hmod : ∀ n, n % 64 < 64 := fun n => Nat.mod_lt n (by omega)
  unfold encodeChar
  split
  · next hone =>
    rw [List.singleton_append, nextUtf8, byteOf_toNat (by omega), if_pos hone, hval _ rfl]
  · split
    -- each further byte holds six bits, and the shortest form is never refused as too long
    · next hone htwo =>
      rw [List.cons_append, List.cons_append, List.nil_append, nextUtf8, byteOf_toNat (by omega),
        if_neg (by omega), if_pos (by omega), continuation_byteOf (hmod _)]
      rw [Option.bind_eq_bind, Option.bind_some]
      dsimp only
      rw [hval _ (by omega)]
      rfl
    · split
      · next hone htwo hthree =>
        simp only [List.cons_append, List.nil_append]
        rw [nextUtf8, byteOf_toNat (by omega),
          if_neg (by omega), if_neg (by omega), if_pos (by omega), continuation_byteOf (hmod _)]
        rw [Option.bind_eq_bind, Option.bind_some]
        dsimp only
        rw [continuation_byteOf (hmod _), Option.bind_some]
        dsimp only
        rw [hval _ (by omega), if_neg (by simp [hc]; omega)]
        rfl
      · next hone htwo hthree =>
        simp only [List.cons_append, List.nil_append]
        rw [nextUtf8, byteOf_toNat (by omega),
          if_neg (by omega), if_neg (by omega), if_neg (by omega), if_pos (by omega),
          continuation_byteOf (hmod _)]
        rw [Option.bind_eq_bind, Option.bind_some]
        dsimp only
        rw [continuation_byteOf (hmod _), Option.bind_some]
        dsimp only
        rw [continuation_byteOf (hmod _), Option.bind_some]
        dsimp only
        rw [hval _ (by omega), if_neg (by omega)]
        rfl

/-- What is encoded is decoded again. -/
theorem decode_encodeUtf8 {text : Text} {bytes : List UInt8} (h : encodeUtf8 text = some bytes) :
    (utf8 false).decode bytes = some text := by
  rw [encodeUtf8, Option.ite_none_right_eq_some] at h
  obtain ⟨hencodable, hbytes⟩ := h
  obtain rfl := Option.some.inj hbytes
  clear hbytes
  induction text with
  | nil => rfl
  | cons c text ih =>
    have hparts : isSurrogate c = false ∧ encodable text = true := by
      simpa [encodable] using hencodable
    have hnonempty : encodeChar c ≠ [] := by
      unfold encodeChar
      split_ifs <;> simp
    obtain ⟨b, rest, hbytes⟩ := List.exists_cons_of_ne_nil hnonempty
    have hnext := nextUtf8_encodeChar hparts.1 (text.flatMap encodeChar)
    rw [List.flatMap_cons]
    rw [hbytes, List.cons_append] at hnext ⊢
    rw [Codec.decode_cons]
    change ((nextUtf8 false (b :: (rest ++ text.flatMap encodeChar))).bind _) = _
    rw [hnext, Option.bind_some, ih hparts.2]
    rfl

end Library
