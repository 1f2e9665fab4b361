import Mathlib.Algebra.Order.Ring.Rat
import Mathlib.Data.Int.Cast.Lemmas
import Mathlib.Data.List.Lex
import Mathlib.Data.Rat.Cast.CharZero
import ContractCapsule.Library.JsonText
import ContractCapsule.Library.Pattern

/-!
# Shared Types of the Canonical Model

The strict types of `models/base.py`: the numbers of JSON values with the ways they are
written, `freeze_json`, the string patterns, and the checks of paths, dates and locators.

Strings are texts without lone surrogates, so `reject_surrogates` holds of every one. A
finite binary64 number is an element of a type `F` of which `FloatText F` says what it is
worth and how Python and RFC 8785 write it.
-/

namespace ContractCapsule.Models

open Library

/-! ## Section 1: Numbers -/

/-- The finite binary64 numbers, and how they are written.

Python's `repr` is a lexeme with a fraction or an exponent that reads back as the number.
RFC 8785 writes an integral number below `10 ^ 21` as an integer, and any other number as a
lexeme with a fraction or an exponent; the text is the shortest that reads back as the number.
Below `2 ^ 53` an integral number therefore has its own digits. From there on the digits behind
the shortest ones are zeros (`2 ^ 60` is `1152921504606847000`), so the integer is another one,
that rounds to the number. -/
class FloatText (F : Type) where
  /-- The number as a rational. -/
  value : F → ℚ
  /-- `float.__repr__`. -/
  repr : F → List Char
  /-- The text of RFC 8785. -/
  jcs : F → List Char
  /-- `float` of a lexeme; no value when the result is infinite. -/
  read : List Char → Option F
  /-- `float` of an integer. -/
  ofInt : ℤ → F
  value_injective : ∀ x y, value x = value y → value x ≠ 0 → x = y
  repr_valid : ∀ x, Json.validNumber (repr x) = true
  repr_fraction : ∀ x, Json.isInteger (repr x) = false
  read_repr : ∀ x, read (repr x) = some x
  jcs_exact : ∀ x (i : ℤ), value x = i → i.natAbs < 2 ^ 53 → jcs x = Json.decimal i
  jcs_integral : ∀ x (i : ℤ), value x = i → 2 ^ 53 ≤ i.natAbs → i.natAbs < 10 ^ 21 →
    ∃ j : ℤ, jcs x = Json.decimal j ∧ 2 ^ 53 ≤ j.natAbs ∧ value (ofInt j) = value x
  jcs_valid : ∀ x, (∀ i : ℤ, value x = i → 10 ^ 21 ≤ i.natAbs) → Json.validNumber (jcs x) = true
  jcs_fraction : ∀ x, (∀ i : ℤ, value x = i → 10 ^ 21 ≤ i.natAbs) → Json.isInteger (jcs x) = false
  read_jcs : ∀ x, (∀ i : ℤ, value x = i → 10 ^ 21 ≤ i.natAbs) → read (jcs x) = some x
  value_ofInt : ∀ i : ℤ, i.natAbs < 2 ^ 53 → value (ofInt i) = i

/-- A number of a JSON value: a Python `int` or a finite `float`. -/
inductive Number (F : Type) where
  | int (i : ℤ)
  | float (x : F)
deriving DecidableEq, Repr

/-- A JSON value as Python holds it. -/
abbrev Value (F : Type) := Json (Number F)

/-- An object, as the list of its members. -/
abbrev Members (ν : Type) := List (String × Json ν)

namespace Number

variable {F : Type} [FloatText F]

/-- What a number is worth. -/
def value : Number F → ℚ
  | .int i => i
  | .float x => FloatText.value x

/-- A number as `json.dumps` writes it. -/
def lexeme : Number F → List Char
  | .int i => Json.decimal i
  | .float x => FloatText.repr x

/-- A number as RFC 8785 writes it. -/
def jcsLexeme : Number F → List Char
  | .int i => Json.decimal i
  | .float x => FloatText.jcs x

/-- A lexeme as `json.loads` reads it. -/
def read (text : List Char) : Option (Number F) :=
  if Json.isInteger text then some (.int (Json.readDecimal text))
  else (FloatText.read text).map .float

/-- `_freeze_number`: an integer has to be exact as a binary64 number. -/
def exact : Number F → Bool
  | .int i => i.natAbs ≤ 2 ^ 53 - 1
  | .float _ => true

/-- Whether RFC 8785 writes a float as an integer beyond the exact range. -/
def inexactIntegral : Number F → Bool
  | .int _ => false
  | .float x =>
    (FloatText.value x).den == 1 && decide (2 ^ 53 ≤ (FloatText.value x).num.natAbs) &&
      decide ((FloatText.value x).num.natAbs < 10 ^ 21)

theorem lexeme_valid (n : Number F) : Json.validNumber n.lexeme = true := by
  cases n with
  | int i => exact Json.validNumber_decimal i
  | float x => exact FloatText.repr_valid x

theorem read_lexeme (n : Number F) : read n.lexeme = some n := by
  cases n with
  | int i => simp [read, lexeme, Json.isInteger_decimal, Json.readDecimal_decimal]
  | float x => simp [read, lexeme, FloatText.repr_fraction, FloatText.read_repr]

/-- A float is an exact integer, or RFC 8785 writes it as an integer beyond the exact ones, or it is
written with a fraction or an exponent. -/
theorem written_or (x : F) :
    (∃ i : ℤ, FloatText.value x = i ∧ i.natAbs < 2 ^ 53) ∨
      (∃ i : ℤ, FloatText.value x = i ∧ 2 ^ 53 ≤ i.natAbs ∧ i.natAbs < 10 ^ 21) ∨
      ∀ i : ℤ, FloatText.value x = i → 10 ^ 21 ≤ i.natAbs := by
  by_cases h : ∃ i : ℤ, FloatText.value x = i ∧ i.natAbs < 10 ^ 21
  · obtain ⟨i, hi, hlt⟩ := h
    rcases Nat.lt_or_ge i.natAbs (2 ^ 53) with hexact | hbig
    · exact .inl ⟨i, hi, hexact⟩
    · exact .inr (.inl ⟨i, hi, hbig, hlt⟩)
  · refine .inr (.inr fun i hi => ?_)
    by_contra hlt
    exact h ⟨i, hi, Nat.lt_of_not_le hlt⟩

/-- The second kind are the inexact integral numbers. -/
theorem inexactIntegral_iff (x : F) :
    (Number.float x).inexactIntegral = true ↔
      ∃ i : ℤ, FloatText.value x = i ∧ 2 ^ 53 ≤ i.natAbs ∧ i.natAbs < 10 ^ 21 := by
  simp only [inexactIntegral, Bool.and_eq_true, beq_iff_eq, decide_eq_true_eq]
  constructor
  · rintro ⟨⟨hden, hbig⟩, hlt⟩
    exact ⟨_, (Rat.coe_int_num_of_den_eq_one hden).symm, hbig, hlt⟩
  · rintro ⟨i, hi, hbig, hlt⟩
    rw [hi, Rat.den_intCast, Rat.num_intCast]
    exact ⟨⟨rfl, hbig⟩, hlt⟩

theorem jcsLexeme_valid (n : Number F) : Json.validNumber n.jcsLexeme = true := by
  cases n with
  | int i => exact Json.validNumber_decimal i
  | float x =>
    rcases written_or x with ⟨i, hi, hexact⟩ | ⟨i, hi, hbig, hlt⟩ | hother
    · rw [jcsLexeme, FloatText.jcs_exact x i hi hexact]
      exact Json.validNumber_decimal i
    · obtain ⟨j, hj, _, _⟩ := FloatText.jcs_integral x i hi hbig hlt
      rw [jcsLexeme, hj]
      exact Json.validNumber_decimal j
    · exact FloatText.jcs_valid x hother

/-- The digits of an integer are read as the integer. -/
theorem read_decimal (i : ℤ) : read (Json.decimal i) = some (.int i : Number F) := by
  rw [read, Json.isInteger_decimal, if_pos rfl, Json.readDecimal_decimal]

/-- What the canonical text of an exact number is read as: an integer of the same worth, an integer
beyond the exact ones that rounds to the number, or the number itself. -/
theorem read_jcsLexeme {n : Number F} (hn : n.exact = true) :
    (∃ i : ℤ, n.value = i ∧ i.natAbs < 2 ^ 53 ∧ read n.jcsLexeme = some (.int i : Number F)) ∨
      (∃ j : ℤ, n.inexactIntegral = true ∧ 2 ^ 53 ≤ j.natAbs ∧
        FloatText.value (FloatText.ofInt j : F) = n.value ∧
        read n.jcsLexeme = some (.int j : Number F)) ∨
      ∃ x, n = .float x ∧ (∀ i : ℤ, FloatText.value x = i → 10 ^ 21 ≤ i.natAbs) ∧
        read n.jcsLexeme = some n := by
  cases n with
  | int i =>
    have hexact : i.natAbs ≤ 2 ^ 53 - 1 := by simpa [exact] using hn
    exact .inl ⟨i, rfl, by omega, read_decimal i⟩
  | float x =>
    rcases written_or x with ⟨i, hi, hexact⟩ | ⟨i, hi, hbig, hlt⟩ | hother
    · refine .inl ⟨i, hi, hexact, ?_⟩
      rw [jcsLexeme, FloatText.jcs_exact x i hi hexact, read_decimal]
    · obtain ⟨j, hj, hjbig, hrounds⟩ := FloatText.jcs_integral x i hi hbig hlt
      refine .inr (.inl ⟨j, (inexactIntegral_iff x).mpr ⟨i, hi, hbig, hlt⟩, hjbig, hrounds, ?_⟩)
      rw [jcsLexeme, hj, read_decimal]
    · refine .inr (.inr ⟨x, rfl, hother, ?_⟩)
      rw [read, jcsLexeme, FloatText.jcs_fraction x hother, if_neg Bool.false_ne_true,
        FloatText.read_jcs x hother]
      rfl

/-- The canonical text of every number is read. -/
theorem exists_read_jcsLexeme (n : Number F) : ∃ m : Number F, read n.jcsLexeme = some m := by
  cases n with
  | int i => exact ⟨_, read_decimal i⟩
  | float x =>
    rcases read_jcsLexeme (n := .float x) rfl with ⟨_, _, _, h⟩ | ⟨_, _, _, _, h⟩ | ⟨_, _, _, h⟩
    all_goals exact ⟨_, h⟩

/-- What a number is worth as a float: an integer stands for the float that it rounds to. -/
def rounded : Number F → ℚ
  | .int i => FloatText.value (FloatText.ofInt i : F)
  | .float x => FloatText.value x

/-- The canonical text of an exact number is read as a number that rounds to it. -/
theorem rounded_of_read {m n : Number F} (hn : n.exact = true) (h : read n.jcsLexeme = some m) :
    m.rounded = n.value := by
  rcases read_jcsLexeme hn with ⟨i, hi, hexact, hread⟩ | ⟨j, _, _, hrounds, hread⟩ |
    ⟨x, hx, _, hread⟩
  · rw [hread] at h
    rw [← Option.some.inj h, rounded, FloatText.value_ofInt i hexact, hi]
  · rw [hread] at h
    rw [← Option.some.inj h, rounded, hrounds]
  · rw [hread] at h
    rw [← Option.some.inj h, hx]
    rfl

/-- The canonical text of a number that is written with its own digits is read as a number of the
same worth. -/
theorem read_jcsLexeme_value {n : Number F} (hn : n.inexactIntegral = false) :
    ∃ m : Number F, read n.jcsLexeme = some m ∧ m.value = n.value := by
  cases n with
  | int i => exact ⟨.int i, read_decimal i, rfl⟩
  | float x =>
    rcases read_jcsLexeme (n := .float x) rfl with ⟨i, hi, _, hread⟩ | ⟨_, hinexact, _⟩ |
      ⟨_, _, _, hread⟩
    · exact ⟨.int i, hread, hi.symm⟩
    · rw [hn] at hinexact
      cases hinexact
    · exact ⟨_, hread, rfl⟩

/-- Numbers have one canonical text exactly when they are worth the same. -/
theorem jcsLexeme_eq_iff {m n : Number F} (hm : m.exact = true) (hn : n.exact = true) :
    m.jcsLexeme = n.jcsLexeme ↔ m.value = n.value := by
  refine ⟨fun h => ?_, fun h => ?_⟩
  · -- both texts are read as one number, and that rounds to each
    obtain ⟨k, hk⟩ := exists_read_jcsLexeme n
    rw [← rounded_of_read hm (h ▸ hk), ← rounded_of_read hn hk]
  · -- a value below the bound decides the text; any other number is a float, and is its value
    have hexact : ∀ (k : Number F) (i : ℤ), k.value = i → i.natAbs < 2 ^ 53 →
        k.jcsLexeme = Json.decimal i := by
      intro k i hi hlt
      cases k with
      | int j => rw [jcsLexeme, show j = i from Int.cast_injective (α := ℚ) hi]
      | float x => exact FloatText.jcs_exact x i hi hlt
    have hsmall : ∀ i : ℤ, (Number.int i : Number F).exact = true → i.natAbs < 2 ^ 53 := by
      intro i hi
      have : i.natAbs ≤ 2 ^ 53 - 1 := by simpa [exact] using hi
      omega
    cases m with
    | int i => rw [hexact _ i rfl (hsmall i hm), hexact n i h.symm (hsmall i hm)]
    | float x =>
      cases n with
      | int i => rw [hexact _ i h (hsmall i hn), hexact (.int i) i rfl (hsmall i hn)]
      | float y =>
        by_cases hzero : FloatText.value x = 0
        · -- the two zeros have one text
          have hx : FloatText.value x = (0 : ℤ) := by rw [hzero, Int.cast_zero]
          rw [hexact (.float x) 0 hx (by simp), hexact (.float y) 0 (h.symm.trans hx) (by simp)]
        · rw [FloatText.value_injective x y h hzero]

end Number

/-- The floats without a fraction. They satisfy the laws of `FloatText`, which are therefore
consistent. -/
structure IntegralFloat where
  toInt : ℤ
deriving DecidableEq, Repr

namespace IntegralFloat

/-- The lexeme of an integer before a fraction or an exponent. -/
theorem takeWhile_decimal (i : ℤ) {c : Char} (hc : (c.isDigit || c == '-') = false)
    (rest : List Char) :
    (Json.decimal i ++ c :: rest).takeWhile (fun d => d.isDigit || d == '-') = Json.decimal i := by
  have hall : ∀ d ∈ Json.decimal i, (d.isDigit || d == '-') = true :=
    List.all_eq_true.mp (Json.isInteger_decimal i)
  rw [List.takeWhile_append_of_pos hall, List.takeWhile_cons_of_neg (by simp [hc]),
    List.append_nil]

theorem isInteger_append (i : ℤ) {c : Char} (hc : (c.isDigit || c == '-') = false)
    (rest : List Char) : Json.isInteger (Json.decimal i ++ c :: rest) = false := by
  rw [Json.isInteger, List.all_append, List.all_cons, hc, Bool.false_and, Bool.and_false]

instance : FloatText IntegralFloat where
  value x := x.toInt
  repr x := Json.decimal x.toInt ++ ['.', '0']
  jcs x :=
    if x.toInt.natAbs < 10 ^ 21 then Json.decimal x.toInt
    else Json.decimal x.toInt ++ ['e', '+', '0']
  read text := some ⟨Json.readDecimal (text.takeWhile fun c => c.isDigit || c == '-')⟩
  ofInt i := ⟨i⟩
  value_injective := by
    rintro ⟨i⟩ ⟨j⟩ hvalue _
    exact congrArg IntegralFloat.mk (Int.cast_injective (α := ℚ) hvalue)
  repr_valid x := Json.validNumber_append x.toInt (by decide) (by simp) (by decide)
  repr_fraction x := isInteger_append x.toInt (by decide) _
  read_repr x := by rw [takeWhile_decimal x.toInt (by decide), Json.readDecimal_decimal]
  jcs_exact x i hi hexact := by
    have heq : x.toInt = i := Int.cast_injective (α := ℚ) hi
    rw [heq, if_pos (hexact.trans (by decide))]
  jcs_integral x i hi hbig hlt := by
    have heq : x.toInt = i := Int.cast_injective (α := ℚ) hi
    exact ⟨i, by rw [heq, if_pos hlt], hbig, hi.symm⟩
  jcs_valid x hbig := by
    rw [if_neg (Nat.not_lt.mpr (hbig x.toInt rfl))]
    exact Json.validNumber_append x.toInt (by decide) (by simp) (by decide)
  jcs_fraction x hbig := by
    rw [if_neg (Nat.not_lt.mpr (hbig x.toInt rfl))]
    exact isInteger_append x.toInt (by decide) _
  read_jcs x hbig := by
    rw [if_neg (Nat.not_lt.mpr (hbig x.toInt rfl)), takeWhile_decimal x.toInt (by decide),
      Json.readDecimal_decimal]
  value_ofInt _ _ := rfl

end IntegralFloat

/-! ## Section 2: Values -/

section Values

variable {F : Type}

/-- The UTF-16 code units of a key, by which RFC 8785 orders the members of an object. -/
def utf16 (key : String) : List ℕ :=
  key.toList.flatMap fun c =>
    if c.toNat < 0x10000 then [c.toNat]
    else [0xD800 + (c.toNat - 0x10000) / 1024, 0xDC00 + (c.toNat - 0x10000) % 1024]

/-- The code points of a key, by which Python orders strings. -/
def codePoints (key : String) : List ℕ := key.toList.map Char.toNat

theorem codePoints_injective : Function.Injective codePoints := by
  intro s s' h
  have hchars := List.map_injective_iff.mpr (fun a b hab => Char.toNat_inj.mp hab) h
  exact String.toList_injective hchars

/-- `freeze_json`: the value has exact integers, and its objects are mappings. -/
def freezable (v : Value F) : Bool := v.numbersAll Number.exact && v.distinct

/-- Equality of values, numbers compared by value and objects as mappings. -/
abbrev Same [FloatText F] (v w : Value F) : Prop := Json.Same utf16 Number.value v w

/-- A value with its numbers replaced by what they are worth and its objects in key order. -/
def byValue [FloatText F] (v : Value F) : Json ℚ := (v.sortKeys utf16).map Number.value

theorem same_iff [FloatText F] {v w : Value F} : Same v w ↔ byValue v = byValue w := Iff.rfl

end Values

/-! ## Section 3: String patterns -/

/-- White space of `str.isspace` and of `\s`. -/
def isSpace (c : Char) : Bool :=
  (9 ≤ c.toNat && c.toNat ≤ 13) || (28 ≤ c.toNat && c.toNat ≤ 32) || c.toNat == 0x85 ||
    c.toNat == 0xA0 || c.toNat == 0x1680 || (0x2000 ≤ c.toNat && c.toNat ≤ 0x200A) ||
    c.toNat == 0x2028 || c.toNat == 0x2029 || c.toNat == 0x202F || c.toNat == 0x205F ||
    c.toNat == 0x3000

/-- `[a-z0-9]`. -/
def isLowerAlnum (c : Char) : Bool := c.isLower || c.isDigit

/-- `[0-9a-f]`. -/
def isHex (c : Char) : Bool := c.isDigit || (97 ≤ c.toNat && c.toNat ≤ 102)

/-- `[0-9A-Za-z-]`. -/
def isIdentifierChar (c : Char) : Bool := c.isAlphanum || c == '-'

open Pattern in
/-- `DIGEST_PATTERN`. -/
def digestPattern : Pattern :=
  .seq (word ['s', 'h', 'a', '2', '5', '6', ':']) (times (.char isHex) 64)

open Pattern in
/-- `(0|[1-9][0-9]*)`. -/
def numericPattern : Pattern :=
  .alt (lit '0') (.seq (.char fun c => c.isDigit && c != '0') (.star (.char Char.isDigit)))

open Pattern in
/-- A prerelease identifier of `SEMVER_PATTERN`. -/
def prereleasePattern : Pattern :=
  .alt numericPattern (all [.star (.char Char.isDigit), .char fun c => c.isAlpha || c == '-',
    .star (.char isIdentifierChar)])

open Pattern in
/-- `SEMVER_PATTERN`. -/
def semverPattern : Pattern :=
  all [numericPattern, lit '.', numericPattern, lit '.', numericPattern,
    optional (all [lit '-', prereleasePattern, .star (.seq (lit '.') prereleasePattern)]),
    optional (all [lit '+', plus (.char isIdentifierChar),
      .star (.seq (lit '.') (plus (.char isIdentifierChar)))])]

open Pattern in
/-- `DATE_PATTERN`. -/
def datePattern : Pattern :=
  all [times (.char Char.isDigit) 4, lit '-', times (.char Char.isDigit) 2, lit '-',
    times (.char Char.isDigit) 2]

open Pattern in
/-- `RFC3339_PATTERN`. -/
def rfc3339Pattern : Pattern :=
  all [datePattern, lit 'T', times (.char Char.isDigit) 2, lit ':', times (.char Char.isDigit) 2,
    lit ':', times (.char Char.isDigit) 2, optional (.seq (lit '.') (plus (.char Char.isDigit))),
    lit 'Z']

/-- `[A-Za-z0-9!#$&^_.+-]`. -/
def isMediaChar (c : Char) : Bool :=
  c.isAlphanum || c == '!' || c == '#' || c == '$' || c == '&' || c == '^' || c == '_' ||
    c == '.' || c == '+' || c == '-'

open Pattern in
/-- `MEDIA_TYPE_PATTERN`. -/
def mediaTypePattern : Pattern :=
  all [plus (.char isMediaChar), lit '/', plus (.char isMediaChar),
    .star (all [lit ';', plus (.char isMediaChar), lit '=', plus (.char isMediaChar)])]

open Pattern in
/-- `EXTENSION_PATTERN`. -/
def extensionPattern : Pattern :=
  all [word ['x', '-'], plus (.char isLowerAlnum),
    .star (.seq (lit '-') (plus (.char isLowerAlnum)))]

open Pattern in
/-- The pattern of a capsule identifier. -/
def capsuleIdPattern : Pattern :=
  all [plus (.char isLowerAlnum),
    plus (.seq (.char fun c => c == '.' || c == '-') (plus (.char isLowerAlnum))),
    .star (.seq (lit '-') (plus (.char isLowerAlnum)))]

open Pattern in
/-- The pattern of a Git revision. -/
def revisionPattern : Pattern :=
  .alt (.seq (word ['s', 'h', 'a', '1', ':']) (times (.char isHex) 40)) digestPattern

open Pattern in
/-- The pattern of a time to live. -/
def ttlPattern : Pattern := all [lit 'P', plus (.char Char.isDigit), lit 'D']

open Pattern in
/-- The persistent locators: a DOI or a URN. -/
def persistentPattern : Pattern :=
  .alt
    (all [word ['d', 'o', 'i', ':', '1', '0', '.'], times (.char Char.isDigit) 4,
      times (optional (.char Char.isDigit)) 5, lit '/', plus (.char fun c => !isSpace c)])
    (all [word ['u', 'r', 'n', ':'], .char isLowerAlnum,
      times (optional (.char fun c => isLowerAlnum c || c == '-')) 31, lit ':',
      plus (.char fun c => !isSpace c)])

/-- Whether a string matches a pattern as a whole. -/
def fullmatch (p : Pattern) (s : String) : Bool := p.accepts s.toList

/-- `Digest`. -/
def isDigest (s : String) : Bool := fullmatch digestPattern s

/-- `SemVer`. -/
def isSemVer (s : String) : Bool := fullmatch semverPattern s

/-- `MediaType`. -/
def isMediaType (s : String) : Bool := fullmatch mediaTypePattern s

/-- `NonEmptyString`. -/
def isNonEmpty (s : String) : Bool := !s.isEmpty

/-! ## Section 4: Dates -/

/-- The number of a run of digits. -/
def digitsValue (cs : List Char) : ℕ := Nat.ofDigitChars 10 cs 0

/-- The days of a month. -/
def daysInMonth (year month : ℕ) : ℕ :=
  if month = 2 then
    if year % 4 = 0 ∧ (year % 100 ≠ 0 ∨ year % 400 = 0) then 29 else 28
  else if month = 4 ∨ month = 6 ∨ month = 9 ∨ month = 11 then 30
  else 31

/-- Whether `date.fromisoformat` accepts a date of the pattern. -/
def realDate (cs : List Char) : Bool :=
  let year := digitsValue (cs.take 4)
  let month := digitsValue ((cs.drop 5).take 2)
  let day := digitsValue ((cs.drop 8).take 2)
  decide (1 ≤ year) && decide (1 ≤ month) && decide (month ≤ 12) && decide (1 ≤ day) &&
    decide (day ≤ daysInMonth year month)

/-- `DateString`. -/
def isDateString (s : String) : Bool := fullmatch datePattern s && realDate s.toList

/-- `TimestampString`: a real date and a time of the day. -/
def isTimestampString (s : String) : Bool :=
  fullmatch rfc3339Pattern s && realDate s.toList &&
    decide (digitsValue ((s.toList.drop 11).take 2) < 24) &&
    decide (digitsValue ((s.toList.drop 14).take 2) < 60) &&
    decide (digitsValue ((s.toList.drop 17).take 2) < 60)

/-! ## Section 5: Paths and locators -/

/-- The parts of a text between the occurrences of a character. -/
def splitOn (separator : Char) : List Char → List (List Char)
  | [] => [[]]
  | c :: cs =>
    if c = separator then [] :: splitOn separator cs
    else match splitOn separator cs with
      | part :: parts => (c :: part) :: parts
      | [] => [[c]]

/-- A text without the separator is one part. -/
theorem splitOn_of_notMem {separator : Char} {cs : List Char} (h : separator ∉ cs) :
    splitOn separator cs = [cs] := by
  induction cs with
  | nil => rfl
  | cons c cs ih =>
    rw [List.mem_cons, not_or] at h
    rw [splitOn, if_neg fun heq => h.1 heq.symm, ih h.2]

/-- The first part stands before the first separator. -/
theorem splitOn_append {separator : Char} {front : List Char} (h : separator ∉ front)
    (back : List Char) :
    splitOn separator (front ++ separator :: back) = front :: splitOn separator back := by
  induction front with
  | nil => rw [List.nil_append, splitOn, if_pos rfl]
  | cons c cs ih =>
    rw [List.mem_cons, not_or] at h
    rw [List.cons_append, splitOn, if_neg fun heq => h.1 heq.symm, ih h.2]

/-- `^[A-Za-z]:`. -/
def hasDrive : List Char → Bool
  | c :: ':' :: _ => c.isAlpha
  | _ => false

/-- `is_safe_relative_path`. -/
def isSafeRelativePath (value : String) (start : String) : Bool :=
  let cs := value.toList
  !cs.isEmpty && !cs.contains '\\' && !cs.contains (Char.ofNat 0) && cs.head? != some '/' &&
    !hasDrive cs &&
    (splitOn '/' cs).all (fun part => !part.isEmpty && part != ['.'] && part != ['.', '.']) &&
    start.toList.isPrefixOf cs

/-- The parts of a URL that `urlsplit` gives. -/
structure SplitResult where
  scheme : List Char
  netloc : List Char
  path : List Char
  query : List Char
  fragment : List Char

/-- What stands before and after the first occurrence of a character. -/
def partition (separator : Char) (cs : List Char) : List Char × Bool × List Char :=
  match cs.dropWhile (· != separator) with
  | [] => (cs, false, [])
  | _ :: rest => (cs.takeWhile (· != separator), true, rest)

/-- `_check_bracketed_host`: a bracketed host that is no IPv6 address has to be of a future
version. An IPv6 address has a colon, which no canonical host has. -/
def bracketedHost (host : List Char) : Bool :=
  Pattern.accepts
    (.all [Pattern.lit 'v', Pattern.plus (.char fun c => isHex c || (65 ≤ c.toNat && c.toNat ≤ 70)),
      Pattern.lit '.', Pattern.plus (.char fun _ => true)]) host

/-- `urllib.parse.urlsplit`; no value stands for a `ValueError`. -/
def urlsplit (value : List Char) : Option SplitResult := do
  let url := (value.dropWhile fun c => c.toNat ≤ 32).filter fun c =>
    c != '\t' && c != '\r' && c != '\n'
  let (head, found, rest) := partition ':' url
  let isScheme := found && (head.head?.elim false Char.isAlpha) &&
    head.all fun c => c.isAlphanum || c == '+' || c == '-' || c == '.'
  let (scheme, url) := if isScheme then (head.map Char.toLower, rest) else ([], url)
  let (netloc, url) :=
    match url with
    | '/' :: '/' :: cs =>
      (cs.takeWhile (fun c => c != '/' && c != '?' && c != '#'),
        cs.dropWhile fun c => c != '/' && c != '?' && c != '#')
    | _ => ([], url)
  guard (netloc.contains '[' == netloc.contains ']')
  let (url, _, fragment) := partition '#' url
  let (path, _, query) := partition '?' url
  return { scheme, netloc, path, query, fragment }

/-- `SplitResult._hostinfo` of a location without user information. -/
def hostinfo (netloc : List Char) : Option (List Char × List Char) :=
  let (before, bracket, bracketed) := partition '[' netloc
  if bracket then
    let (host, _, after) := partition ']' bracketed
    let (gap, _, port) := partition ':' after
    if before.isEmpty && gap.isEmpty && bracketedHost host then some (host, port) else none
  else
    let (host, _, port) := partition ':' netloc
    some (host, port)

open Pattern in
/-- The pattern of a canonical host name. -/
def hostPattern : Pattern :=
  .seq (plus (.char isLowerAlnum))
    (.star (.seq (.char fun c => c == '.' || c == '-') (plus (.char isLowerAlnum))))

/-- `is_canonical_https_uri`. A location with a host of the pattern and lower-case letters only is
ASCII, so the normalization of the other characters does not matter. -/
def isCanonicalHttpsUri (value : String) : Bool :=
  match urlsplit value.toList with
  | none => false
  | some parsed =>
    match hostinfo parsed.netloc with
    | none => false
    | some (hostname, port) =>
      parsed.scheme == ['h', 't', 't', 'p', 's'] && hostPattern.accepts hostname &&
        !parsed.netloc.contains '@' &&
        port.all Char.isDigit && decide (digitsValue port ≤ 65535) &&
        (port.isEmpty || digitsValue port != 443) &&
        parsed.query.isEmpty && parsed.fragment.isEmpty &&
        parsed.netloc.all (fun c => decide (c.toNat < 128) && !c.isUpper) &&
        !value.toList.contains '%' &&
        parsed.path.getLast? != some '/' &&
        parsed.path.tails.all (fun cs => ! ['/', '/'].isPrefixOf cs) &&
        (splitOn '/' parsed.path).all (fun part => part != ['.'] && part != ['.', '.'])

end ContractCapsule.Models
