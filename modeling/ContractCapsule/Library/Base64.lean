import Mathlib.Tactic.Common
import Mathlib.Data.List.Basic

/-!
# Base64

The text of a byte string in the alphabet of RFC 4648 that is safe in file names, with padding.

`decode_encode` says that a byte string is read back from its text.
-/

namespace Library

namespace Base64

/-- The digits of the alphabet. -/
def alphabet : List Char :=
  "ABCDEFGHIJKLMNOPQRSTUVWXYZabcdefghijklmnopqrstuvwxyz0123456789-_".toList

/-- The digit for six bits. -/
def digit (n : ℕ) : Char := alphabet.getD n '='

/-- The text of some bytes: four digits for three bytes, and padding behind the last ones. -/
def encode : List UInt8 → List Char
  | [] => []
  | [a] => [digit (a.toNat / 4), digit (a.toNat % 4 * 16), '=', '=']
  | [a, b] =>
    [digit (a.toNat / 4), digit (a.toNat % 4 * 16 + b.toNat / 16), digit (b.toNat % 16 * 4), '=']
  | a :: b :: c :: rest =>
    digit (a.toNat / 4) :: digit (a.toNat % 4 * 16 + b.toNat / 16) ::
      digit (b.toNat % 16 * 4 + c.toNat / 64) :: digit (c.toNat % 64) :: encode rest

/-- The six bits of a digit. -/
def sextet (c : Char) : Option ℕ :=
  let place := alphabet.idxOf c
  if place < 64 then some place else none

/-- The byte with a number. -/
def byteOf (n : ℕ) : UInt8 := UInt8.ofNat n

/-- The bytes of four digits. -/
def decodeFour (a b c d : Char) : Option (List UInt8) := do
  let first ← sextet a
  let second ← sextet b
  let byte := byteOf (first * 4 + second / 16)
  if c = '=' then
    if d = '=' then some [byte] else none
  else do
    let third ← sextet c
    let next := byteOf (second % 16 * 16 + third / 4)
    if d = '=' then some [byte, next] else do
      let fourth ← sextet d
      some [byte, next, byteOf (third % 4 * 64 + fourth)]

/-- The bytes of a text. Padding ends it. -/
def decode : List Char → Option (List UInt8)
  | [] => some []
  | a :: b :: c :: d :: rest =>
    if d = '=' ∧ rest ≠ [] then none else do
      let front ← decodeFour a b c d
      let back ← decode rest
      some (front ++ back)
  | _ => none

/-- The place of a digit in the alphabet. -/
theorem idxOf_digit : ∀ n < 64, alphabet.idxOf (digit n) = n := by decide +kernel

theorem sextet_digit {n : ℕ} (h : n < 64) : sextet (digit n) = some n := by
  simp only [sextet, idxOf_digit n h, if_pos h]

/-- The padding is no digit. -/
theorem digit_ne_pad {n : ℕ} (hn : n < 64) : digit n ≠ '=' := by
  intro h
  have hplace := idxOf_digit n hn
  rw [h] at hplace
  have hpad : alphabet.idxOf '=' = 64 := by decide +kernel
  omega

theorem byteOf_eq {b : UInt8} {n : ℕ} (h : n = b.toNat) : byteOf n = b := by
  rw [byteOf, h, UInt8.ofNat_toNat]

/-- **Round trip**: a byte string is read back from its text. -/
theorem decode_encode (bytes : List UInt8) : decode (encode bytes) = some bytes := by
  have hbyte : ∀ b : UInt8, b.toNat < 256 := UInt8.toNat_lt
  -- three bytes at a time; each byte is put together from the digits that it was taken apart into
  induction bytes using encode.induct with
  | case1 => rfl
  | case2 a =>
    have ha := hbyte a
    simp [encode, decode, decodeFour, sextet_digit (n := a.toNat / 4) (by omega),
      sextet_digit (n := a.toNat % 4 * 16) (by omega)]
    apply byteOf_eq
    omega
  | case3 a b =>
    have ha := hbyte a
    have hb := hbyte b
    simp [encode, decode, decodeFour, sextet_digit (n := a.toNat / 4) (by omega),
      sextet_digit (n := a.toNat % 4 * 16 + b.toNat / 16) (by omega),
      sextet_digit (n := b.toNat % 16 * 4) (by omega),
      digit_ne_pad (n := b.toNat % 16 * 4) (by omega)]
    exact ⟨byteOf_eq (by omega), byteOf_eq (by omega)⟩
  | case4 a b c rest ih =>
    have ha := hbyte a
    have hb := hbyte b
    have hc := hbyte c
    simp [encode, decode, decodeFour, sextet_digit (n := a.toNat / 4) (by omega),
      sextet_digit (n := a.toNat % 4 * 16 + b.toNat / 16) (by omega),
      sextet_digit (n := b.toNat % 16 * 4 + c.toNat / 64) (by omega),
      sextet_digit (n := c.toNat % 64) (by omega),
      digit_ne_pad (n := b.toNat % 16 * 4 + c.toNat / 64) (by omega),
      digit_ne_pad (n := c.toNat % 64) (by omega), ih]
    exact ⟨byteOf_eq (by omega), byteOf_eq (by omega), byteOf_eq (by omega)⟩

/-- No two byte strings have one text. -/
theorem encode_injective : Function.Injective encode := by
  intro xs ys h
  have hread := decode_encode xs
  rw [h, decode_encode] at hread
  exact (Option.some.inj hread).symm

end Base64

end Library
