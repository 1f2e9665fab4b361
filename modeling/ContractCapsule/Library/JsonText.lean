import Mathlib.Data.List.TakeWhile
import ContractCapsule.Library.Json

/-!
# JSON Text

A value whose numbers are lexemes is written as a list of tokens, and tokens are written
as characters under a `Style`: the separators and the way a character of a string is
escaped. Reading goes back the same way, `lex` first and `parseTokens` after it.

`parse_write` is the round trip. `lex_cut` says that a text cut off inside a string is
refused, whatever stands before the string.
-/

namespace Library

namespace Json

/-! ## Section 1: Tokens -/

/-- The tokens of a JSON text. -/
inductive Token where
  | lbrace
  | rbrace
  | lbracket
  | rbracket
  | comma
  | colon
  | null
  | true
  | false
  | string (s : List Char)
  | number (lexeme : List Char)
deriving DecidableEq, Repr

/-- A value whose numbers are written out. -/
abbrev Raw := Json (List Char)

mutual

/-- The tokens of a value. -/
def tokens : Raw → List Token
  | .null => [.null]
  | .bool b => [bif b then .true else .false]
  | .number lexeme => [.number lexeme]
  | .string s => [.string s.toList]
  | .array [] => [.lbracket, .rbracket]
  | .array (x :: xs) => .lbracket :: tokens x ++ itemTokens xs ++ [.rbracket]
  | .object [] => [.lbrace, .rbrace]
  | .object ((k, x) :: ms) =>
    .lbrace :: .string k.toList :: .colon :: tokens x ++ memberTokens ms ++ [.rbrace]

/-- The tokens of the further items of an array, each after its comma. -/
def itemTokens : List Raw → List Token
  | [] => []
  | x :: xs => .comma :: tokens x ++ itemTokens xs

/-- The tokens of the further members of an object, each after its comma. -/
def memberTokens : List (String × Raw) → List Token
  | [] => []
  | (k, x) :: ms => .comma :: .string k.toList :: .colon :: tokens x ++ memberTokens ms

end

/-! ## Section 2: Reading tokens -/

mutual

/-- Read one value. -/
def parseValue : ℕ → List Token → Option (Raw × List Token)
  | 0, _ => none
  | _ + 1, .null :: ts => some (.null, ts)
  | _ + 1, .true :: ts => some (.bool true, ts)
  | _ + 1, .false :: ts => some (.bool false, ts)
  | _ + 1, .number lexeme :: ts => some (.number lexeme, ts)
  | _ + 1, .string s :: ts => some (.string (String.ofList s), ts)
  | _ + 1, .lbracket :: .rbracket :: ts => some (.array [], ts)
  | fuel + 1, .lbracket :: ts => do
    let (x, ts) ← parseValue fuel ts
    let (xs, ts) ← parseItems fuel ts
    return (.array (x :: xs), ts)
  | _ + 1, .lbrace :: .rbrace :: ts => some (.object [], ts)
  | fuel + 1, .lbrace :: .string k :: .colon :: ts => do
    let (x, ts) ← parseValue fuel ts
    let (ms, ts) ← parseMembers fuel ts
    return (.object ((String.ofList k, x) :: ms), ts)
  | _ + 1, _ => none

/-- Read the further items of an array and its bracket. -/
def parseItems : ℕ → List Token → Option (List Raw × List Token)
  | _ + 1, .rbracket :: ts => some ([], ts)
  | fuel + 1, .comma :: ts => do
    let (x, ts) ← parseValue fuel ts
    let (xs, ts) ← parseItems fuel ts
    return (x :: xs, ts)
  | _, _ => none

/-- Read the further members of an object and its brace. -/
def parseMembers : ℕ → List Token → Option (List (String × Raw) × List Token)
  | _ + 1, .rbrace :: ts => some ([], ts)
  | fuel + 1, .comma :: .string k :: .colon :: ts => do
    let (x, ts) ← parseValue fuel ts
    let (ms, ts) ← parseMembers fuel ts
    return ((String.ofList k, x) :: ms, ts)
  | _, _ => none

end

/-- Read tokens that are one value and nothing more. -/
def parseTokens (ts : List Token) : Option Raw :=
  match parseValue ts.length ts with
  | some (v, []) => some v
  | _ => none

/-- The tokens of a value do not start with a closing bracket. -/
theorem tokens_head (v : Raw) : ∃ t ts, tokens v = t :: ts ∧ t ≠ .rbracket := by
  cases v with
  | null => exact ⟨_, _, rfl, by simp⟩
  | bool b => exact ⟨_, _, rfl, by cases b <;> simp⟩
  | number l => exact ⟨_, _, rfl, by simp⟩
  | string s => exact ⟨_, _, rfl, by simp⟩
  | array xs => cases xs <;> exact ⟨_, _, rfl, by simp⟩
  | object ms => cases ms <;> exact ⟨_, _, rfl, by simp⟩

mutual

/-- Reading the tokens of a value gives the value back. -/
theorem parseValue_tokens : ∀ (v : Raw) (fuel : ℕ) (ts : List Token),
    (tokens v).length ≤ fuel → parseValue fuel (tokens v ++ ts) = some (v, ts)
  | v, 0, _, h => by
    obtain ⟨t, us, heq, _⟩ := tokens_head v
    simp [heq] at h
  | .null, fuel + 1, ts, _ => rfl
  | .bool b, fuel + 1, ts, _ => by cases b <;> rfl
  | .number l, fuel + 1, ts, _ => rfl
  | .string s, fuel + 1, ts, _ => by simp [tokens, parseValue]
  | .array [], fuel + 1, ts, _ => rfl
  | .array (x :: xs), fuel + 1, ts, h => by
    obtain ⟨t, us, heq, hne⟩ := tokens_head x
    simp only [tokens, List.cons_append, List.length_cons, List.length_append,
      List.length_nil] at h
    have hx := parseValue_tokens x fuel (itemTokens xs ++ .rbracket :: ts) (by omega)
    have hxs := parseItems_tokens xs fuel ts (by omega)
    -- the first token after the bracket is not a closing one
    have hstep : parseValue (fuel + 1) (tokens (.array (x :: xs)) ++ ts) =
        (do let (y, us) ← parseValue fuel (tokens x ++ (itemTokens xs ++ .rbracket :: ts))
            let (ys, us) ← parseItems fuel us
            return (.array (y :: ys), us)) := by
      simp only [tokens, List.append_assoc, List.cons_append, List.nil_append, heq]
      rw [parseValue]
      intro us' habs
      exact hne (List.cons.inj habs).1
    rw [hstep, hx]
    simp [hxs]
  | .object [], fuel + 1, ts, _ => rfl
  | .object ((k, x) :: ms), fuel + 1, ts, h => by
    simp only [tokens, List.cons_append, List.length_cons, List.length_append,
      List.length_nil] at h
    have hx := parseValue_tokens x fuel (memberTokens ms ++ .rbrace :: ts) (by omega)
    have hms := parseMembers_tokens ms fuel ts (by omega)
    simp only [tokens, List.append_assoc, List.cons_append, List.nil_append, parseValue, hx]
    simp [hms]

/-- Reading further items gives them back. -/
theorem parseItems_tokens : ∀ (xs : List Raw) (fuel : ℕ) (ts : List Token),
    (itemTokens xs).length + 1 ≤ fuel →
      parseItems fuel (itemTokens xs ++ .rbracket :: ts) = some (xs, ts)
  | _, 0, _, h => by omega
  | [], fuel + 1, ts, _ => rfl
  | x :: xs, fuel + 1, ts, h => by
    simp only [itemTokens, List.cons_append, List.length_cons, List.length_append] at h
    have hx := parseValue_tokens x fuel (itemTokens xs ++ .rbracket :: ts) (by omega)
    have hxs := parseItems_tokens xs fuel ts (by omega)
    simp only [itemTokens, List.append_assoc, List.cons_append, parseItems, hx]
    simp [hxs]

/-- Reading further members gives them back. -/
theorem parseMembers_tokens : ∀ (ms : List (String × Raw)) (fuel : ℕ) (ts : List Token),
    (memberTokens ms).length + 1 ≤ fuel →
      parseMembers fuel (memberTokens ms ++ .rbrace :: ts) = some (ms, ts)
  | _, 0, _, h => by omega
  | [], fuel + 1, ts, _ => rfl
  | (k, x) :: ms, fuel + 1, ts, h => by
    simp only [memberTokens, List.cons_append, List.length_cons, List.length_append] at h
    have hx := parseValue_tokens x fuel (memberTokens ms ++ .rbrace :: ts) (by omega)
    have hms := parseMembers_tokens ms fuel ts (by omega)
    simp only [memberTokens, List.append_assoc, List.cons_append, parseMembers, hx]
    simp [hms]

end

theorem parseTokens_tokens (v : Raw) : parseTokens (tokens v) = some v := by
  have h := parseValue_tokens v (tokens v).length [] (le_refl _)
  rw [List.append_nil] at h
  simp [parseTokens, h]

/-! ## Section 3: Strings -/

/-- The value of a hexadecimal digit. -/
def hexValue (c : Char) : Option ℕ :=
  if '0' ≤ c ∧ c ≤ '9' then some (c.toNat - 48)
  else if 'a' ≤ c ∧ c ≤ 'f' then some (c.toNat - 87)
  else if 'A' ≤ c ∧ c ≤ 'F' then some (c.toNat - 55)
  else none

/-- The UTF-16 code unit of four hexadecimal digits. -/
def codeUnit (a b c d : Char) : Option ℕ := do
  return 4096 * (← hexValue a) + 256 * (← hexValue b) + 16 * (← hexValue c) + (← hexValue d)

/-- The character after a backslash, other than `u`. -/
def simpleEscape (c : Char) : Option Char :=
  if c = '"' ∨ c = '\\' ∨ c = '/' then some c
  else if c = 'b' then some (Char.ofNat 8)
  else if c = 'f' then some (Char.ofNat 12)
  else if c = 'n' then some '\n'
  else if c = 'r' then some '\r'
  else if c = 't' then some '\t'
  else none

mutual

/-- Read the characters of a string up to its closing quote. An unpaired surrogate is no
character and is refused. -/
def scanString : List Char → Option (List Char × List Char)
  | [] => none
  | c :: cs =>
    if c = '"' then some ([], cs)
    else if c = '\\' then scanEscape cs
    else if c.toNat < 32 then none
    else (scanString cs).map fun r => (c :: r.1, r.2)

/-- Read on after a backslash. -/
def scanEscape : List Char → Option (List Char × List Char)
  | [] => none
  | e :: cs =>
    if e = 'u' then scanUnit cs
    else match simpleEscape e with
      | some c => (scanString cs).map fun r => (c :: r.1, r.2)
      | none => none

/-- Read on after `\u`. -/
def scanUnit : List Char → Option (List Char × List Char)
  | a :: b :: c :: d :: cs =>
    match codeUnit a b c d with
    | none => none
    | some u =>
      if 0xD800 ≤ u ∧ u < 0xDC00 then
        match cs with
        | x :: y :: a' :: b' :: c' :: d' :: cs' =>
          match codeUnit a' b' c' d' with
          | none => none
          | some u' =>
            if x = '\\' ∧ y = 'u' ∧ 0xDC00 ≤ u' ∧ u' < 0xE000 then
              (scanString cs').map fun r =>
                (Char.ofNat (0x10000 + 1024 * (u - 0xD800) + (u' - 0xDC00)) :: r.1, r.2)
            else none
        | _ => none
      else if 0xDC00 ≤ u ∧ u < 0xE000 then none
      else (scanString cs).map fun r => (Char.ofNat u :: r.1, r.2)
  | _ => none

end

/-- Four lower-case hexadecimal digits. -/
def hexDigits (u : ℕ) : List Char :=
  [Nat.digitChar (u / 4096 % 16), Nat.digitChar (u / 256 % 16), Nat.digitChar (u / 16 % 16),
    Nat.digitChar (u % 16)]

/-- A code unit as an escape. -/
def escapeUnit (u : ℕ) : List Char := '\\' :: 'u' :: hexDigits u

/-- The two-character escape of a character that has one. -/
def shortEscape (c : Char) : Option Char :=
  if c = '"' ∨ c = '\\' then some c
  else if c = Char.ofNat 8 then some 'b'
  else if c = Char.ofNat 12 then some 'f'
  else if c = '\n' then some 'n'
  else if c = '\r' then some 'r'
  else if c = '\t' then some 't'
  else none

/-- A character of a string; control characters are escaped and all others stand as they are. -/
def escape (c : Char) : List Char :=
  match shortEscape c with
  | some e => ['\\', e]
  | none => if c.toNat < 32 then escapeUnit c.toNat else [c]

/-- A character of a string in ASCII; a character beyond the basic plane is a surrogate pair. -/
def escapeAscii (c : Char) : List Char :=
  match shortEscape c with
  | some e => ['\\', e]
  | none =>
    if 32 ≤ c.toNat ∧ c.toNat ≤ 126 then [c]
    else if c.toNat < 0x10000 then escapeUnit c.toNat
    else escapeUnit (0xD800 + (c.toNat - 0x10000) / 1024) ++
      escapeUnit (0xDC00 + (c.toNat - 0x10000) % 1024)

theorem hexValue_digitChar : ∀ d, d < 16 → hexValue (Nat.digitChar d) = some d := by decide

theorem codeUnit_hexDigits {u : ℕ} (hu : u < 65536) :
    codeUnit (Nat.digitChar (u / 4096 % 16)) (Nat.digitChar (u / 256 % 16))
      (Nat.digitChar (u / 16 % 16)) (Nat.digitChar (u % 16)) = some u := by
  have hvalue : ∀ n, hexValue (Nat.digitChar (n % 16)) = some (n % 16) := fun n =>
    hexValue_digitChar _ (Nat.mod_lt _ (by decide))
  simp only [codeUnit, hvalue, Option.bind_eq_bind, Option.bind_some]
  congr 1
  omega

theorem scanString_slash_u (cs : List Char) : scanString ('\\' :: 'u' :: cs) = scanUnit cs := by
  rw [scanString, if_neg (by decide), if_pos rfl, scanEscape, if_pos rfl]

theorem scanUnit_basic {a b c d : Char} {u : ℕ} (h : codeUnit a b c d = some u)
    (hhigh : ¬ (0xD800 ≤ u ∧ u < 0xDC00)) (hlow : ¬ (0xDC00 ≤ u ∧ u < 0xE000)) (cs : List Char) :
    scanUnit (a :: b :: c :: d :: cs) =
      (scanString cs).map fun r => (Char.ofNat u :: r.1, r.2) := by
  rw [scanUnit, h]
  simp only [if_neg hhigh, if_neg hlow]

theorem scanUnit_pair {a b c d a' b' c' d' : Char} {u u' : ℕ} (h : codeUnit a b c d = some u)
    (h' : codeUnit a' b' c' d' = some u') (hhigh : 0xD800 ≤ u ∧ u < 0xDC00)
    (hlow : 0xDC00 ≤ u' ∧ u' < 0xE000) (cs : List Char) :
    scanUnit (a :: b :: c :: d :: '\\' :: 'u' :: a' :: b' :: c' :: d' :: cs) =
      (scanString cs).map fun r =>
        (Char.ofNat (0x10000 + 1024 * (u - 0xD800) + (u' - 0xDC00)) :: r.1, r.2) := by
  rw [scanUnit, h]
  simp only [if_pos hhigh, h']
  exact if_pos ⟨trivial, trivial, hlow⟩

/-- Reading an escaped code unit that is no surrogate. -/
theorem scanString_escapeUnit {c : Char} (hc : c.toNat < 0x10000) (cs : List Char) :
    scanString (escapeUnit c.toNat ++ cs) = (scanString cs).map fun r => (c :: r.1, r.2) := by
  have hvalid : c.toNat < 0xD800 ∨ 0xDFFF < c.toNat := by
    rcases c.valid with h | h
    · exact .inl h
    · exact .inr h.1
  have hread := scanUnit_basic (codeUnit_hexDigits hc) (by omega) (by omega) cs
  rw [Char.ofNat_toNat] at hread
  rw [← hread]
  exact scanString_slash_u _

/-- Reading an escaped surrogate pair. -/
theorem scanString_escapePair {c : Char} (hc : 0x10000 ≤ c.toNat) (cs : List Char) :
    scanString (escapeUnit (0xD800 + (c.toNat - 0x10000) / 1024) ++
        escapeUnit (0xDC00 + (c.toNat - 0x10000) % 1024) ++ cs) =
      (scanString cs).map fun r => (c :: r.1, r.2) := by
  have hvalid : c.toNat < 0x110000 := by
    rcases c.valid with h | h
    · exact lt_trans h (by decide)
    · exact h.2
  generalize hu : 0xD800 + (c.toNat - 0x10000) / 1024 = u
  generalize hu' : 0xDC00 + (c.toNat - 0x10000) % 1024 = u'
  have hcombine : 0x10000 + 1024 * (u - 0xD800) + (u' - 0xDC00) = c.toNat := by omega
  have hread := scanUnit_pair (codeUnit_hexDigits (u := u) (by omega))
    (codeUnit_hexDigits (u := u') (by omega)) ⟨by omega, by omega⟩ ⟨by omega, by omega⟩ cs
  rw [hcombine, Char.ofNat_toNat] at hread
  rw [← hread]
  exact scanString_slash_u _

/-- The two-character escapes are read back. -/
theorem scanString_shortEscape {c e : Char} (h : shortEscape c = some e) (cs : List Char) :
    scanString ('\\' :: e :: cs) = (scanString cs).map fun r => (c :: r.1, r.2) := by
  have hsimple : e ≠ 'u' ∧ simpleEscape e = some c := by
    unfold shortEscape at h
    split_ifs at h with h₁ h₂ h₃ h₄ h₅ h₆ <;> cases h
    · rcases h₁ with rfl | rfl <;> decide
    all_goals subst_vars; decide
  have hquote : ('\\' : Char) ≠ '"' := by decide
  simp only [scanString, if_neg hquote, if_true, scanEscape, if_neg hsimple.1, hsimple.2]

theorem shortEscape_eq_none {c : Char} (h : shortEscape c = none) : c ≠ '"' ∧ c ≠ '\\' := by
  unfold shortEscape at h
  split_ifs at h with h₁
  exact not_or.mp h₁

theorem scanString_cons {c : Char} (h : shortEscape c = none) (hc : 32 ≤ c.toNat)
    (cs : List Char) : scanString (c :: cs) = (scanString cs).map fun r => (c :: r.1, r.2) := by
  obtain ⟨hquote, hslash⟩ := shortEscape_eq_none h
  simp only [scanString, if_neg hquote, if_neg hslash, if_neg (Nat.not_lt.mpr hc)]

theorem scanString_escape (c : Char) (cs : List Char) :
    scanString (escape c ++ cs) = (scanString cs).map fun r => (c :: r.1, r.2) := by
  unfold escape
  cases hshort : shortEscape c with
  | some e => exact scanString_shortEscape hshort cs
  | none =>
    by_cases hc : c.toNat < 32
    · simp only [if_pos hc]
      exact scanString_escapeUnit (by omega) cs
    · simp only [if_neg hc]
      exact scanString_cons hshort (by omega) cs

theorem scanString_escapeAscii (c : Char) (cs : List Char) :
    scanString (escapeAscii c ++ cs) = (scanString cs).map fun r => (c :: r.1, r.2) := by
  unfold escapeAscii
  cases hshort : shortEscape c with
  | some e => exact scanString_shortEscape hshort cs
  | none =>
    by_cases hprintable : 32 ≤ c.toNat ∧ c.toNat ≤ 126
    · simp only [if_pos hprintable]
      exact scanString_cons hshort hprintable.1 cs
    · by_cases hbasic : c.toNat < 0x10000
      · simp only [if_neg hprintable, if_pos hbasic]
        exact scanString_escapeUnit hbasic cs
      · simp only [if_neg hprintable, if_neg hbasic]
        exact scanString_escapePair (by omega) cs

/-! ## Section 4: Numbers -/

/-- The characters of numbers. -/
def isNumberChar (c : Char) : Bool :=
  c.isDigit || c == '-' || c == '+' || c == '.' || c == 'e' || c == 'E'

/-- Drop the digits of an integer part; no leading zero stands before another digit. -/
def dropInteger : List Char → Option (List Char)
  | [] => none
  | c :: cs =>
    if c = '0' then some cs
    else if c.isDigit then some (cs.dropWhile Char.isDigit)
    else none

/-- Drop one digit or more. -/
def dropDigits : List Char → Option (List Char)
  | [] => none
  | c :: cs => if c.isDigit then some (cs.dropWhile Char.isDigit) else none

/-- Drop a fraction if there is one. -/
def dropFraction (cs : List Char) : Option (List Char) :=
  match cs with
  | c :: ds => if c = '.' then dropDigits ds else some cs
  | [] => some []

/-- Drop an exponent if there is one. -/
def dropExponent (cs : List Char) : Option (List Char) :=
  match cs with
  | [] => some []
  | c :: ds =>
    if c = 'e' ∨ c = 'E' then
      match ds with
      | s :: es => if s = '+' ∨ s = '-' then dropDigits es else dropDigits ds
      | [] => none
    else some cs

/-- The lexeme without its sign. -/
def dropMinus (cs : List Char) : List Char :=
  match cs with
  | c :: ds => if c = '-' then ds else cs
  | [] => []

/-- The lexemes of numbers. -/
def validNumber (lexeme : List Char) : Bool :=
  lexeme.all isNumberChar &&
    ((dropInteger (dropMinus lexeme)).bind fun cs =>
      (dropFraction cs).bind dropExponent) == some []

/-- Whether a lexeme has neither a fraction nor an exponent. -/
def isInteger (lexeme : List Char) : Bool :=
  lexeme.all fun c => c.isDigit || c == '-'

/-- The lexeme of an integer. -/
def decimal : ℤ → List Char
  | .ofNat n => Nat.toDigits 10 n
  | .negSucc n => '-' :: Nat.toDigits 10 (n + 1)

/-- The integer a lexeme without fraction and exponent stands for. -/
def readDecimal (lexeme : List Char) : ℤ :=
  match lexeme with
  | [] => 0
  | c :: cs =>
    if c = '-' then -(Nat.ofDigitChars 10 cs 0 : ℤ) else Nat.ofDigitChars 10 lexeme 0

theorem isDigit_toDigits {n : ℕ} {c : Char} (h : c ∈ Nat.toDigits 10 n) : c.isDigit = true :=
  Nat.isDigit_of_mem_toDigits (by decide) (by decide) h

/-- The digits of a positive number do not start with zero. -/
theorem toDigits_head (n : ℕ) (hn : 0 < n) :
    ∃ c cs, Nat.toDigits 10 n = c :: cs ∧ c ≠ '0' := by
  induction n using Nat.strong_induction_on with
  | _ n ih =>
    by_cases hsmall : n < 10
    · refine ⟨Nat.digitChar n, [], Nat.toDigits_of_lt_base hsmall, ?_⟩
      have hall : ∀ d, d < 10 → 0 < d → Nat.digitChar d ≠ '0' := by decide
      exact hall n hsmall hn
    · obtain ⟨c, cs, heq, hne⟩ := ih (n / 10) (by omega) (by omega)
      exact ⟨c, cs ++ [Nat.digitChar (n % 10)],
        by rw [Nat.toDigits_of_base_le (by decide) (by omega), heq, List.cons_append], hne⟩

/-- The digits of a number are an integer part. -/
theorem dropInteger_toDigits (n : ℕ) {rest : List Char}
    (hstop : ∀ c ∈ rest.head?, c.isDigit = false) :
    dropInteger (Nat.toDigits 10 n ++ rest) = some rest := by
  have hrest : rest.dropWhile Char.isDigit = rest := by
    cases rest with
    | nil => rfl
    | cons c cs => exact List.dropWhile_cons_of_neg (by simp [hstop c rfl])
  rcases Nat.eq_zero_or_pos n with rfl | hn
  · rw [Nat.toDigits_zero]
    rfl
  · obtain ⟨c, cs, heq, hne⟩ := toDigits_head n hn
    have hdigits : ∀ d ∈ c :: cs, d.isDigit = true := fun d hd => isDigit_toDigits (heq ▸ hd)
    rw [heq, List.cons_append, dropInteger, if_neg hne, if_pos (hdigits c List.mem_cons_self),
      List.dropWhile_append_of_pos fun d hd => hdigits d (List.mem_cons_of_mem _ hd), hrest]

theorem isNumberChar_of_isDigit {c : Char} (h : c.isDigit = true) : isNumberChar c = true := by
  simp [isNumberChar, h]

theorem toDigits_ne_minus (n : ℕ) (rest : List Char) :
    dropMinus (Nat.toDigits 10 n ++ rest) = Nat.toDigits 10 n ++ rest := by
  cases heq : Nat.toDigits 10 n with
  | nil => exact absurd heq Nat.toDigits_ne_nil
  | cons c cs =>
    have hdigit : c.isDigit = true := isDigit_toDigits (heq ▸ List.mem_cons_self)
    have hne : c ≠ '-' := by rintro rfl; simp at hdigit
    rw [List.cons_append, dropMinus, if_neg hne]

/-- An integer with a fraction or an exponent after it is the lexeme of a number. -/
theorem validNumber_append (i : ℤ) {rest : List Char} (hchars : rest.all isNumberChar = true)
    (hstop : ∀ c ∈ rest.head?, c.isDigit = false)
    (hrest : (dropFraction rest).bind dropExponent = some []) :
    validNumber (decimal i ++ rest) = true := by
  have hdigits : ∀ n : ℕ, (Nat.toDigits 10 n).all isNumberChar = true := fun n =>
    List.all_eq_true.mpr fun c hc => isNumberChar_of_isDigit (isDigit_toDigits hc)
  cases i with
  | ofNat n =>
    simp [validNumber, decimal, toDigits_ne_minus, dropInteger_toDigits n hstop, hdigits, hchars,
      hrest]
  | negSucc n =>
    simp [validNumber, decimal, dropMinus, dropInteger_toDigits (n + 1) hstop, hdigits, hchars,
      hrest, isNumberChar]

/-- The lexeme of an integer is a number without fraction and exponent. -/
theorem validNumber_decimal (i : ℤ) : validNumber (decimal i) = true := by
  rw [← List.append_nil (decimal i)]
  exact validNumber_append i rfl (by simp) rfl

theorem isInteger_decimal (i : ℤ) : isInteger (decimal i) = true := by
  have hdigits : ∀ n : ℕ, (Nat.toDigits 10 n).all (fun c => c.isDigit || c == '-') = true :=
    fun n => List.all_eq_true.mpr fun c hc => by simp [isDigit_toDigits hc]
  cases i with
  | ofNat n => exact hdigits n
  | negSucc n => simp [isInteger, decimal, hdigits]

theorem readDecimal_decimal (i : ℤ) : readDecimal (decimal i) = i := by
  cases i with
  | ofNat n =>
    cases heq : Nat.toDigits 10 n with
    | nil => exact absurd heq Nat.toDigits_ne_nil
    | cons c cs =>
      have hdigit : c.isDigit = true := isDigit_toDigits (heq ▸ List.mem_cons_self)
      have hne : c ≠ '-' := by rintro rfl; simp at hdigit
      rw [decimal, heq, readDecimal, if_neg hne, ← heq, Nat.ofDigitChars_ten_toDigits]
      rfl
  | negSucc n =>
    rw [decimal, readDecimal, if_pos rfl, Nat.ofDigitChars_ten_toDigits]
    rfl

theorem decimal_injective {i j : ℤ} (h : decimal i = decimal j) : i = j := by
  rw [← readDecimal_decimal i, h, readDecimal_decimal]

/-- A number starts with a digit or a sign. -/
theorem validNumber_head {lexeme : List Char} (h : validNumber lexeme = true) :
    ∃ c cs, lexeme = c :: cs ∧ (c.isDigit = true ∨ c = '-') := by
  cases lexeme with
  | nil => simp [validNumber, dropMinus, dropInteger] at h
  | cons c cs =>
    refine ⟨c, cs, rfl, ?_⟩
    by_cases hminus : c = '-'
    · exact .inr hminus
    · refine .inl ?_
      by_contra hdigit
      have hzero : c ≠ '0' := by rintro rfl; exact hdigit (by decide)
      simp [validNumber, dropMinus, dropInteger, if_neg hminus, if_neg hzero, hdigit] at h

/-! ## Section 5: Reading characters -/

/-- White space between tokens. -/
def isBlank (c : Char) : Bool := c == ' ' || c == '\t' || c == '\n' || c == '\r'

/-- Read a word that is a token. -/
def lexWord (word : List Char) (t : Token) (cs : List Char) : Option (Token × List Char) :=
  if word.isPrefixOf cs then some (t, cs.drop word.length) else none

/-- Read one token. -/
def lexToken : List Char → Option (Token × List Char)
  | [] => none
  | c :: cs =>
    if c = '{' then some (.lbrace, cs)
    else if c = '}' then some (.rbrace, cs)
    else if c = '[' then some (.lbracket, cs)
    else if c = ']' then some (.rbracket, cs)
    else if c = ',' then some (.comma, cs)
    else if c = ':' then some (.colon, cs)
    else if c = '"' then (scanString cs).map fun r => (.string r.1, r.2)
    else if c = 'n' then lexWord ['u', 'l', 'l'] .null cs
    else if c = 't' then lexWord ['r', 'u', 'e'] .true cs
    else if c = 'f' then lexWord ['a', 'l', 's', 'e'] .false cs
    else
      -- the longest run of number characters has to be a number
      let lexeme := (c :: cs).takeWhile isNumberChar
      if validNumber lexeme then some (.number lexeme, (c :: cs).dropWhile isNumberChar) else none

/-- Read all tokens, with fuel for every character. -/
def lex : ℕ → List Char → Option (List Token)
  | _, [] => some []
  | 0, _ :: _ => none
  | fuel + 1, c :: cs =>
    if isBlank c then lex fuel cs
    else match lexToken (c :: cs) with
      | some (t, rest) => (lex fuel rest).map (t :: ·)
      | none => none

/-- Read a text that is one value. -/
def read (text : List Char) : Option Raw := (lex text.length text).bind parseTokens

/-- How values are written: what follows a comma and a colon, and how a character of a string is
escaped. What follows is white space, and an escape is read back as its character. -/
structure Style where
  afterComma : List Char
  afterColon : List Char
  escape : Char → List Char
  blank_comma : ∀ c ∈ afterComma, isBlank c = true
  blank_colon : ∀ c ∈ afterColon, isBlank c = true
  reads : ∀ c cs, scanString (escape c ++ cs) = (scanString cs).map fun r => (c :: r.1, r.2)

namespace Style

variable (style : Style)

/-- The characters of a token. -/
def writeToken : Token → List Char
  | .lbrace => ['{']
  | .rbrace => ['}']
  | .lbracket => ['[']
  | .rbracket => [']']
  | .comma => ',' :: style.afterComma
  | .colon => ':' :: style.afterColon
  | .null => ['n', 'u', 'l', 'l']
  | .true => ['t', 'r', 'u', 'e']
  | .false => ['f', 'a', 'l', 's', 'e']
  | .string s => '"' :: (s.flatMap style.escape ++ ['"'])
  | .number lexeme => lexeme

/-- The characters of tokens. -/
def writeTokens (ts : List Token) : List Char := ts.flatMap style.writeToken

/-- The characters of a value. -/
def write (v : Raw) : List Char := style.writeTokens (tokens v)

end Style

/-- What stands here does not continue a number. -/
def NoNumber (cs : List Char) : Prop := ∀ c ds, cs = c :: ds → isNumberChar c = false

theorem noNumber_nil : NoNumber [] := by rintro c ds ⟨⟩

theorem noNumber_cons {c : Char} {cs : List Char} (h : isNumberChar c = false) :
    NoNumber (c :: cs) := by
  rintro _ _ ⟨⟩
  exact h

/-! ## Section 6: Written tokens are read back -/

section ReadBack

variable {style : Style}

/-- Every number among the tokens is a number, and nothing that continues it follows. -/
def Settled (style : Style) : List Token → List Char → Prop
  | [], _ => True
  | .number lexeme :: ts, cs =>
    validNumber lexeme = true ∧ NoNumber (style.writeTokens ts ++ cs) ∧ Settled style ts cs
  | _ :: ts, cs => Settled style ts cs

/-- The escaped characters of a string and what comes after its closing quote. -/
theorem scanString_escaped (s cs : List Char) :
    scanString (s.flatMap style.escape ++ '"' :: cs) = some (s, cs) := by
  induction s with
  | nil => rw [List.flatMap_nil, List.nil_append, scanString, if_pos rfl]
  | cons c s ih =>
    rw [List.flatMap_cons, List.append_assoc, style.reads, ih]
    rfl

theorem takeWhile_number {lexeme cs : List Char} (h : validNumber lexeme = true)
    (hstop : NoNumber cs) :
    (lexeme ++ cs).takeWhile isNumberChar = lexeme ∧
      (lexeme ++ cs).dropWhile isNumberChar = cs := by
  have hall : ∀ c ∈ lexeme, isNumberChar c = true := by
    rw [validNumber, Bool.and_eq_true, List.all_eq_true] at h
    exact h.1
  rw [List.takeWhile_append_of_pos hall, List.dropWhile_append_of_pos hall]
  cases cs with
  | nil => simp
  | cons c cs => simp [hstop c cs rfl]

/-- White space is passed over. -/
theorem lex_blank {blanks cs : List Char} (hblank : ∀ c ∈ blanks, isBlank c = true) {fuel : ℕ}
    (hfuel : (blanks ++ cs).length ≤ fuel) :
    ∃ fuel', cs.length ≤ fuel' ∧ lex fuel (blanks ++ cs) = lex fuel' cs := by
  induction blanks generalizing fuel with
  | nil => exact ⟨fuel, hfuel, rfl⟩
  | cons c blanks ih =>
    cases fuel with
    | zero => simp at hfuel
    | succ fuel =>
      obtain ⟨fuel', hle, heq⟩ := ih (fun d hd => hblank d (List.mem_cons_of_mem _ hd))
        (by simpa using hfuel)
      refine ⟨fuel', hle, ?_⟩
      rw [List.cons_append, lex, if_pos (hblank c List.mem_cons_self), heq]

/-- A token that is read as itself, up to white space after it. -/
theorem lex_step {c : Char} {cs blanks rest : List Char} {t : Token} (hc : isBlank c = false)
    (htoken : lexToken (c :: cs) = some (t, blanks ++ rest))
    (hblank : ∀ d ∈ blanks, isBlank d = true) {fuel : ℕ}
    (hfuel : (blanks ++ rest).length < fuel) :
    ∃ fuel', rest.length ≤ fuel' ∧ lex fuel (c :: cs) = (lex fuel' rest).map (t :: ·) := by
  cases fuel with
  | zero => simp at hfuel
  | succ fuel =>
    obtain ⟨fuel', hle, heq⟩ := lex_blank hblank (Nat.lt_succ_iff.mp hfuel)
    refine ⟨fuel', hle, ?_⟩
    rw [lex, hc, if_neg Bool.false_ne_true, htoken]
    simp only [heq]

theorem lexToken_number {lexeme cs : List Char} (h : validNumber lexeme = true)
    (hstop : NoNumber cs) : ∃ c ds, lexeme = c :: ds ∧ isBlank c = false ∧
      lexToken (c :: (ds ++ cs)) = some (.number lexeme, cs) := by
  obtain ⟨c, ds, rfl, hhead⟩ := validNumber_head h
  obtain ⟨htake, hdrop⟩ := takeWhile_number h hstop
  refine ⟨c, ds, rfl, ?_, ?_⟩
  · rcases hhead with hdigit | rfl
    · cases hblank : isBlank c with
      | false => rfl
      | true =>
        simp only [isBlank, Bool.or_eq_true, beq_iff_eq] at hblank
        rcases hblank with ((rfl | rfl) | rfl) | rfl <;> simp at hdigit
    · rfl
  · -- a digit or a sign starts no other token
    -- a number begins with a digit or a sign, and no other token does
    have hother : c ≠ '{' ∧ c ≠ '}' ∧ c ≠ '[' ∧ c ≠ ']' ∧ c ≠ ',' ∧ c ≠ ':' ∧ c ≠ '"' ∧
        c ≠ 'n' ∧ c ≠ 't' ∧ c ≠ 'f' := by
      rcases hhead with hdigit | rfl
      · refine ⟨?_, ?_, ?_, ?_, ?_, ?_, ?_, ?_, ?_, ?_⟩ <;>
          (rintro rfl; exact absurd hdigit (by decide))
      · decide
    obtain ⟨h₁, h₂, h₃, h₄, h₅, h₆, h₇, h₈, h₉, h₁₀⟩ := hother
    rw [lexToken, if_neg h₁, if_neg h₂, if_neg h₃, if_neg h₄, if_neg h₅, if_neg h₆, if_neg h₇,
      if_neg h₈, if_neg h₉, if_neg h₁₀]
    rw [List.cons_append] at htake hdrop
    simp only [htake, hdrop, h, if_true]

/-- Reading one written token. -/
theorem lex_writeToken {t : Token} {cs : List Char} (hsettled : Settled style [t] cs) {fuel : ℕ}
    (hfuel : (style.writeToken t ++ cs).length ≤ fuel) :
    ∃ fuel', cs.length ≤ fuel' ∧
      lex fuel (style.writeToken t ++ cs) = (lex fuel' cs).map (t :: ·) := by
  have hnone : ∀ d ∈ ([] : List Char), isBlank d = true := fun d hd => absurd hd List.not_mem_nil
  cases t with
  -- punctuation and words are read off as they stand
  | lbrace => exact lex_step rfl rfl hnone hfuel
  | rbrace => exact lex_step rfl rfl hnone hfuel
  | lbracket => exact lex_step rfl rfl hnone hfuel
  | rbracket => exact lex_step rfl rfl hnone hfuel
  | comma => exact lex_step rfl rfl style.blank_comma hfuel
  | colon => exact lex_step rfl rfl style.blank_colon hfuel
  | null => exact lex_step rfl rfl hnone (by simp [Style.writeToken] at hfuel ⊢; omega)
  | true => exact lex_step rfl rfl hnone (by simp [Style.writeToken] at hfuel ⊢; omega)
  | false => exact lex_step rfl rfl hnone (by simp [Style.writeToken] at hfuel ⊢; omega)
  -- a string is scanned up to its closing quote, whatever it escapes
  | string s =>
    have hread : lexToken ('"' :: (s.flatMap style.escape ++ '"' :: cs)) = some (.string s, cs) := by
      have hscan : scanString (s.flatMap style.escape ++ '"' :: cs) = some (s, cs) :=
        scanString_escaped s cs
      simp only [lexToken, hscan]
      rfl
    have happend : style.writeToken (.string s) ++ cs =
        '"' :: (s.flatMap style.escape ++ '"' :: cs) := by simp [Style.writeToken]
    rw [happend] at hfuel ⊢
    refine lex_step rfl hread hnone ?_
    simp only [List.length_cons, List.length_append] at hfuel ⊢
    simp only [List.length_nil]
    omega
  -- a number ends where it was written to end, since what follows settles it
  | number lexeme =>
    obtain ⟨hvalid, hstop, _⟩ := hsettled
    obtain ⟨c, ds, rfl, hblank, htoken⟩ := lexToken_number hvalid hstop
    refine lex_step hblank htoken hnone ?_
    simp only [Style.writeToken, List.length_append, List.length_cons] at hfuel
    simp only [List.nil_append, Style.writeTokens, List.flatMap_nil]
    omega

/-- Reading written tokens and then the rest. -/
theorem lex_writeTokens {ts : List Token} {cs : List Char} (hsettled : Settled style ts cs)
    {fuel : ℕ} (hfuel : (style.writeTokens ts ++ cs).length ≤ fuel) :
    ∃ fuel', cs.length ≤ fuel' ∧
      lex fuel (style.writeTokens ts ++ cs) = (lex fuel' cs).map (ts ++ ·) := by
  induction ts generalizing fuel with
  | nil => exact ⟨fuel, hfuel, by simp [Style.writeTokens]⟩
  | cons t ts ih =>
    have hhead : Settled style [t] (style.writeTokens ts ++ cs) ∧ Settled style ts cs := by
      cases t with
      | number lexeme => exact ⟨⟨hsettled.1, hsettled.2.1, trivial⟩, hsettled.2.2⟩
      | _ => exact ⟨trivial, hsettled⟩
    have happend : style.writeTokens (t :: ts) ++ cs =
        style.writeToken t ++ (style.writeTokens ts ++ cs) := by simp [Style.writeTokens]
    rw [happend] at hfuel ⊢
    obtain ⟨fuel₁, hle₁, heq₁⟩ := lex_writeToken hhead.1 hfuel
    obtain ⟨fuel₂, hle₂, heq₂⟩ := ih hhead.2 hle₁
    refine ⟨fuel₂, hle₂, ?_⟩
    rw [heq₁, heq₂, Option.map_map]
    rfl

/-- What follows a value inside a text: a comma or a closing bracket, or the end. -/
theorem noNumber_writeTokens {t : Token} (ht : t = .comma ∨ t = .rbracket ∨ t = .rbrace)
    (ts : List Token) (cs : List Char) : NoNumber (style.writeTokens (t :: ts) ++ cs) := by
  rcases ht with rfl | rfl | rfl <;> exact noNumber_cons rfl

mutual

/-- The tokens of a value are settled when the rest is. -/
theorem settled_tokens : ∀ (v : Raw) (ts : List Token) (cs : List Char),
    v.numbersAll validNumber = true → NoNumber (style.writeTokens ts ++ cs) →
      Settled style ts cs → Settled style (tokens v ++ ts) cs
  | .null, ts, cs, _, _, h => h
  | .bool b, ts, cs, _, _, h => by cases b <;> exact h
  | .number lexeme, ts, cs, hv, hstop, h => ⟨hv, hstop, h⟩
  | .string s, ts, cs, _, _, h => h
  | .array [], ts, cs, _, _, h => h
  | .array (x :: xs), ts, cs, hv, _, h => by
    simp only [numbersAll, itemsAll_eq, List.all_cons, Bool.and_eq_true] at hv
    have hxs := settled_itemTokens xs (.rbracket :: ts) cs hv.2
      (noNumber_writeTokens (.inr (.inl rfl)) ts cs) h
    have hx := settled_tokens x _ cs hv.1 hxs.1 hxs.2
    simpa [tokens, Settled] using hx
  | .object [], ts, cs, _, _, h => h
  | .object ((k, x) :: ms), ts, cs, hv, _, h => by
    simp only [numbersAll, membersAll_eq, List.all_cons, Bool.and_eq_true] at hv
    have hms := settled_memberTokens ms (.rbrace :: ts) cs hv.2
      (noNumber_writeTokens (.inr (.inr rfl)) ts cs) h
    have hx := settled_tokens x _ cs hv.1 hms.1 hms.2
    simpa [tokens, Settled] using hx

theorem settled_itemTokens : ∀ (xs : List Raw) (ts : List Token) (cs : List Char),
    (xs.all (numbersAll validNumber) = true) → NoNumber (style.writeTokens ts ++ cs) →
      Settled style ts cs → NoNumber (style.writeTokens (itemTokens xs ++ ts) ++ cs) ∧
        Settled style (itemTokens xs ++ ts) cs
  | [], ts, cs, _, hstop, h => ⟨hstop, h⟩
  | x :: xs, ts, cs, hv, hstop, h => by
    rw [List.all_cons, Bool.and_eq_true] at hv
    have hxs := settled_itemTokens xs ts cs hv.2 hstop h
    have hx := settled_tokens x _ cs hv.1 hxs.1 hxs.2
    refine ⟨noNumber_writeTokens (.inl rfl) _ cs, ?_⟩
    simpa [itemTokens, Settled] using hx

theorem settled_memberTokens : ∀ (ms : List (String × Raw)) (ts : List Token) (cs : List Char),
    (ms.all (fun m => numbersAll validNumber m.2) = true) →
      NoNumber (style.writeTokens ts ++ cs) → Settled style ts cs →
        NoNumber (style.writeTokens (memberTokens ms ++ ts) ++ cs) ∧
          Settled style (memberTokens ms ++ ts) cs
  | [], ts, cs, _, hstop, h => ⟨hstop, h⟩
  | (k, x) :: ms, ts, cs, hv, hstop, h => by
    rw [List.all_cons, Bool.and_eq_true] at hv
    have hms := settled_memberTokens ms ts cs hv.2 hstop h
    have hx := settled_tokens x _ cs hv.1 hms.1 hms.2
    refine ⟨noNumber_writeTokens (.inl rfl) _ cs, ?_⟩
    simpa [memberTokens, Settled] using hx

end

/-! ## Section 7: Whole texts -/

/-- **Round trip**: a written value, with white space after it, is read back. -/
theorem read_write {v : Raw} (hv : v.numbersAll validNumber = true) {blanks : List Char}
    (hblank : ∀ c ∈ blanks, isBlank c = true) : read (style.write v ++ blanks) = some v := by
  have hstop : NoNumber (style.writeTokens [] ++ blanks) := by
    cases blanks with
    | nil => exact noNumber_nil
    | cons c cs =>
      refine noNumber_cons ?_
      have hc := hblank c List.mem_cons_self
      simp only [isBlank, Bool.or_eq_true, beq_iff_eq] at hc
      rcases hc with ((rfl | rfl) | rfl) | rfl <;> rfl
  have hsettled := settled_tokens v [] blanks hv hstop trivial
  rw [List.append_nil] at hsettled
  obtain ⟨fuel, hle, hlex⟩ := lex_writeTokens hsettled (le_refl _)
  obtain ⟨fuel', _, hend⟩ := @lex_blank blanks [] hblank _ (by simpa using hle)
  have hall : lex (style.write v ++ blanks).length (style.write v ++ blanks) =
      some (tokens v) := by
    rw [List.append_nil] at hend
    rw [Style.write, hlex, hend]
    cases fuel' <;> simp [lex]
  rw [read, hall, Option.bind_some, parseTokens_tokens]

/-- Written values are equal when their texts are. -/
theorem write_injective {v w : Raw} (hv : v.numbersAll validNumber = true)
    (hw : w.numbersAll validNumber = true) (h : style.write v = style.write w) : v = w := by
  have hnone : ∀ c ∈ ([] : List Char), isBlank c = true := fun c hc => absurd hc List.not_mem_nil
  have hread := @read_write style _ hv _ hnone
  rw [h, read_write hw hnone] at hread
  exact (Option.some.inj hread).symm

/-! ## Section 8: Characters of a text -/

/-- The numbers among settled tokens are numbers. -/
theorem Settled.number {ts : List Token} {cs lexeme : List Char} (h : Settled style ts cs)
    (hmem : .number lexeme ∈ ts) : validNumber lexeme = true := by
  induction ts with
  | nil => cases hmem
  | cons t ts ih =>
    rcases List.mem_cons.mp hmem with rfl | htail
    · exact h.1
    · cases t with
      | number _ => exact ih h.2.2 htail
      | _ => exact ih h htail

/-- The visible characters of ASCII. -/
def Visible (c : Char) : Prop := 32 ≤ c.toNat ∧ c.toNat < 127

instance (c : Char) : Decidable (Visible c) := inferInstanceAs (Decidable (_ ∧ _))

/-- The letter of a short escape is visible. -/
theorem visible_shortEscape {d e : Char} (h : shortEscape d = some e) : Visible e := by
  unfold shortEscape at h
  split at h
  · next hquote =>
    obtain rfl := Option.some.inj h
    rcases hquote with rfl | rfl <;> decide
  · repeat' split at h
    all_goals first | cases h; decide | cases h

/-- A control character is written as an escape. -/
theorem control_notMem_escape {c : Char} (hc : c.toNat < 32) (d : Char) : c ∉ escape d := by
  have hhex : ∀ n, n < 16 → 32 ≤ (Nat.digitChar n).toNat := by decide
  unfold escape
  cases hshort : shortEscape d with
  | some e =>
    -- both characters of a short escape are visible
    have he : 32 ≤ e.toNat := (visible_shortEscape hshort).1
    intro hmem
    rcases List.mem_cons.mp hmem with rfl | hmem
    · exact absurd hc (by decide)
    · rw [List.mem_singleton.mp hmem] at hc
      omega
  | none =>
    by_cases hd : d.toNat < 32
    -- a control character without a short escape becomes `\u` and four hexadecimal digits
    · simp only [if_pos hd, escapeUnit, hexDigits]
      intro hmem
      simp only [List.mem_cons, List.not_mem_nil, or_false] at hmem
      have hdigit : ∀ n, c ≠ Nat.digitChar (n % 16) := by
        intro n heq
        have hle := hhex (n % 16) (Nat.mod_lt _ (by decide))
        rw [heq] at hc
        omega
      rcases hmem with rfl | rfl | h | h | h | h
      · exact absurd hc (by decide)
      · exact absurd hc (by decide)
      all_goals exact hdigit _ h
    -- any other stands as it is, and is none
    · simp only [if_neg hd, List.mem_singleton]
      rintro rfl
      exact hd hc

/-- The characters of a number are visible. -/
theorem visible_of_isNumberChar {c : Char} (h : isNumberChar c = true) : Visible c := by
  simp only [isNumberChar, Char.isDigit, Bool.or_eq_true, Bool.and_eq_true, decide_eq_true_eq,
    beq_iff_eq] at h
  rcases h with ((((hdigit | rfl) | rfl) | rfl) | rfl) | rfl
  · have hlow : 48 ≤ c.toNat := hdigit.1
    have hhigh : c.toNat ≤ 57 := hdigit.2
    constructor <;> omega
  all_goals decide

/-- A text has the property of all its characters that the visible characters have, what a style
puts in, and the escapes of the style. -/
theorem forall_mem_write {p : Char → Prop} (hvisible : ∀ c, Visible c → p c)
    (hcomma : ∀ c ∈ style.afterComma, p c) (hcolon : ∀ c ∈ style.afterColon, p c)
    (hescape : ∀ d, ∀ c ∈ style.escape d, p c) {v : Raw}
    (hv : v.numbersAll validNumber = true) : ∀ c ∈ style.write v, p c := by
  have hplain : ∀ ds : List Char, (ds.all fun d => decide (Visible d)) = true → ∀ d ∈ ds, p d :=
    fun ds hds d hd => hvisible d (of_decide_eq_true (List.all_eq_true.mp hds d hd))
  -- a character that is written belongs to some token
  have hsettled := @settled_tokens style v [] [] hv noNumber_nil trivial
  rw [List.append_nil] at hsettled
  intro c hmem
  obtain ⟨t, ht, hct⟩ := List.mem_flatMap.mp hmem
  cases t with
  -- a number is written as its lexeme, whose characters are all visible
  | number lexeme =>
    have hvalid := hsettled.number ht
    simp only [validNumber, Bool.and_eq_true, List.all_eq_true] at hvalid
    exact hvisible c (visible_of_isNumberChar (hvalid.1 c hct))
  -- a string is its escaped characters between two quotes
  | string s =>
    simp only [Style.writeToken, List.mem_cons, List.mem_append, List.mem_flatMap,
      List.not_mem_nil, or_false] at hct
    rcases hct with rfl | ⟨d, _, h⟩ | rfl
    · exact hvisible _ (by decide)
    · exact hescape d c h
    · exact hvisible _ (by decide)
  | comma =>
    rcases List.mem_cons.mp hct with rfl | h
    · exact hvisible _ (by decide)
    · exact hcomma c h
  | colon =>
    rcases List.mem_cons.mp hct with rfl | h
    · exact hvisible _ (by decide)
    · exact hcolon c h
  -- what is left are the words and the brackets
  | _ =>
    simp only [Style.writeToken] at hct
    exact hplain _ (by decide) c hct

/-- A control character that a style does not put in is in no text of that style. -/
theorem control_notMem_write {c : Char} (hc : c.toNat < 32) (hcomma : c ∉ style.afterComma)
    (hcolon : c ∉ style.afterColon) (hescape : ∀ d, c ∉ style.escape d) {v : Raw}
    (hv : v.numbersAll validNumber = true) : c ∉ style.write v := by
  have hother : ∀ d ∈ style.write v, d ≠ c := by
    refine forall_mem_write (p := fun d => d ≠ c) ?_ ?_ ?_ ?_ hv
    · intro d hd heq
      exact absurd hd.1 (by rw [heq]; omega)
    · exact fun d hd heq => hcomma (heq ▸ hd)
    · exact fun d hd heq => hcolon (heq ▸ hd)
    · exact fun e d hd heq => hescape e (heq ▸ hd)
  exact fun hmem => hother c hmem rfl

/-- An escape in ASCII is visible. -/
theorem visible_escapeAscii (d : Char) : ∀ c ∈ escapeAscii d, Visible c := by
  -- each code unit is written in ASCII
  have hunit : ∀ u, ∀ c ∈ escapeUnit u, Visible c := by
    have hdigit : ∀ n, n < 16 → Visible (Nat.digitChar n) := by decide
    intro u c hc
    simp only [escapeUnit, hexDigits, List.mem_cons, List.not_mem_nil, or_false] at hc
    rcases hc with rfl | rfl | rfl | rfl | rfl | rfl
    · decide
    · decide
    all_goals exact hdigit _ (Nat.mod_lt _ (by decide))
  unfold escapeAscii
  cases hshort : shortEscape d with
  | some e =>
    intro c hc
    simp only [List.mem_cons, List.not_mem_nil, or_false] at hc
    rcases hc with rfl | rfl
    · decide
    · exact visible_shortEscape hshort
  | none =>
    simp only
    split_ifs with hplain hbasic
    · intro c hc
      rw [List.mem_singleton.mp hc]
      exact ⟨hplain.1, Nat.lt_succ_of_le hplain.2⟩
    -- outside the basic plane there are two units, a surrogate pair
    · exact hunit _
    · intro c hc
      rcases List.mem_append.mp hc with hhigh | hlow
      · exact hunit _ c hhigh
      · exact hunit _ c hlow

end ReadBack

end Json

end Library
