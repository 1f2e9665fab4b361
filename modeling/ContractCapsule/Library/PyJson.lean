import Mathlib.Data.List.Sort
import Mathlib.Data.List.TakeWhile
import ContractCapsule.Library.Transaction
import ContractCapsule.Library.Unicode

/-!
# Python's `json` over Code Points

The strings of a Python document may hold surrogates, so values and texts here are made of code
points. `loads` is the decoder with its nesting limit and its hooks, `dumps` the encoder with
sorted keys that writes non-ASCII characters as they are.

`parse_reads` says what the decoder accepts: no control character stands in a text it reads, and a
surrogate of the text is one of the value. `visible_dumps` and `encodable_dumps` say what the
encoder writes: no control character, and a surrogate exactly where the value has one.
-/

namespace Library

/-! ## Section 1: Values -/

/-- A JSON value as Python holds it. -/
inductive PyJson (ν : Type) where
  | null
  | bool (b : Bool)
  | number (n : ν)
  | str (s : Text)
  | list (items : List (PyJson ν))
  | dict (members : List (Text × PyJson ν))

namespace PyJson

variable {ν : Type}

mutual

/-- No string of the value has a surrogate. -/
def encodes : PyJson ν → Bool
  | .null => true
  | .bool _ => true
  | .number _ => true
  | .str s => encodable s
  | .list items => itemsEncode items
  | .dict members => membersEncode members

/-- No string of the items has a surrogate. -/
def itemsEncode : List (PyJson ν) → Bool
  | [] => true
  | v :: vs => encodes v && itemsEncode vs

/-- No key and no string of the members has a surrogate. -/
def membersEncode : List (Text × PyJson ν) → Bool
  | [] => true
  | (key, v) :: ms => encodable key && encodes v && membersEncode ms

end

mutual

/-- A condition holds of every leaf of the value that is no string and no constant. -/
def leavesAll (p : ν → Bool) : PyJson ν → Bool
  | .null => true
  | .bool _ => true
  | .number n => p n
  | .str _ => true
  | .list items => itemsAll p items
  | .dict members => membersAll p members

/-- A condition holds of the leaves of the items. -/
def itemsAll (p : ν → Bool) : List (PyJson ν) → Bool
  | [] => true
  | v :: vs => leavesAll p v && itemsAll p vs

/-- A condition holds of the leaves of the members. -/
def membersAll (p : ν → Bool) : List (Text × PyJson ν) → Bool
  | [] => true
  | (_, v) :: ms => leavesAll p v && membersAll p ms

end

theorem itemsEncode_iff (vs : List (PyJson ν)) :
    itemsEncode vs = true ↔ ∀ v ∈ vs, encodes v = true := by
  induction vs with
  | nil => simp [itemsEncode]
  | cons v vs ih => simp [itemsEncode, ih]

theorem membersEncode_iff (ms : List (Text × PyJson ν)) :
    membersEncode ms = true ↔ ∀ m ∈ ms, encodable m.1 = true ∧ encodes m.2 = true := by
  induction ms with
  | nil => simp [membersEncode]
  | cons m ms ih =>
    obtain ⟨key, v⟩ := m
    simp [membersEncode, ih]

/-- The member of a dictionary under a key. -/
def get? (members : List (Text × PyJson ν)) (key : Text) : Option (PyJson ν) :=
  (members.find? fun m => m.1 = key).map Prod.snd

/-- A dictionary of pairs: a later value of a key takes the place of the earlier one. -/
def dictOf (pairs : List (Text × PyJson ν)) : List (Text × PyJson ν) :=
  pairs.foldl (fun members pair =>
    if members.any fun m => m.1 = pair.1 then
      members.map fun m => if m.1 = pair.1 then pair else m
    else members ++ [pair]) []

end PyJson

/-! ## Section 2: Characters -/

/-- The white space of JSON. -/
def jsonBlank (c : CodePoint) : Bool :=
  c = ofChar ' ' || c = ofChar '\t' || c = ofChar '\n' || c = ofChar '\r'

/-- A code point that may stand in a JSON text: no control character but white space. -/
def plain (c : CodePoint) : Bool := jsonBlank c || 0x20 ≤ c.val

/-- A digit. -/
def jsonDigit (c : CodePoint) : Bool := 0x30 ≤ c.val && c.val ≤ 0x39

/-- The value of a hexadecimal digit. -/
def hexValue (c : CodePoint) : Option ℕ :=
  if 0x30 ≤ c.val ∧ c.val ≤ 0x39 then some (c.val - 0x30)
  else if 0x61 ≤ c.val ∧ c.val ≤ 0x66 then some (c.val - 0x57)
  else if 0x41 ≤ c.val ∧ c.val ≤ 0x46 then some (c.val - 0x37)
  else none

/-- The code point of an escape of one letter. -/
def letterEscape (c : CodePoint) : Option CodePoint :=
  if c = ofChar '"' then some c
  else if c = ofChar '\\' then some c
  else if c = ofChar '/' then some c
  else if c = ofChar 'b' then some (codePoint 0x08)
  else if c = ofChar 'f' then some (codePoint 0x0C)
  else if c = ofChar 'n' then some (codePoint 0x0A)
  else if c = ofChar 'r' then some (codePoint 0x0D)
  else if c = ofChar 't' then some (codePoint 0x09)
  else none

/-- Skip white space. -/
def skipBlank (t : Text) : Text := t.dropWhile jsonBlank

/-! ## Section 3: Strings -/

/-- A unit of a string: a code point, or four hexadecimal digits. -/
inductive StringUnit where
  | raw (c : CodePoint)
  | escaped (n : ℕ)

/-- Where the scanner of a string stands. -/
inductive StringState where
  | body
  | escape
  | hex (missing value : ℕ)

/-- The units of a string up to its closing quote, and what follows; control characters are
refused. -/
def scanUnits : StringState → Text → Option (List StringUnit × Text)
  | _, [] => none
  | .body, c :: rest =>
    if c = ofChar '"' then some ([], rest)
    else if c = ofChar '\\' then scanUnits .escape rest
    else if c.val < 0x20 then none
    else (scanUnits .body rest).map fun r => (.raw c :: r.1, r.2)
  | .escape, c :: rest =>
    if c = ofChar 'u' then scanUnits (.hex 3 0) rest
    else (letterEscape c).bind fun e => (scanUnits .body rest).map fun r => (.raw e :: r.1, r.2)
  | .hex missing value, c :: rest =>
    (hexValue c).bind fun digit =>
      match missing with
      | 0 => (scanUnits .body rest).map fun r => (.escaped (value * 16 + digit) :: r.1, r.2)
      | more + 1 => scanUnits (.hex more (value * 16 + digit)) rest

/-- The code points of a string: two escapes in a row may make one. -/
def joinUnits : List StringUnit → Text
  | [] => []
  | .raw c :: units => c :: joinUnits units
  | .escaped n :: .escaped m :: units =>
    if isHighSurrogate n && isLowSurrogate m then joinSurrogates n m :: joinUnits units
    else codePoint n :: joinUnits (.escaped m :: units)
  | .escaped n :: units => codePoint n :: joinUnits units

/-- `scanstring`, behind the opening quote. -/
def scanText (t : Text) : Option (Text × Text) :=
  (scanUnits .body t).map fun r => (joinUnits r.1, r.2)

/-! ## Section 4: Numbers -/

/-- The integer part of a number, without the sign. -/
def scanInteger : Text → Option (Text × Text)
  | [] => none
  | c :: rest =>
    if c = ofChar '0' then some ([c], rest)
    else if jsonDigit c then some (c :: rest.takeWhile jsonDigit, rest.dropWhile jsonDigit)
    else none

/-- The fraction of a number; empty when there is none. -/
def scanFraction : Text → Text × Text
  | point :: digit :: rest =>
    if point = ofChar '.' ∧ jsonDigit digit then
      (point :: digit :: rest.takeWhile jsonDigit, rest.dropWhile jsonDigit)
    else ([], point :: digit :: rest)
  | t => ([], t)

/-- The sign of an exponent; empty when there is none. -/
def scanSign : Text → Text × Text
  | c :: rest => if c = ofChar '+' ∨ c = ofChar '-' then ([c], rest) else ([], c :: rest)
  | [] => ([], [])

/-- The exponent of a number; empty when there is none. -/
def scanExponent : Text → Text × Text
  | [] => ([], [])
  | e :: rest =>
    match (scanSign rest).2 with
    | digit :: rest' =>
      if (e = ofChar 'e' ∨ e = ofChar 'E') ∧ jsonDigit digit then
        (e :: (scanSign rest).1 ++ digit :: rest'.takeWhile jsonDigit, rest'.dropWhile jsonDigit)
      else ([], e :: rest)
    | [] => ([], e :: rest)

/-- The lexeme of an unsigned number. -/
def scanUnsigned (t : Text) : Option (Text × Text) :=
  (scanInteger t).map fun integer =>
    let fraction := scanFraction integer.2
    let exponent := scanExponent fraction.2
    (integer.1 ++ fraction.1 ++ exponent.1, exponent.2)

/-- The lexeme of a number. -/
def scanNumber : Text → Option (Text × Text)
  | [] => none
  | c :: rest =>
    if c = ofChar '-' then (scanUnsigned rest).map fun r => (c :: r.1, r.2)
    else scanUnsigned (c :: rest)

/-- What follows a word. -/
def scanWord (word t : Text) : Option Text :=
  if word.isPrefixOf t then some (t.drop word.length) else none

/-! ## Section 5: `loads` -/

/-- What `loads` raises: `ValueError`, of which `JSONDecodeError`, `UnicodeDecodeError` and the
errors of hooks are kinds, or `RecursionError`. -/
inductive LoadsError where
  | valueError
  | recursionError
deriving DecidableEq, Repr

/-- A decoder: how many containers may be nested, how a number is made of its lexeme, and what
becomes of the pairs of an object. -/
structure PyDecoder (ν : Type) where
  limit : ℕ
  number : Text → Except LoadsError ν
  pairs : List (Text × PyJson ν) → Except LoadsError (List (Text × PyJson ν))

/-- A reader of some text in front. -/
abbrev Reader (α : Type) := Text → Except LoadsError (α × Text)

/-- The items of a container up to its closing bracket, with a comma between any two. -/
def readItems {α : Type} (item : Reader α) (close : CodePoint) : ℕ → Reader (List α)
  | 0, _ => .error .valueError
  | fuel + 1, t => do
    let (x, rest) ← item t
    match skipBlank rest with
    | [] => .error .valueError
    | c :: rest =>
      if c = close then .ok ([x], rest)
      else if c = ofChar ',' then do
        let (xs, rest) ← readItems item close fuel (skipBlank rest)
        .ok (x :: xs, rest)
      else .error .valueError

/-- The items of a container, behind its opening bracket. -/
def readContainer {α : Type} (item : Reader α) (close : CodePoint) : Reader (List α) := fun t =>
  match skipBlank t with
  | [] => .error .valueError
  | c :: rest =>
    if c = close then .ok ([], rest)
    else readItems item close (rest.length + 2) (c :: rest)

/-- A string, which must be there. -/
def readText : Reader Text := fun t =>
  match t with
  | [] => .error .valueError
  | c :: rest => if c = ofChar '"' then orRaise (scanText rest) .valueError else .error .valueError

/-- A member of an object. -/
def readMember {α : Type} (value : Reader α) : Reader (Text × α) := fun t => do
  let (key, rest) ← readText t
  match skipBlank rest with
  | [] => .error .valueError
  | c :: rest =>
    if c = ofChar ':' then do
      let (v, rest) ← value (skipBlank rest)
      .ok ((key, v), rest)
    else .error .valueError

namespace PyDecoder

variable {ν : Type} (D : PyDecoder ν)

/-- A number or one of the constants `NaN`, `Infinity` and `-Infinity`. -/
def readNumber : Reader (PyJson ν) := fun t =>
  match scanWord (textOf "NaN") t with
  | some rest => do
    let n ← D.number (textOf "NaN")
    .ok (.number n, rest)
  | none =>
    match scanWord (textOf "Infinity") t with
    | some rest => do
      let n ← D.number (textOf "Infinity")
      .ok (.number n, rest)
    | none =>
      match scanWord (textOf "-Infinity") t with
      | some rest => do
        let n ← D.number (textOf "-Infinity")
        .ok (.number n, rest)
      | none => do
        let (lexeme, rest) ← orRaise (scanNumber t) .valueError
        let n ← D.number lexeme
        .ok (.number n, rest)

/-- A value that is no string and no container. -/
def readScalar : Reader (PyJson ν) := fun t =>
  match scanWord (textOf "null") t with
  | some rest => .ok (.null, rest)
  | none =>
    match scanWord (textOf "true") t with
    | some rest => .ok (.bool true, rest)
    | none =>
      match scanWord (textOf "false") t with
      | some rest => .ok (.bool false, rest)
      | none => D.readNumber t

/-- A value, with a reader of the values inside it; without one the nesting limit is reached. -/
def readWith (nested : Option (Reader (PyJson ν))) : Reader (PyJson ν) := fun t =>
  match t with
  | [] => .error .valueError
  | c :: rest =>
    if c = ofChar '"' then do
      let (s, rest) ← readText (c :: rest)
      .ok (.str s, rest)
    else if c = ofChar '{' then do
      let value ← orRaise nested .recursionError
      let (pairs, rest) ← readContainer (readMember value) (ofChar '}') rest
      let members ← D.pairs pairs
      .ok (.dict members, rest)
    else if c = ofChar '[' then do
      let value ← orRaise nested .recursionError
      let (items, rest) ← readContainer value (ofChar ']') rest
      .ok (.list items, rest)
    else D.readScalar (c :: rest)

/-- A value with at most so many nested containers. -/
def readValue : ℕ → Reader (PyJson ν)
  | 0 => D.readWith none
  | depth + 1 => D.readWith (some (readValue depth))

/-- `JSONDecoder.decode` -/
def parse (t : Text) : Except LoadsError (PyJson ν) := do
  let (v, rest) ← D.readValue D.limit (skipBlank t)
  raiseIf (skipBlank rest ≠ []) .valueError
  pure v

/-- `json.loads` of a `str`. -/
def loads (t : Text) : Except LoadsError (PyJson ν) := do
  raiseIf (t.head? = some byteOrderMark) .valueError
  D.parse t

/-- `json.loads` of `bytes`. -/
def loadsBytes (b : List UInt8) : Except LoadsError (PyJson ν) := do
  let t ← orRaise (decodeAs (detectEncoding b) b) .valueError
  D.parse t

end PyDecoder

/-! ## Section 6: What a reader takes -/

/-- The characters that a reader takes are no control characters, and `S` holds if one of them is
a surrogate. -/
def Clean (S : Prop) (used : Text) : Prop :=
  ∀ c ∈ used, plain c = true ∧ (isSurrogate c = true → S)

/-- A reader takes clean characters in front of a text and leaves the rest. -/
def Takes (S : Prop) (t rest : Text) : Prop := ∃ used, t = used ++ rest ∧ Clean S used

/-- A reader takes one clean character at least. -/
def Reads (S : Prop) (t rest : Text) : Prop :=
  ∃ c tail, t = c :: tail ∧ plain c = true ∧ (isSurrogate c = true → S) ∧ Takes S tail rest

section Takes

variable {S S' : Prop} {t rest rest' : Text}

theorem Takes.refl (S : Prop) (t : Text) : Takes S t t := ⟨[], rfl, by simp [Clean]⟩

theorem Takes.trans (h : Takes S t rest) (h' : Takes S rest rest') : Takes S t rest' := by
  obtain ⟨used, rfl, hused⟩ := h
  obtain ⟨used', rfl, hused'⟩ := h'
  refine ⟨used ++ used', (List.append_assoc _ _ _).symm, ?_⟩
  intro c hc
  rcases List.mem_append.mp hc with hfirst | hsecond
  · exact hused c hfirst
  · exact hused' c hsecond

theorem Takes.mono (hS : S → S') (h : Takes S t rest) : Takes S' t rest := by
  obtain ⟨used, rfl, hused⟩ := h
  exact ⟨used, rfl, fun c hc => ⟨(hused c hc).1, fun hsurrogate => hS ((hused c hc).2 hsurrogate)⟩⟩

theorem Reads.takes (h : Reads S t rest) : Takes S t rest := by
  obtain ⟨c, tail, rfl, hplain, hsurrogate, used, rfl, hused⟩ := h
  refine ⟨c :: used, rfl, ?_⟩
  intro d hd
  rcases List.mem_cons.mp hd with rfl | hin
  · exact ⟨hplain, hsurrogate⟩
  · exact hused d hin

theorem Reads.mono (hS : S → S') (h : Reads S t rest) : Reads S' t rest := by
  obtain ⟨c, tail, rfl, hplain, hsurrogate, htakes⟩ := h
  exact ⟨c, tail, rfl, hplain, fun h => hS (hsurrogate h), htakes.mono hS⟩

theorem Reads.trans (h : Reads S t rest) (h' : Takes S rest rest') : Reads S t rest' := by
  obtain ⟨c, tail, rfl, hplain, hsurrogate, htakes⟩ := h
  exact ⟨c, tail, rfl, hplain, hsurrogate, htakes.trans h'⟩

theorem Takes.length_le (h : Takes S t rest) : rest.length ≤ t.length := by
  obtain ⟨used, rfl, _⟩ := h
  simp

theorem Reads.shorter (h : Reads S t rest) : rest.length < t.length := by
  obtain ⟨c, tail, rfl, _, _, htakes⟩ := h
  have hlength := htakes.length_le
  simp only [List.length_cons]
  omega

end Takes

/-- A code point that is neither a control character nor a surrogate. -/
def quiet (c : CodePoint) : Bool := plain c && !isSurrogate c

theorem quiet_iff {c : CodePoint} : quiet c = true ↔ plain c = true ∧ isSurrogate c = false := by
  simp [quiet]

/-- Taking a quiet character. -/
theorem Takes.cons {S : Prop} {c : CodePoint} {t rest : Text} (hc : quiet c = true)
    (h : Takes S t rest) : Takes S (c :: t) rest := by
  obtain ⟨hplain, hsurrogate⟩ := quiet_iff.mp hc
  exact Reads.takes ⟨c, t, rfl, hplain, by simp [hsurrogate], h⟩

/-- Reading on behind a quiet character. -/
theorem Reads.of_takes {S : Prop} {c : CodePoint} {t rest : Text} (hc : quiet c = true)
    (h : Takes S t rest) : Reads S (c :: t) rest := by
  obtain ⟨hplain, hsurrogate⟩ := quiet_iff.mp hc
  exact ⟨c, t, rfl, hplain, by simp [hsurrogate], h⟩

/-- Taking quiet characters. -/
theorem takes_quiet (S : Prop) {used : Text} (h : ∀ c ∈ used, quiet c = true) (rest : Text) :
    Takes S (used ++ rest) rest := by
  refine ⟨used, rfl, fun c hc => ?_⟩
  obtain ⟨hplain, hsurrogate⟩ := quiet_iff.mp (h c hc)
  exact ⟨hplain, by simp [hsurrogate]⟩

theorem quiet_jsonBlank {c : CodePoint} (h : jsonBlank c = true) : quiet c = true := by
  apply quiet_iff.mpr
  refine ⟨by rw [plain, h]; rfl, ?_⟩
  simp only [jsonBlank, Bool.or_eq_true, decide_eq_true_eq] at h
  rcases h with ((rfl | rfl) | rfl) | rfl <;> exact isSurrogate_ofChar _

theorem quiet_of_range {c : CodePoint} (hlow : 0x20 ≤ c.val) (hhigh : c.val < 0xD800) :
    quiet c = true := by
  apply quiet_iff.mpr
  constructor
  · simp [plain, hlow]
  · simp only [isSurrogate, Bool.and_eq_false_iff, decide_eq_false_iff_not]
    omega

theorem quiet_jsonDigit {c : CodePoint} (h : jsonDigit c = true) : quiet c = true := by
  simp only [jsonDigit, Bool.and_eq_true, decide_eq_true_eq] at h
  exact quiet_of_range (by omega) (by omega)

theorem quiet_hexValue {c : CodePoint} {n : ℕ} (h : hexValue c = some n) : quiet c = true := by
  apply quiet_of_range <;>
    · by_contra hrange
      rw [hexValue, if_neg (by omega), if_neg (by omega), if_neg (by omega)] at h
      cases h

/-- A visible ASCII character is quiet. -/
theorem quiet_ofChar {ch : Char} (hlow : 0x20 ≤ ch.toNat) (hhigh : ch.toNat < 0x80) :
    quiet (ofChar ch) = true := by
  apply quiet_of_range <;> rw [ofChar_val] <;> omega

theorem takes_skipBlank (S : Prop) (t : Text) : Takes S t (skipBlank t) := by
  have hsplit : t = t.takeWhile jsonBlank ++ t.dropWhile jsonBlank :=
    (List.takeWhile_append_dropWhile).symm
  rw [skipBlank]
  conv_lhs => rw [hsplit]
  apply takes_quiet
  exact fun c hc => quiet_jsonBlank (List.mem_takeWhile_imp hc)

/-- The digits in front. -/
theorem takes_digits (S : Prop) (t : Text) : Takes S t (t.dropWhile jsonDigit) := by
  have hsplit : t = t.takeWhile jsonDigit ++ t.dropWhile jsonDigit :=
    (List.takeWhile_append_dropWhile).symm
  conv_lhs => rw [hsplit]
  apply takes_quiet
  exact fun c hc => quiet_jsonDigit (List.mem_takeWhile_imp hc)

/-- A surrogate that stands as it is stays in the string. -/
theorem mem_joinUnits {c : CodePoint} {units : List StringUnit} (h : StringUnit.raw c ∈ units) :
    c ∈ joinUnits units := by
  induction units using joinUnits.induct with
  | case1 => cases h
  -- a raw character is written; a pair of surrogates becomes one character, and neither of them is
  -- raw
  | case2 d units ih =>
    rw [joinUnits]
    rcases List.mem_cons.mp h with heq | hrest
    · cases heq
      exact List.mem_cons_self
    · exact List.mem_cons_of_mem _ (ih hrest)
  | case3 n m units hpair ih =>
    rw [joinUnits, if_pos hpair]
    apply List.mem_cons_of_mem
    apply ih
    simpa using h
  | case4 n m units hpair ih =>
    rw [joinUnits, if_neg hpair]
    apply List.mem_cons_of_mem
    apply ih
    simpa using h
  | case5 n units hlast ih =>
    rw [joinUnits]
    · apply List.mem_cons_of_mem
      apply ih
      simpa using h
    · exact hlast

/-- The scanner of a string takes clean characters; a surrogate among them is a unit. -/
theorem takes_scanUnits {st : StringState} {t rest : Text} {units : List StringUnit}
    (h : scanUnits st t = some (units, rest)) :
    Takes (∃ c, StringUnit.raw c ∈ units ∧ isSurrogate c = true) t rest := by
  induction t generalizing st units with
  | nil => cases st <;> cases h
  | cons c t ih =>
    cases st with
    | body =>
      rw [scanUnits] at h
      split_ifs at h with hquote hescape hcontrol
      · -- the closing quote
        have htail : t = rest := congrArg Prod.snd (Option.some.inj h)
        rw [htail, hquote]
        exact (Takes.refl _ _).cons (quiet_ofChar (by decide) (by decide))
      · rw [hescape]
        exact (ih h).cons (quiet_ofChar (by decide) (by decide))
      · -- a character of the string
        obtain ⟨⟨more, rest'⟩, hmore, hunits⟩ := Option.map_eq_some_iff.mp h
        cases hunits
        have hmono : (∃ d, StringUnit.raw d ∈ more ∧ isSurrogate d = true) →
            ∃ d, StringUnit.raw d ∈ StringUnit.raw c :: more ∧ isSurrogate d = true := by
          intro hexists
          obtain ⟨d, hd, hsurrogate⟩ := hexists
          exact ⟨d, List.mem_cons_of_mem _ hd, hsurrogate⟩
        apply Reads.takes
        refine ⟨c, t, rfl, ?_, ?_, (ih hmore).mono hmono⟩
        · simp [plain, Nat.not_lt.mp hcontrol]
        · exact fun hsurrogate => ⟨c, List.mem_cons_self, hsurrogate⟩
    | escape =>
      rw [scanUnits] at h
      split_ifs at h with hunicode
      · rw [hunicode]
        exact (ih h).cons (quiet_ofChar (by decide) (by decide))
      · obtain ⟨e, he, h⟩ := Option.bind_eq_some_iff.mp h
        obtain ⟨⟨more, rest'⟩, hmore, hunits⟩ := Option.map_eq_some_iff.mp h
        cases hunits
        have hletter : quiet c = true := by
          rw [letterEscape] at he
          split_ifs at he with h₁ h₂ h₃ h₄ h₅ h₆ h₇ h₈
          all_goals
            subst c
            exact quiet_ofChar (by decide) (by decide)
        apply Takes.cons hletter
        apply (ih hmore).mono
        intro hexists
        obtain ⟨d, hd, hsurrogate⟩ := hexists
        exact ⟨d, List.mem_cons_of_mem _ hd, hsurrogate⟩
    | hex missing value =>
      rw [scanUnits] at h
      obtain ⟨digit, hdigit, h⟩ := Option.bind_eq_some_iff.mp h
      apply Takes.cons (quiet_hexValue hdigit)
      cases missing with
      | succ more => exact ih h
      | zero =>
        obtain ⟨⟨more, rest'⟩, hmore, hunits⟩ := Option.map_eq_some_iff.mp h
        cases hunits
        apply (ih hmore).mono
        intro hexists
        obtain ⟨d, hd, hsurrogate⟩ := hexists
        exact ⟨d, List.mem_cons_of_mem _ hd, hsurrogate⟩

theorem encodable_eq_false {s : Text} :
    encodable s = false ↔ ∃ c ∈ s, isSurrogate c = true := by
  simp [encodable]

/-- A string that is read has the surrogates of its text. -/
theorem reads_readText {t rest s : Text} (h : readText t = .ok (s, rest)) :
    Reads (encodable s = false) t rest := by
  cases t with
  | nil => cases h
  | cons c t =>
    rw [readText] at h
    split_ifs at h with hquote
    rw [orRaise_eq_ok, scanText, Option.map_eq_some_iff] at h
    obtain ⟨⟨units, rest'⟩, hunits, heq⟩ := h
    cases heq
    rw [hquote]
    apply Reads.of_takes (quiet_ofChar (by decide) (by decide))
    apply (takes_scanUnits hunits).mono
    intro hexists
    obtain ⟨d, hd, hsurrogate⟩ := hexists
    exact encodable_eq_false.mpr ⟨d, mem_joinUnits hd, hsurrogate⟩

theorem scanWord_eq_some {word t rest : Text} (h : scanWord word t = some rest) :
    t = word ++ rest := by
  rw [scanWord] at h
  split_ifs at h with hprefix
  obtain ⟨tail, rfl⟩ := List.isPrefixOf_iff_prefix.mp hprefix
  simpa using h

/-- A word of visible ASCII characters is read. -/
theorem reads_scanWord (S : Prop) {word : Text} (hword : ∀ c ∈ word, quiet c = true)
    (hnonempty : word ≠ []) {t rest : Text} (h : scanWord word t = some rest) : Reads S t rest := by
  cases word with
  | nil => exact absurd rfl hnonempty
  | cons c word =>
    rw [scanWord_eq_some h]
    apply Reads.of_takes (hword c List.mem_cons_self)
    exact takes_quiet S (fun d hd => hword d (List.mem_cons_of_mem _ hd)) rest

theorem quiet_textOf {s : String}
    (h : (s.toList.all fun ch => decide (0x20 ≤ ch.toNat ∧ ch.toNat < 0x80)) = true) :
    ∀ c ∈ textOf s, quiet c = true := by
  intro c hc
  obtain ⟨ch, hch, rfl⟩ := List.mem_map.mp hc
  have hrange := of_decide_eq_true (List.all_eq_true.mp h ch hch)
  exact quiet_ofChar hrange.1 hrange.2

theorem reads_scanInteger (S : Prop) {t used rest : Text}
    (h : scanInteger t = some (used, rest)) : Reads S t rest := by
  cases t with
  | nil => cases h
  | cons c t =>
    rw [scanInteger] at h
    split_ifs at h with hzero hdigit
    · cases h
      rw [hzero]
      exact Reads.of_takes (quiet_ofChar (by decide) (by decide)) (Takes.refl _ _)
    · cases h
      exact Reads.of_takes (quiet_jsonDigit hdigit) (takes_digits _ _)

theorem takes_scanFraction (S : Prop) (t : Text) : Takes S t (scanFraction t).2 := by
  unfold scanFraction
  split
  · next point digit rest =>
    split_ifs with hfraction
    · rw [hfraction.1]
      apply Takes.cons (quiet_ofChar (by decide) (by decide))
      exact (takes_digits _ _).cons (quiet_jsonDigit hfraction.2)
    · exact Takes.refl _ _
  · exact Takes.refl _ _

theorem takes_scanSign (S : Prop) (t : Text) : Takes S t (scanSign t).2 := by
  cases t with
  | nil => exact Takes.refl _ _
  | cons c t =>
    rw [scanSign]
    split_ifs with hsign
    · apply Takes.cons _ (Takes.refl _ _)
      rcases hsign with rfl | rfl <;> exact quiet_ofChar (by decide) (by decide)
    · exact Takes.refl _ _

theorem takes_scanExponent (S : Prop) (t : Text) : Takes S t (scanExponent t).2 := by
  cases t with
  | nil => exact Takes.refl _ _
  | cons e t =>
    have hsign := takes_scanSign S t
    rw [scanExponent]
    split
    · next digit rest hrest =>
      split_ifs with hexponent
      · have hletter : quiet e = true := by
          rcases hexponent.1 with rfl | rfl <;> exact quiet_ofChar (by decide) (by decide)
        rw [hrest] at hsign
        apply Takes.cons hletter
        exact hsign.trans ((takes_digits _ _).cons (quiet_jsonDigit hexponent.2))
      · exact Takes.refl _ _
    · exact Takes.refl _ _

theorem reads_scanUnsigned (S : Prop) {t used rest : Text}
    (h : scanUnsigned t = some (used, rest)) : Reads S t rest := by
  obtain ⟨⟨integer, rest'⟩, hinteger, heq⟩ := Option.map_eq_some_iff.mp h
  have hrest : (scanExponent (scanFraction rest').2).2 = rest := congrArg Prod.snd heq
  rw [← hrest]
  have hfraction := takes_scanFraction S rest'
  exact (reads_scanInteger S hinteger).trans (hfraction.trans (takes_scanExponent S _))

/-- The lexeme of a number has no surrogate. -/
theorem reads_scanNumber (S : Prop) {t used rest : Text} (h : scanNumber t = some (used, rest)) :
    Reads S t rest := by
  cases t with
  | nil => cases h
  | cons c t =>
    rw [scanNumber] at h
    split_ifs at h with hsign
    · obtain ⟨⟨used', rest'⟩, hunsigned, heq⟩ := Option.map_eq_some_iff.mp h
      cases heq
      rw [hsign]
      apply Reads.of_takes (quiet_ofChar (by decide) (by decide))
      exact (reads_scanUnsigned S hunsigned).takes
    · exact reads_scanUnsigned S h

/-! ## Section 7: What the decoder accepts -/

section Containers

variable {α : Type} {P : α → Prop} {item : Reader α}

/-- The items of a container have the surrogates of its text. -/
theorem reads_readItems (hitem : ∀ {t x rest}, item t = .ok (x, rest) → Reads (P x) t rest)
    {close : CodePoint} (hclose : quiet close = true) {fuel : ℕ} {t rest : Text} {xs : List α}
    (h : readItems item close fuel t = .ok (xs, rest)) : Reads (∃ x ∈ xs, P x) t rest := by
  induction fuel generalizing t xs with
  | zero => cases h
  | succ fuel ih =>
    rw [readItems, Except.bind_eq_ok] at h
    obtain ⟨⟨x, rest₁⟩, hx, h⟩ := h
    have hblank := takes_skipBlank (∃ x ∈ xs, P x) rest₁
    cases hnext : skipBlank rest₁ with
    | nil => simp only [hnext, reduceCtorEq] at h
    | cons c rest₂ =>
      rw [hnext] at hblank
      simp only [hnext] at h
      split_ifs at h with hclosed hcomma
      · -- the container ends here
        cases h
        have hfirst := (hitem hx).mono fun hP => (⟨x, List.mem_singleton_self x, hP⟩ : ∃ y ∈ [x], P y)
        apply hfirst.trans
        apply hblank.trans
        rw [hclosed]
        exact (Takes.refl _ _).cons hclose
      · -- another item follows
        rw [Except.bind_eq_ok] at h
        obtain ⟨⟨more, rest₃⟩, hmore, h⟩ := h
        cases h
        have hfirst := (hitem hx).mono fun hP => (⟨x, List.mem_cons_self, hP⟩ : ∃ y ∈ x :: more, P y)
        have hrest : Takes (∃ y ∈ x :: more, P y) (skipBlank rest₂) rest₃ := by
          apply (ih hmore).takes.mono
          intro hexists
          obtain ⟨y, hy, hP⟩ := hexists
          exact ⟨y, List.mem_cons_of_mem _ hy, hP⟩
        apply hfirst.trans
        apply hblank.trans
        rw [hcomma]
        apply Takes.cons (quiet_ofChar (by decide) (by decide))
        exact (takes_skipBlank _ rest₂).trans hrest

theorem takes_readContainer (hitem : ∀ {t x rest}, item t = .ok (x, rest) → Reads (P x) t rest)
    {close : CodePoint} (hclose : quiet close = true) {t rest : Text} {xs : List α}
    (h : readContainer item close t = .ok (xs, rest)) : Takes (∃ x ∈ xs, P x) t rest := by
  have hblank := takes_skipBlank (∃ x ∈ xs, P x) t
  rw [readContainer] at h
  cases hnext : skipBlank t with
  | nil => simp only [hnext, reduceCtorEq] at h
  | cons c rest' =>
    rw [hnext] at hblank
    simp only [hnext] at h
    split_ifs at h with hclosed
    · cases h
      apply hblank.trans
      rw [hclosed]
      exact (Takes.refl _ _).cons hclose
    · exact hblank.trans (reads_readItems hitem hclose h).takes

/-- A member has the surrogates of its text in its key or in its value. -/
theorem reads_readMember (hitem : ∀ {t x rest}, item t = .ok (x, rest) → Reads (P x) t rest)
    {t rest key : Text} {x : α} (h : readMember item t = .ok ((key, x), rest)) :
    Reads (encodable key = false ∨ P x) t rest := by
  rw [readMember, Except.bind_eq_ok] at h
  obtain ⟨⟨key', rest₁⟩, hkey, h⟩ := h
  have hblank := takes_skipBlank (encodable key = false ∨ P x) rest₁
  cases hnext : skipBlank rest₁ with
  | nil => simp only [hnext, reduceCtorEq] at h
  | cons c rest₂ =>
    rw [hnext] at hblank
    simp only [hnext] at h
    split_ifs at h with hcolon
    rw [Except.bind_eq_ok] at h
    obtain ⟨⟨x', rest₃⟩, hx, h⟩ := h
    cases h
    apply ((reads_readText hkey).mono Or.inl).trans
    apply hblank.trans
    rw [hcolon]
    apply Takes.cons (quiet_ofChar (by decide) (by decide))
    exact (takes_skipBlank _ rest₂).trans ((hitem hx).takes.mono Or.inr)

end Containers

namespace PyDecoder

variable {ν : Type} {D : PyDecoder ν}

/-- A value that is read has the surrogates of its text. -/
def ReadsValue (value : Reader (PyJson ν)) : Prop :=
  ∀ {t v rest}, value t = .ok (v, rest) → Reads (v.encodes = false) t rest

theorem reads_readNumber (S : Prop) {t rest : Text} {v : PyJson ν}
    (h : D.readNumber t = .ok (v, rest)) : Reads S t rest := by
  rw [readNumber] at h
  split at h
  · next rest' hword =>
    obtain ⟨n, _, heq⟩ := (Except.bind_eq_ok _ _ _).mp h
    cases heq
    exact reads_scanWord S (quiet_textOf (by decide)) (by decide) hword
  · split at h
    · next rest' hword =>
      obtain ⟨n, _, heq⟩ := (Except.bind_eq_ok _ _ _).mp h
      cases heq
      exact reads_scanWord S (quiet_textOf (by decide)) (by decide) hword
    · split at h
      · next rest' hword =>
        obtain ⟨n, _, heq⟩ := (Except.bind_eq_ok _ _ _).mp h
        cases heq
        exact reads_scanWord S (quiet_textOf (by decide)) (by decide) hword
      · obtain ⟨⟨lexeme, rest'⟩, hlexeme, h⟩ := (Except.bind_eq_ok _ _ _).mp h
        obtain ⟨n, _, heq⟩ := (Except.bind_eq_ok _ _ _).mp h
        cases heq
        exact reads_scanNumber S ((orRaise_eq_ok _ _ _).mp hlexeme)

theorem reads_readScalar (S : Prop) {t rest : Text} {v : PyJson ν}
    (h : D.readScalar t = .ok (v, rest)) : Reads S t rest := by
  rw [readScalar] at h
  split at h
  · next rest' hword =>
    cases h
    exact reads_scanWord S (quiet_textOf (by decide)) (by decide) hword
  · split at h
    · next rest' hword =>
      cases h
      exact reads_scanWord S (quiet_textOf (by decide)) (by decide) hword
    · split at h
      · next rest' hword =>
        cases h
        exact reads_scanWord S (quiet_textOf (by decide)) (by decide) hword
      · exact reads_readNumber S h

/-- The hook loses no surrogate. -/
def KeepsSurrogates (D : PyDecoder ν) : Prop :=
  ∀ {pairs members}, D.pairs pairs = .ok members → PyJson.membersEncode pairs = false →
    PyJson.membersEncode members = false

theorem readsValue_readWith (hkeeps : D.KeepsSurrogates) {nested : Option (Reader (PyJson ν))}
    (hnested : ∀ value ∈ nested, ReadsValue value) : ReadsValue (D.readWith nested) := by
  intro t v rest h
  cases t with
  | nil => cases h
  | cons c t =>
    rw [readWith] at h
    split_ifs at h with hquote hbrace hbracket
    · obtain ⟨⟨s, rest'⟩, hs, heq⟩ := (Except.bind_eq_ok _ _ _).mp h
      cases heq
      exact reads_readText hs
    · -- an object
      obtain ⟨value, hvalue, h⟩ := (Except.bind_eq_ok _ _ _).mp h
      obtain ⟨⟨pairs, rest'⟩, hpairs, h⟩ := (Except.bind_eq_ok _ _ _).mp h
      obtain ⟨members, hmembers, heq⟩ := (Except.bind_eq_ok _ _ _).mp h
      cases heq
      have hitem : ReadsValue value := hnested value ((orRaise_eq_ok _ _ _).mp hvalue)
      rw [hbrace]
      apply Reads.of_takes (quiet_ofChar (by decide) (by decide))
      have htakes := @takes_readContainer _
        (fun m : Text × PyJson ν => encodable m.1 = false ∨ m.2.encodes = false) (readMember value)
        (fun hread => reads_readMember hitem hread) (ofChar '}')
        (quiet_ofChar (by decide) (by decide)) _ _ _ hpairs
      apply htakes.mono
      intro hexists
      apply hkeeps hmembers
      obtain ⟨m, hm, hsurrogate⟩ := hexists
      by_contra hencodes
      obtain ⟨hkey, hinner⟩ :=
        (PyJson.membersEncode_iff pairs).mp (Bool.not_eq_false _ ▸ hencodes) m hm
      rcases hsurrogate with hbad | hbad
      · rw [hkey] at hbad
        cases hbad
      · rw [hinner] at hbad
        cases hbad
    · -- an array
      obtain ⟨value, hvalue, h⟩ := (Except.bind_eq_ok _ _ _).mp h
      obtain ⟨⟨items, rest'⟩, hitems, heq⟩ := (Except.bind_eq_ok _ _ _).mp h
      cases heq
      have hitem : ReadsValue value := hnested value ((orRaise_eq_ok _ _ _).mp hvalue)
      rw [hbracket]
      apply Reads.of_takes (quiet_ofChar (by decide) (by decide))
      have htakes := @takes_readContainer _ (fun v : PyJson ν => v.encodes = false) value hitem
        (ofChar ']') (quiet_ofChar (by decide) (by decide)) _ _ _ hitems
      apply htakes.mono
      intro hexists
      obtain ⟨v, hv, hsurrogate⟩ := hexists
      show PyJson.itemsEncode items = false
      by_contra hencodes
      have hinner := (PyJson.itemsEncode_iff items).mp (Bool.not_eq_false _ ▸ hencodes) v hv
      rw [hinner] at hsurrogate
      cases hsurrogate
    · exact reads_readScalar _ h

/-- Every value is read off clean characters. -/
theorem readsValue_readValue (hkeeps : D.KeepsSurrogates) (depth : ℕ) :
    ReadsValue (D.readValue depth) := by
  induction depth with
  | zero =>
    apply readsValue_readWith hkeeps
    intro value hvalue
    cases hvalue
  | succ depth ih =>
    apply readsValue_readWith hkeeps
    intro value hvalue
    cases hvalue
    exact ih

/-- A text that is accepted has no control character but white space, and a surrogate only where
the value has one. -/
theorem parse_reads (hkeeps : D.KeepsSurrogates) {t : Text} {v : PyJson ν}
    (h : D.parse t = .ok v) :
    ∀ c ∈ t, plain c = true ∧ (isSurrogate c = true → v.encodes = false) := by
  obtain ⟨⟨v', rest⟩, hvalue, h⟩ := (Except.bind_eq_ok _ _ _).mp h
  obtain ⟨_, hrest, heq⟩ := (Except.bind_eq_ok _ _ _).mp h
  cases heq
  have hend : skipBlank rest = [] := not_not.mp ((raiseIf_eq_ok _ _ _).mp hrest)
  have hlast := takes_skipBlank (v.encodes = false) rest
  rw [hend] at hlast
  have htakes := (takes_skipBlank _ t).trans
    ((readsValue_readValue hkeeps D.limit hvalue).takes.trans hlast)
  obtain ⟨used, hused, hclean⟩ := htakes
  rw [hused, List.append_nil]
  exact hclean

/-- A byte order mark in front of a text is not accepted. -/
theorem parse_mark (t : Text) : D.parse (byteOrderMark :: t) = .error .valueError := by
  have hblank : skipBlank (byteOrderMark :: t) = byteOrderMark :: t := by
    rw [skipBlank, List.dropWhile_cons_of_neg (by decide)]
  -- no value begins with the mark: it is no blank, no bracket, no word and no digit
  have hword : ∀ {word : Text}, word.isPrefixOf (byteOrderMark :: t) = false →
      scanWord word (byteOrderMark :: t) = none := by
    intro word hprefix
    rw [scanWord, hprefix]
    rfl
  have hnumber : scanNumber (byteOrderMark :: t) = none := by
    rw [scanNumber, if_neg (by decide), scanUnsigned, scanInteger, if_neg (by decide),
      if_neg (by decide)]
    rfl
  have hvalue : ∀ nested, D.readWith nested (byteOrderMark :: t) = .error .valueError := by
    intro nested
    rw [readWith, if_neg (by decide), if_neg (by decide), if_neg (by decide), readScalar,
      hword rfl, hword rfl, hword rfl, readNumber, hword rfl, hword rfl, hword rfl, hnumber]
    rfl
  have hread : ∀ depth, D.readValue depth (byteOrderMark :: t) = .error .valueError := by
    intro depth
    cases depth with
    | zero => exact hvalue _
    | succ depth => exact hvalue _
  rw [parse, hblank, hread]
  rfl

/-- A number or a word is no dictionary. -/
theorem readScalar_ne_dict {t rest : Text} {members : List (Text × PyJson ν)} :
    D.readScalar t ≠ .ok (.dict members, rest) := by
  intro h
  -- a number is no dictionary, whichever word it was read from
  have hnumber : ∀ {word : Text} {rest' : Text}, (do
      let n ← D.number word
      .ok (PyJson.number n, rest')) ≠ (.ok (.dict members, rest) : Except LoadsError _) := by
    intro word rest' h
    obtain ⟨n, _, heq⟩ := (Except.bind_eq_ok _ _ _).mp h
    cases heq
  rw [readScalar] at h
  split at h
  · cases h
  · split at h
    · cases h
    · split at h
      · cases h
      · rw [readNumber] at h
        split at h
        · exact hnumber h
        · split at h
          · exact hnumber h
          · split at h
            · exact hnumber h
            · obtain ⟨⟨lexeme, rest'⟩, _, h⟩ := (Except.bind_eq_ok _ _ _).mp h
              exact hnumber h

end PyDecoder

/-! ## Section 8: `dumps` -/

/-- The order of texts by code points. -/
def textLe : Text → Text → Bool
  | [], _ => true
  | _ :: _, [] => false
  | c :: s, d :: t => c.val < d.val || (c.val = d.val && textLe s t)

/-- A hexadecimal digit. -/
def hexDigit (n : ℕ) : CodePoint := if n < 10 then codePoint (0x30 + n) else codePoint (0x57 + n)

/-- A character of a string, escaped without `ensure_ascii`. -/
def escapeChar (c : CodePoint) : Text :=
  if c = ofChar '"' then textOf "\\\""
  else if c = ofChar '\\' then textOf "\\\\"
  else if c.val = 0x08 then textOf "\\b"
  else if c.val = 0x0C then textOf "\\f"
  else if c.val = 0x0A then textOf "\\n"
  else if c.val = 0x0D then textOf "\\r"
  else if c.val = 0x09 then textOf "\\t"
  else if c.val < 0x20 then textOf "\\u00" ++ [hexDigit (c.val / 16), hexDigit (c.val % 16)]
  else [c]

/-- A string in quotes. -/
def quoteText (s : Text) : Text := ofChar '"' :: (s.flatMap escapeChar ++ [ofChar '"'])

/-- Texts with a comma between any two. -/
def joinTexts (texts : List Text) : Text := (textOf ", ").intercalate texts

namespace PyJson

variable {ν : Type} (lexeme : ν → Text)

mutual

/-- `json.dumps` with `ensure_ascii=False` and `sort_keys=True`. -/
def dumps : PyJson ν → Text
  | .null => textOf "null"
  | .bool b => textOf (bif b then "true" else "false")
  | .number n => lexeme n
  | .str s => quoteText s
  | .list items => ofChar '[' :: (joinTexts (dumpItems items) ++ [ofChar ']'])
  | .dict members =>
    let sorted := (dumpMembers members).insertionSort fun a b => textLe a.1 b.1
    ofChar '{' :: (joinTexts (sorted.map Prod.snd) ++ [ofChar '}'])

/-- The texts of the items. -/
def dumpItems : List (PyJson ν) → List Text
  | [] => []
  | v :: vs => dumps v :: dumpItems vs

/-- The texts of the members, with their keys. -/
def dumpMembers : List (Text × PyJson ν) → List (Text × Text)
  | [] => []
  | (key, v) :: ms => (key, quoteText key ++ textOf ": " ++ dumps v) :: dumpMembers ms

end

end PyJson

/-- A text without control characters. -/
def visible (t : Text) : Bool := t.all fun c => 0x20 ≤ c.val

theorem visible_textOf {s : String} (h : (s.toList.all fun ch => 0x20 ≤ ch.toNat) = true) :
    visible (textOf s) = true := by
  apply List.all_eq_true.mpr
  intro c hc
  obtain ⟨ch, hch, rfl⟩ := List.mem_map.mp hc
  rw [ofChar_val]
  exact List.all_eq_true.mp h ch hch

theorem encodable_append (s t : Text) : encodable (s ++ t) = (encodable s && encodable t) :=
  List.all_append

theorem visible_append (s t : Text) : visible (s ++ t) = (visible s && visible t) :=
  List.all_append

theorem hexDigit_val {n : ℕ} (h : n < 16) :
    0x20 ≤ (hexDigit n).val ∧ (hexDigit n).val < 0x80 := by
  rw [hexDigit]
  split_ifs <;> rw [codePoint_val (by omega)] <;> omega

/-- The escape of a character has no control character. -/
theorem visible_escapeChar (c : CodePoint) : visible (escapeChar c) = true := by
  rw [escapeChar]
  split_ifs with h₁ h₂ h₃ h₄ h₅ h₆ h₇ h₈
  · exact visible_textOf (by decide)
  · exact visible_textOf (by decide)
  · exact visible_textOf (by decide)
  · exact visible_textOf (by decide)
  · exact visible_textOf (by decide)
  · exact visible_textOf (by decide)
  · exact visible_textOf (by decide)
  · have hhigh := (hexDigit_val (show c.val / 16 < 16 by omega)).1
    have hlow := (hexDigit_val (show c.val % 16 < 16 by omega)).1
    rw [visible_append, visible_textOf (by decide)]
    simp [visible, hhigh, hlow]
  · simp [visible, Nat.not_lt.mp h₈]

/-- The escape of a character is a surrogate when the character is. -/
theorem encodable_escapeChar (c : CodePoint) : encodable (escapeChar c) = !isSurrogate c := by
  -- a character with an escape of its own is below the surrogates
  have hcontrol : c.val < 0x80 → isSurrogate c = false := by
    intro hlow
    simp only [isSurrogate, Bool.and_eq_false_iff, decide_eq_false_iff_not]
    omega
  rw [escapeChar]
  split_ifs with h₁ h₂ h₃ h₄ h₅ h₆ h₇ h₈
  · rw [h₁, isSurrogate_ofChar, encodable_textOf]; rfl
  · rw [h₂, isSurrogate_ofChar, encodable_textOf]; rfl
  · rw [hcontrol (by omega), encodable_textOf]; rfl
  · rw [hcontrol (by omega), encodable_textOf]; rfl
  · rw [hcontrol (by omega), encodable_textOf]; rfl
  · rw [hcontrol (by omega), encodable_textOf]; rfl
  · rw [hcontrol (by omega), encodable_textOf]; rfl
  · have hdigit : ∀ n < 16, isSurrogate (hexDigit n) = false := by
      intro n hn
      have hrange := (hexDigit_val hn).2
      simp only [isSurrogate, Bool.and_eq_false_iff, decide_eq_false_iff_not]
      omega
    rw [hcontrol (by omega), encodable_append, encodable_textOf]
    simp [encodable, hdigit _ (show c.val / 16 < 16 by omega),
      hdigit _ (show c.val % 16 < 16 by omega)]
  · simp [encodable]

theorem visible_quoteText (s : Text) : visible (quoteText s) = true := by
  have hbody : visible (s.flatMap escapeChar) = true := by
    rw [visible, List.all_flatMap]
    exact List.all_eq_true.mpr fun c _ => visible_escapeChar c
  simp only [quoteText, visible, List.all_cons, List.all_append, List.all_nil] at hbody ⊢
  rw [hbody]
  decide

theorem encodable_quoteText (s : Text) : encodable (quoteText s) = encodable s := by
  have hbody : encodable (s.flatMap escapeChar) = encodable s := by
    rw [encodable, List.all_flatMap]
    exact congrArg s.all (funext encodable_escapeChar)
  simp only [quoteText, encodable, List.all_cons, List.all_append, List.all_nil,
    isSurrogate_ofChar] at hbody ⊢
  rw [hbody]
  simp

/-- What holds of the characters of every text and of the separator holds of the joined text. -/
theorem all_joinTexts {p : CodePoint → Bool} (hseparator : (textOf ", ").all p = true)
    (texts : List Text) : (joinTexts texts).all p = texts.all fun t => t.all p := by
  induction texts with
  | nil => rfl
  | cons t texts ih =>
    cases texts with
    | nil => simp [joinTexts]
    | cons u texts =>
      have hjoin : joinTexts (t :: u :: texts) = t ++ textOf ", " ++ joinTexts (u :: texts) := by
        simp [joinTexts, List.intercalate]
      rw [hjoin, List.all_append, List.all_append, hseparator, ih, Bool.and_true]
      rfl

/-- Sorting by keys keeps what holds of all members. -/
theorem all_sorted (p : Text × Text → Bool) (members : List (Text × Text)) :
    (members.insertionSort fun a b => textLe a.1 b.1).all p = members.all p :=
  (List.perm_insertionSort _ members).all_eq

namespace PyJson

variable {ν : Type} {lexeme : ν → Text}

mutual

/-- The text of a value has no control character. -/
theorem visible_dumps (hlexeme : ∀ n, visible (lexeme n) = true) :
    ∀ v : PyJson ν, visible (dumps lexeme v) = true
  | .null => visible_textOf (by decide)
  | .bool true => visible_textOf (by decide)
  | .bool false => visible_textOf (by decide)
  | .number n => hlexeme n
  | .str s => visible_quoteText s
  | .list items => by
    have hitems := visible_dumpItems hlexeme items
    -- the joints between the items are visible
    have hjoin : (joinTexts (dumpItems lexeme items)).all (fun c => decide (0x20 ≤ c.val)) =
        (dumpItems lexeme items).all visible := all_joinTexts (by decide) _
    simp only [dumps, visible, List.all_cons, List.all_append, List.all_nil]
    rw [hjoin, hitems]
    decide
  | .dict members => by
    have hmembers := visible_dumpMembers hlexeme members
    -- sorting the members changes none of their texts
    have hjoin : ∀ texts : List (Text × Text),
        (joinTexts (texts.map Prod.snd)).all (fun c => decide (0x20 ≤ c.val)) =
          texts.all fun m => visible m.2 := by
      intro texts
      rw [all_joinTexts (by decide), List.all_map]
      rfl
    simp only [dumps, visible, List.all_cons, List.all_append, List.all_nil]
    rw [hjoin, all_sorted, hmembers]
    decide

theorem visible_dumpItems (hlexeme : ∀ n, visible (lexeme n) = true) :
    ∀ vs : List (PyJson ν), (dumpItems lexeme vs).all visible = true
  | [] => rfl
  | v :: vs => by
    rw [dumpItems, List.all_cons, visible_dumps hlexeme v, visible_dumpItems hlexeme vs]
    rfl

theorem visible_dumpMembers (hlexeme : ∀ n, visible (lexeme n) = true) :
    ∀ ms : List (Text × PyJson ν), ((dumpMembers lexeme ms).all fun m => visible m.2) = true
  | [] => rfl
  | (key, v) :: ms => by
    rw [dumpMembers, List.all_cons, visible_append, visible_append, visible_quoteText,
      visible_textOf (by decide), visible_dumps hlexeme v, visible_dumpMembers hlexeme ms]
    rfl

end

mutual

/-- The text of a value can be encoded exactly when no string of the value has a surrogate. -/
theorem encodable_dumps (hlexeme : ∀ n, encodable (lexeme n) = true) :
    ∀ v : PyJson ν, encodable (dumps lexeme v) = v.encodes
  | .null => encodable_textOf _
  | .bool _ => encodable_textOf _
  | .number n => hlexeme n
  | .str s => encodable_quoteText s
  | .list items => by
    have hitems := encodable_dumpItems hlexeme items
    -- the joints are encodable, so only the items count
    have hjoin : (joinTexts (dumpItems lexeme items)).all (fun c => !isSurrogate c) =
        (dumpItems lexeme items).all encodable := all_joinTexts (by decide) _
    simp only [dumps, encodable, List.all_cons, List.all_append, List.all_nil,
      isSurrogate_ofChar]
    rw [hjoin, hitems]
    simp [encodes]
  | .dict members => by
    have hmembers := encodable_dumpMembers hlexeme members
    -- and so for the members, in whichever order they are written
    have hjoin : ∀ texts : List (Text × Text),
        (joinTexts (texts.map Prod.snd)).all (fun c => !isSurrogate c) =
          texts.all fun m => encodable m.2 := by
      intro texts
      rw [all_joinTexts (by decide), List.all_map]
      rfl
    simp only [dumps, encodable, List.all_cons, List.all_append, List.all_nil,
      isSurrogate_ofChar]
    rw [hjoin, all_sorted, hmembers]
    simp [encodes]

theorem encodable_dumpItems (hlexeme : ∀ n, encodable (lexeme n) = true) :
    ∀ vs : List (PyJson ν), (dumpItems lexeme vs).all encodable = itemsEncode vs
  | [] => rfl
  | v :: vs => by
    rw [dumpItems, List.all_cons, encodable_dumps hlexeme v, encodable_dumpItems hlexeme vs]
    rfl

theorem encodable_dumpMembers (hlexeme : ∀ n, encodable (lexeme n) = true) :
    ∀ ms : List (Text × PyJson ν),
      ((dumpMembers lexeme ms).all fun m => encodable m.2) = membersEncode ms
  | [] => rfl
  | (key, v) :: ms => by
    rw [dumpMembers, List.all_cons, encodable_append, encodable_append, encodable_quoteText,
      encodable_textOf, encodable_dumps hlexeme v, encodable_dumpMembers hlexeme ms, Bool.and_true]
    rfl

end

end PyJson

end Library
