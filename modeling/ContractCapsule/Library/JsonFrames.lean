import ContractCapsule.Library.PyJson

/-!
# What the JSON Decoder Reads of a Text

A reader of the decoder looks at what it takes, and at one character behind it to see where a
number ends. So it takes the same from every text that begins alike, and a decoder with wider
limits takes what one with narrower limits takes.

`parse_dict_iff` says this of an object: the decoder reads one from a text exactly when the text is
the object with white space around it.
-/

namespace Library

/-! ## Section 1: Frames -/

/-- A character that behind a number would be a part of it. -/
def continuesNumber (c : CodePoint) : Bool :=
  jsonDigit c || c = ofChar '.' || c = ofChar 'e' || c = ofChar 'E'

/-- A text that does not continue a number in front of it. -/
def Delimits (rest : Text) : Prop := ∀ c ∈ rest.head?, continuesNumber c = false

/-- What one reader takes from a text, one character at least, the other takes wherever it
stands. -/
def Frames {α : Type} (item item' : Reader α) : Prop :=
  ∀ t x rest, item t = .ok (x, rest) →
    ∃ c more, t = c :: more ++ rest ∧ ∀ y, Delimits y → item' (c :: more ++ y) = .ok (x, y)

theorem delimits_cons {c : CodePoint} {rest : Text} (h : continuesNumber c = false) :
    Delimits (c :: rest) := by
  intro d hd
  rw [List.head?_cons, Option.mem_def, Option.some.injEq] at hd
  exact hd ▸ h

/-- A run of characters ends where what follows does not continue it. -/
theorem takeWhile_run {p : CodePoint → Bool} {run y : Text} (hrun : ∀ c ∈ run, p c = true)
    (hy : ∀ c ∈ y.head?, p c = false) :
    (run ++ y).takeWhile p = run ∧ (run ++ y).dropWhile p = y := by
  have hnone : y.takeWhile p = [] ∧ y.dropWhile p = y := by
    cases y with
    | nil => exact ⟨rfl, rfl⟩
    | cons c y =>
      have hc := hy c rfl
      exact ⟨List.takeWhile_cons_of_neg (by simp [hc]), List.dropWhile_cons_of_neg (by simp [hc])⟩
  rw [List.takeWhile_append_of_pos hrun, List.dropWhile_append_of_pos hrun, hnone.1, hnone.2]
  exact ⟨List.append_nil run, rfl⟩

theorem mem_takeWhile_true {p : CodePoint → Bool} {t : Text} : ∀ c ∈ t.takeWhile p, p c = true :=
  fun _ hc => List.mem_takeWhile_imp hc

/-- White space that was skipped is skipped in front of anything else. -/
theorem skipBlank_eq_cons {t rest : Text} {c : CodePoint} (h : skipBlank t = c :: rest) :
    ∃ blanks, t = blanks ++ c :: rest ∧ (∀ b ∈ blanks, jsonBlank b = true) ∧
      jsonBlank c = false := by
  have hdrop : t.dropWhile jsonBlank = c :: rest := h
  refine ⟨t.takeWhile jsonBlank, ?_, mem_takeWhile_true, ?_⟩
  · rw [← hdrop, List.takeWhile_append_dropWhile]
  · have hhead := List.head?_dropWhile_not jsonBlank t
    rw [hdrop] at hhead
    simpa using hhead

theorem skipBlank_blanks {blanks rest : Text} {c : CodePoint}
    (hblanks : ∀ b ∈ blanks, jsonBlank b = true) (hc : jsonBlank c = false) :
    skipBlank (blanks ++ c :: rest) = c :: rest := by
  apply (takeWhile_run hblanks _).2
  intro d hd
  rw [List.head?_cons, Option.mem_def, Option.some.injEq] at hd
  exact hd ▸ hc

/-- White space in front of some text with a closing character is skipped in front of that text
wherever it stands. -/
theorem skipBlank_frames {t inner rest : Text} {close : CodePoint}
    (h : skipBlank t = inner ++ close :: rest) :
    ∃ blanks, t = blanks ++ (inner ++ close :: rest) ∧
      ∀ y, skipBlank (blanks ++ (inner ++ close :: y)) = inner ++ close :: y := by
  cases inner with
  | nil =>
    obtain ⟨blanks, ht, hblanks, hclose⟩ := skipBlank_eq_cons h
    exact ⟨blanks, ht, fun y => skipBlank_blanks hblanks hclose⟩
  | cons c inner =>
    obtain ⟨blanks, ht, hblanks, hc⟩ := skipBlank_eq_cons h
    exact ⟨blanks, ht, fun y => skipBlank_blanks hblanks hc⟩

theorem continuesNumber_blank {c : CodePoint} (h : jsonBlank c = true) :
    continuesNumber c = false := by
  simp only [jsonBlank, Bool.or_eq_true, decide_eq_true_eq] at h
  rcases h with ((rfl | rfl) | rfl) | rfl <;> decide

theorem delimits_blanks {blanks rest : Text} {c : CodePoint}
    (hblanks : ∀ b ∈ blanks, jsonBlank b = true) (hc : continuesNumber c = false) :
    Delimits (blanks ++ c :: rest) := by
  cases blanks with
  | nil => exact delimits_cons hc
  | cons b blanks => exact delimits_cons (continuesNumber_blank (hblanks b List.mem_cons_self))

/-! ## Section 2: Strings -/

theorem scanUnits_frames {st : StringState} {t rest : Text} {units : List StringUnit}
    (h : scanUnits st t = some (units, rest)) :
    ∃ used, t = used ++ rest ∧ ∀ y, scanUnits st (used ++ y) = some (units, y) := by
  induction t generalizing st units with
  | nil => cases st <;> cases h
  | cons c t ih =>
    cases st with
    -- the scanner looks at one character at a time, so what follows the closing quote never matters
    | body =>
      rw [scanUnits] at h
      split_ifs at h with hquote hescape hcontrol
      · cases h
        exact ⟨[c], rfl, fun y => by rw [List.singleton_append, scanUnits, if_pos hquote]⟩
      · obtain ⟨used, rfl, hframe⟩ := ih h
        refine ⟨c :: used, rfl, fun y => ?_⟩
        rw [List.cons_append, scanUnits, if_neg hquote, if_pos hescape, hframe]
      · obtain ⟨⟨more, rest'⟩, hmore, heq⟩ := Option.map_eq_some_iff.mp h
        cases heq
        obtain ⟨used, rfl, hframe⟩ := ih hmore
        refine ⟨c :: used, rfl, fun y => ?_⟩
        rw [List.cons_append, scanUnits, if_neg hquote, if_neg hescape, if_neg hcontrol, hframe]
        rfl
    -- an escape is a letter, or four digits in turn
    | escape =>
      rw [scanUnits] at h
      split_ifs at h with hunicode
      · obtain ⟨used, rfl, hframe⟩ := ih h
        refine ⟨c :: used, rfl, fun y => ?_⟩
        rw [List.cons_append, scanUnits, if_pos hunicode, hframe]
      · obtain ⟨e, he, h⟩ := Option.bind_eq_some_iff.mp h
        obtain ⟨⟨more, rest'⟩, hmore, heq⟩ := Option.map_eq_some_iff.mp h
        cases heq
        obtain ⟨used, rfl, hframe⟩ := ih hmore
        refine ⟨c :: used, rfl, fun y => ?_⟩
        rw [List.cons_append, scanUnits, if_neg hunicode, he, Option.bind_some, hframe]
        rfl
    | hex missing value =>
      rw [scanUnits] at h
      obtain ⟨digit, hdigit, h⟩ := Option.bind_eq_some_iff.mp h
      cases missing with
      | zero =>
        obtain ⟨⟨more, rest'⟩, hmore, heq⟩ := Option.map_eq_some_iff.mp h
        cases heq
        obtain ⟨used, rfl, hframe⟩ := ih hmore
        refine ⟨c :: used, rfl, fun y => ?_⟩
        rw [List.cons_append, scanUnits, hdigit, Option.bind_some, hframe]
        rfl
      | succ more =>
        obtain ⟨used, rfl, hframe⟩ := ih h
        refine ⟨c :: used, rfl, fun y => ?_⟩
        rw [List.cons_append, scanUnits, hdigit, Option.bind_some]
        exact hframe y

/-- A string is read wherever it stands. -/
theorem readText_frames {t rest s : Text} (h : readText t = .ok (s, rest)) :
    ∃ c more, t = c :: more ++ rest ∧ ∀ y, readText (c :: more ++ y) = .ok (s, y) := by
  cases t with
  | nil => cases h
  | cons c t =>
    rw [readText] at h
    split_ifs at h with hquote
    rw [orRaise_eq_ok, scanText] at h
    obtain ⟨⟨units, rest'⟩, hunits, heq⟩ := Option.map_eq_some_iff.mp h
    cases heq
    obtain ⟨used, rfl, hframe⟩ := scanUnits_frames hunits
    refine ⟨c, used, rfl, fun y => ?_⟩
    rw [List.cons_append, readText, if_pos hquote, orRaise_eq_ok, scanText, hframe]
    rfl

/-! ## Section 3: Numbers -/

theorem jsonDigit_of_continues {c : CodePoint} (h : continuesNumber c = false) :
    jsonDigit c = false := by
  simp only [continuesNumber, Bool.or_eq_false_iff] at h
  exact h.1.1.1

/-- An integer is read wherever no digit follows. -/
theorem scanInteger_frames {t used rest : Text} (h : scanInteger t = some (used, rest)) :
    t = used ++ rest ∧ (∃ c digits, used = c :: digits ∧ jsonDigit c = true) ∧
      ∀ y : Text, (∀ c ∈ y.head?, jsonDigit c = false) →
        scanInteger (used ++ y) = some (used, y) := by
  cases t with
  | nil => cases h
  | cons c t =>
    rw [scanInteger] at h
    split_ifs at h with hzero hdigit
    · cases h
      refine ⟨rfl, ⟨c, [], rfl, hzero ▸ by decide⟩, fun y _ => ?_⟩
      rw [List.singleton_append, scanInteger, if_pos hzero]
    · cases h
      refine ⟨by rw [List.cons_append, List.takeWhile_append_dropWhile], ⟨c, _, rfl, hdigit⟩, ?_⟩
      intro y hy
      obtain ⟨htake, hdrop⟩ := takeWhile_run (mem_takeWhile_true (p := jsonDigit) (t := t)) hy
      rw [List.cons_append, scanInteger, if_neg hzero, if_pos hdigit, htake, hdrop]

/-- A fraction is read wherever neither a digit nor a point follows. -/
theorem scanFraction_frames {t : Text} :
    t = (scanFraction t).1 ++ (scanFraction t).2 ∧
      (∀ c ∈ (scanFraction t).1.head?, c = ofChar '.') ∧
      ∀ y : Text, (∀ c ∈ y.head?, jsonDigit c = false ∧ c ≠ ofChar '.') →
        scanFraction ((scanFraction t).1 ++ y) = ((scanFraction t).1, y) := by
  -- without a fraction nothing is taken
  have hnone : ∀ y : Text, (∀ c ∈ y.head?, jsonDigit c = false ∧ c ≠ ofChar '.') →
      scanFraction y = ([], y) := by
    intro y hy
    match y with
    | [] => rfl
    | [_] => rfl
    | point :: digit :: rest =>
      rw [scanFraction, if_neg]
      intro hpoint
      exact (hy point rfl).2 hpoint.1
  match t with
  | [] => exact ⟨rfl, by simp [scanFraction], hnone⟩
  | [_] => exact ⟨rfl, by simp [scanFraction], hnone⟩
  | point :: digit :: rest =>
    by_cases hfraction : point = ofChar '.' ∧ jsonDigit digit = true
    · have hscan : scanFraction (point :: digit :: rest) =
          (point :: digit :: rest.takeWhile jsonDigit, rest.dropWhile jsonDigit) := by
        rw [scanFraction, if_pos hfraction]
      rw [hscan]
      refine ⟨by simp [List.takeWhile_append_dropWhile], ?_, ?_⟩
      · intro c hc
        rw [List.head?_cons, Option.mem_def, Option.some.injEq] at hc
        exact hc ▸ hfraction.1
      · intro y hy
        obtain ⟨htake, hdrop⟩ := takeWhile_run (mem_takeWhile_true (p := jsonDigit) (t := rest))
          fun c hc => (hy c hc).1
        simp only [List.cons_append]
        rw [scanFraction, if_pos hfraction, htake, hdrop]
    · have hscan : scanFraction (point :: digit :: rest) = ([], point :: digit :: rest) := by
        rw [scanFraction, if_neg hfraction]
      rw [hscan]
      exact ⟨rfl, by simp, hnone⟩

/-- What is taken for the sign of an exponent does not depend on what follows the digit. -/
theorem scanSign_frames (rest : Text) {digit : CodePoint} {tail : Text}
    (h : (scanSign rest).2 = digit :: tail) (hdigit : jsonDigit digit = true) :
    rest = (scanSign rest).1 ++ digit :: tail ∧
      ∀ y, scanSign ((scanSign rest).1 ++ digit :: y) = ((scanSign rest).1, digit :: y) := by
  -- a digit is not taken for a sign
  have hplain : digit ≠ ofChar '+' ∧ digit ≠ ofChar '-' := by
    constructor
    · intro heq
      rw [heq] at hdigit
      exact absurd hdigit (by decide)
    · intro heq
      rw [heq] at hdigit
      exact absurd hdigit (by decide)
  cases rest with
  | nil => cases h
  | cons c rest =>
    by_cases hsign : c = ofChar '+' ∨ c = ofChar '-'
    · rw [scanSign, if_pos hsign] at h ⊢
      refine ⟨by rw [← h]; rfl, fun y => ?_⟩
      rw [List.singleton_append, scanSign, if_pos hsign]
    · rw [scanSign, if_neg hsign] at h ⊢
      obtain ⟨rfl, rfl⟩ := List.cons.inj h
      refine ⟨rfl, fun y => ?_⟩
      rw [List.nil_append, scanSign, if_neg (not_or.mpr hplain)]

/-- An exponent is read wherever neither a digit nor the letter of an exponent follows. -/
theorem scanExponent_frames {t : Text} :
    t = (scanExponent t).1 ++ (scanExponent t).2 ∧
      (∀ c ∈ (scanExponent t).1.head?, c = ofChar 'e' ∨ c = ofChar 'E') ∧
      ∀ y, Delimits y → scanExponent ((scanExponent t).1 ++ y) = ((scanExponent t).1, y) := by
  -- what delimits a number does not begin an exponent
  have hnone : ∀ y, Delimits y → scanExponent y = ([], y) := by
    intro y hy
    cases y with
    | nil => rfl
    | cons e y =>
      have he := hy e rfl
      simp only [continuesNumber, Bool.or_eq_false_iff, decide_eq_false_iff_not] at he
      rw [scanExponent]
      split
      · rw [if_neg]
        intro hexponent
        exact (not_or.mpr ⟨he.1.2, he.2⟩) hexponent.1
      · rfl
  -- an exponent is its letter, a sign and at least one digit; without a digit it is none
  cases t with
  | nil => exact ⟨rfl, by simp [scanExponent], hnone⟩
  | cons e t =>
    cases hsigned : (scanSign t).2 with
    | nil =>
      have hscan : scanExponent (e :: t) = ([], e :: t) := by rw [scanExponent, hsigned]
      rw [hscan]
      exact ⟨rfl, by simp, hnone⟩
    | cons digit tail =>
      by_cases hexponent : (e = ofChar 'e' ∨ e = ofChar 'E') ∧ jsonDigit digit = true
      · have hscan : scanExponent (e :: t) = (e :: (scanSign t).1 ++
            digit :: tail.takeWhile jsonDigit, tail.dropWhile jsonDigit) := by
          rw [scanExponent, hsigned]
          exact if_pos hexponent
        obtain ⟨ht, hframe⟩ := scanSign_frames t hsigned hexponent.2
        rw [hscan]
        refine ⟨?_, ?_, ?_⟩
        · simp only [List.cons_append, List.append_assoc, List.takeWhile_append_dropWhile]
          rw [← ht]
        · intro c hc
          rw [List.cons_append, List.head?_cons, Option.mem_def, Option.some.injEq] at hc
          exact hc ▸ hexponent.1
        -- the digits end where the text does, because what follows is no digit
        · intro y hy
          obtain ⟨htake, hdrop⟩ := takeWhile_run (mem_takeWhile_true (p := jsonDigit) (t := tail))
            fun c hc => jsonDigit_of_continues (hy c hc)
          simp only [List.cons_append, List.append_assoc]
          rw [scanExponent, hframe]
          simp only
          rw [if_pos hexponent, htake, hdrop]
          rfl
      · have hscan : scanExponent (e :: t) = ([], e :: t) := by
          rw [scanExponent, hsigned]
          exact if_neg hexponent
        rw [hscan]
        exact ⟨rfl, by simp, hnone⟩

theorem scanUnsigned_frames {t used rest : Text} (h : scanUnsigned t = some (used, rest)) :
    t = used ++ rest ∧ (∃ c more, used = c :: more ∧ jsonDigit c = true) ∧
      ∀ y, Delimits y → scanUnsigned (used ++ y) = some (used, y) := by
  obtain ⟨⟨integer, rest₁⟩, hinteger, heq⟩ := Option.map_eq_some_iff.mp h
  obtain ⟨hsplit, ⟨c, digits, hhead, hdigit⟩, hreadInteger⟩ := scanInteger_frames hinteger
  obtain ⟨hsplit₁, hpoint, hreadFraction⟩ := @scanFraction_frames rest₁
  obtain ⟨hsplit₂, hletter, hreadExponent⟩ := @scanExponent_frames (scanFraction rest₁).2
  rw [Prod.mk.injEq] at heq
  obtain ⟨rfl, rfl⟩ := heq
  generalize (scanFraction rest₁).1 = fraction at *
  generalize (scanExponent (scanFraction rest₁).2).1 = exponent at *
  refine ⟨?_, ⟨c, digits ++ fraction ++ exponent, by simp [hhead], hdigit⟩, ?_⟩
  · simp only [List.append_assoc]
    rw [← hsplit₂, ← hsplit₁, hsplit]
  · intro y hy
    -- behind the integer neither a fraction nor an exponent begins with a digit
    have hbehindFraction : ∀ c ∈ (exponent ++ y).head?, jsonDigit c = false ∧ c ≠ ofChar '.' := by
      intro c hc
      cases exponent with
      | nil =>
        have hcontinues := hy c hc
        simp only [continuesNumber, Bool.or_eq_false_iff, decide_eq_false_iff_not] at hcontinues
        exact ⟨hcontinues.1.1.1, hcontinues.1.1.2⟩
      | cons e more =>
        rw [List.cons_append, List.head?_cons, Option.mem_def, Option.some.injEq] at hc
        subst hc
        rcases hletter e rfl with rfl | rfl <;> decide
    have hbehindInteger : ∀ c ∈ (fraction ++ (exponent ++ y)).head?, jsonDigit c = false := by
      intro c hc
      cases fraction with
      | nil => exact (hbehindFraction c hc).1
      | cons point more =>
        rw [List.cons_append, List.head?_cons, Option.mem_def, Option.some.injEq] at hc
        subst hc
        rw [hpoint point rfl]
        decide
    rw [scanUnsigned, List.append_assoc, List.append_assoc, hreadInteger _ hbehindInteger,
      Option.map_some]
    simp only [hreadFraction _ hbehindFraction, hreadExponent _ hy, List.append_assoc]

/-- A number is read wherever nothing follows that would continue it. -/
theorem scanNumber_frames {t used rest : Text} (h : scanNumber t = some (used, rest)) :
    t = used ++ rest ∧
      (∃ c more, used = c :: more ∧
        (jsonDigit c = true ∨ c = ofChar '-' ∧ ∃ d more', more = d :: more' ∧ jsonDigit d = true)) ∧
      ∀ y, Delimits y → scanNumber (used ++ y) = some (used, y) := by
  cases t with
  | nil => cases h
  | cons c t =>
    rw [scanNumber] at h
    split_ifs at h with hminus
    · obtain ⟨⟨unsigned, rest'⟩, hunsigned, heq⟩ := Option.map_eq_some_iff.mp h
      cases heq
      obtain ⟨rfl, ⟨d, more, hhead, hdigit⟩, hframe⟩ := scanUnsigned_frames hunsigned
      refine ⟨rfl, ⟨c, unsigned, rfl, Or.inr ⟨hminus, d, more, hhead, hdigit⟩⟩, fun y hy => ?_⟩
      rw [List.cons_append, scanNumber, if_pos hminus, hframe y hy]
      rfl
    · obtain ⟨hsplit, ⟨d, more, rfl, hdigit⟩, hframe⟩ := scanUnsigned_frames h
      refine ⟨hsplit, ⟨d, more, rfl, Or.inl hdigit⟩, fun y hy => ?_⟩
      rw [List.cons_append, List.cons.injEq] at hsplit
      rw [List.cons_append, scanNumber, ← hsplit.1, if_neg hminus, hsplit.1, ← List.cons_append]
      exact hframe y hy

/-! ## Section 4: Words -/

theorem scanWord_append (word y : Text) : scanWord word (word ++ y) = some y := by
  have hword : word.isPrefixOf (word ++ y) = true :=
    List.isPrefixOf_iff_prefix.mpr (List.prefix_append _ _)
  rw [scanWord, if_pos hword, List.drop_left]

theorem frames_of_word {α : Type} {item' : Reader α} {word t rest : Text} {x : α}
    (h : scanWord word t = some rest) (hword : ∃ c more, word = c :: more)
    (hread : ∀ y, item' (word ++ y) = .ok (x, y)) :
    ∃ c more, t = c :: more ++ rest ∧ ∀ y, Delimits y → item' (c :: more ++ y) = .ok (x, y) := by
  obtain ⟨c, more, rfl⟩ := hword
  exact ⟨c, more, scanWord_eq_some h, fun y _ => hread y⟩

/-- A word is not read where another character stands in front. -/
theorem scanWord_head_ne {c d : CodePoint} (h : c ≠ d) (word y : Text) :
    scanWord (c :: word) (d :: y) = none := by
  rw [scanWord, if_neg]
  rw [List.isPrefixOf_iff_prefix, List.cons_prefix_cons, not_and]
  exact fun heq => absurd heq h

/-- A word is not read where another character stands in the second place. -/
theorem scanWord_second_ne {c d e : CodePoint} (h : c ≠ d) (word y : Text) :
    scanWord (e :: c :: word) (e :: d :: y) = none := by
  rw [scanWord, if_neg]
  rw [List.isPrefixOf_iff_prefix, List.cons_prefix_cons, List.cons_prefix_cons]
  exact fun heq => h heq.2.1

namespace PyDecoder

variable {ν : Type} {D D' : PyDecoder ν}

/-- A decoder with wider limits, and the same hooks. -/
structure Extends (D D' : PyDecoder ν) : Prop where
  limit : D.limit ≤ D'.limit
  number : ∀ lexeme n, D.number lexeme = .ok n → D'.number lexeme = .ok n
  pairs : D'.pairs = D.pairs

theorem Extends.refl (D : PyDecoder ν) : Extends D D := ⟨le_rfl, fun _ _ h => h, rfl⟩

/-- No word of a constant begins like a number. -/
theorem readNumber_of_digit {c : CodePoint} {more : Text}
    (h : jsonDigit c = true ∨ c = ofChar '-' ∧ ∃ d more', more = d :: more' ∧ jsonDigit d = true)
    (y : Text) :
    D.readNumber (c :: more ++ y) = (do
      let (lexeme, rest) ← orRaise (scanNumber (c :: more ++ y)) .valueError
      let n ← D.number lexeme
      .ok (.number n, rest)) := by
  -- the words begin with a letter, where a number begins with a digit or a minus
  have hnot : ∀ word d, jsonDigit d = false → d ≠ ofChar '-' →
      scanWord (d :: word) (c :: more ++ y) = none := by
    intro word d hdigit hminus
    apply scanWord_head_ne
    intro heq
    rcases h with hc | hc
    · rw [← heq, hdigit] at hc
      cases hc
    · exact hminus (heq.trans hc.1)
  -- only `-Infinity` begins as a number may; its second character is no digit
  have hnegative : scanWord (textOf "-Infinity") (c :: more ++ y) = none := by
    rcases h with hc | ⟨rfl, d, more', rfl, hd⟩
    · apply scanWord_head_ne
      intro heq
      rw [← heq] at hc
      exact absurd hc (by decide)
    · apply scanWord_second_ne
      intro heq
      rw [← heq] at hd
      exact absurd hd (by decide)
  have hnan : scanWord (textOf "NaN") (c :: more ++ y) = none :=
    hnot _ _ (by decide) (by decide)
  have hinfinity : scanWord (textOf "Infinity") (c :: more ++ y) = none :=
    hnot _ _ (by decide) (by decide)
  rw [readNumber, hnan, hinfinity, hnegative]

/-- A character with which one of the words `null`, `true` and `false` begins. -/
def beginsWord (c : CodePoint) : Bool := c = ofChar 'n' || c = ofChar 't' || c = ofChar 'f'

theorem readNumber_frames (hD : Extends D D') {t rest : Text} {v : PyJson ν}
    (h : D.readNumber t = .ok (v, rest)) :
    ∃ used, t = used ++ rest ∧ (∃ c more, used = c :: more ∧ beginsWord c = false) ∧
      ∀ y, Delimits y → D'.readNumber (used ++ y) = .ok (v, y) := by
  -- a constant, or a number in digits
  have hconstant : ∀ word, (∃ n, D.number word = .ok n ∧ v = .number n) → t = word ++ rest →
      (∃ c more, word = c :: more ∧ beginsWord c = false) →
      (∀ y, D'.readNumber (word ++ y) = (do
        let n ← D'.number word
        .ok (.number n, y))) →
      ∃ used, t = used ++ rest ∧ (∃ c more, used = c :: more ∧ beginsWord c = false) ∧
        ∀ y, Delimits y → D'.readNumber (used ++ y) = .ok (v, y) := by
    intro word hnumber ht hhead hread
    obtain ⟨n, hn, rfl⟩ := hnumber
    refine ⟨word, ht, hhead, fun y _ => ?_⟩
    rw [hread y, hD.number _ _ hn]
    rfl
  rw [readNumber] at h
  cases hnan : scanWord (textOf "NaN") t with
  | some rest' =>
    rw [hnan] at h
    obtain ⟨n, hn, heq⟩ := (Except.bind_eq_ok _ _ _).mp h
    cases heq
    apply hconstant _ ⟨n, hn, rfl⟩ (scanWord_eq_some hnan)
      ⟨_, _, rfl, by decide⟩
    intro y
    rw [readNumber, scanWord_append]
  | none =>
    simp only [hnan] at h
    cases hinfinity : scanWord (textOf "Infinity") t with
    | some rest' =>
      rw [hinfinity] at h
      obtain ⟨n, hn, heq⟩ := (Except.bind_eq_ok _ _ _).mp h
      cases heq
      apply hconstant _ ⟨n, hn, rfl⟩ (scanWord_eq_some hinfinity)
        ⟨_, _, rfl, by decide⟩
      intro y
      have hother : scanWord (textOf "NaN") (textOf "Infinity" ++ y) = none :=
        scanWord_head_ne (by decide) _ _
      rw [readNumber, hother, scanWord_append]
    | none =>
      simp only [hinfinity] at h
      cases hnegative : scanWord (textOf "-Infinity") t with
      | some rest' =>
        rw [hnegative] at h
        obtain ⟨n, hn, heq⟩ := (Except.bind_eq_ok _ _ _).mp h
        cases heq
        apply hconstant _ ⟨n, hn, rfl⟩ (scanWord_eq_some hnegative)
          ⟨_, _, rfl, by decide⟩
        intro y
        have hother : scanWord (textOf "NaN") (textOf "-Infinity" ++ y) = none :=
          scanWord_head_ne (by decide) _ _
        have hother' : scanWord (textOf "Infinity") (textOf "-Infinity" ++ y) = none :=
          scanWord_head_ne (by decide) _ _
        rw [readNumber, hother, hother', scanWord_append]
      | none =>
        simp only [hnegative, Except.bind_eq_ok, orRaise_eq_ok] at h
        obtain ⟨⟨lexeme, rest'⟩, hscan, n, hn, heq⟩ := h
        cases heq
        obtain ⟨hsplit, ⟨c, more, rfl, hhead⟩, hframe⟩ := scanNumber_frames hscan
        have hbegins : beginsWord c = false := by
          by_contra hword
          simp only [Bool.not_eq_false, beginsWord, Bool.or_eq_true, decide_eq_true_eq] at hword
          rcases hword with (rfl | rfl) | rfl
          all_goals
            rcases hhead with hdigit | ⟨hminus, _⟩
            · exact absurd hdigit (by decide)
            · exact absurd hminus (by decide)
        refine ⟨c :: more, hsplit, ⟨c, more, rfl, hbegins⟩, fun y hy => ?_⟩
        have hnumber : D'.number (c :: more) = .ok n := hD.number _ _ hn
        rw [readNumber_of_digit hhead, hframe y hy, (orRaise_eq_ok _ _ _).mpr rfl, Except.ok_bind]
        simp only
        rw [hnumber]
        rfl

theorem readScalar_frames (hD : Extends D D') : Frames D.readScalar D'.readScalar := by
  intro t v rest h
  rw [readScalar] at h
  cases hnull : scanWord (textOf "null") t with
  | some rest' =>
    rw [hnull] at h
    cases h
    -- the three words begin with different letters, so a word is not taken for an earlier one
    apply frames_of_word hnull ⟨_, _, rfl⟩
    intro y
    rw [readScalar, scanWord_append]
  | none =>
    simp only [hnull] at h
    cases htrue : scanWord (textOf "true") t with
    | some rest' =>
      rw [htrue] at h
      cases h
      apply frames_of_word htrue ⟨_, _, rfl⟩
      intro y
      have hother : scanWord (textOf "null") (textOf "true" ++ y) = none :=
        scanWord_head_ne (by decide) _ _
      rw [readScalar, hother, scanWord_append]
    | none =>
      simp only [htrue] at h
      cases hfalse : scanWord (textOf "false") t with
      | some rest' =>
        rw [hfalse] at h
        cases h
        apply frames_of_word hfalse ⟨_, _, rfl⟩
        intro y
        have hother : scanWord (textOf "null") (textOf "false" ++ y) = none :=
          scanWord_head_ne (by decide) _ _
        have hother' : scanWord (textOf "true") (textOf "false" ++ y) = none :=
          scanWord_head_ne (by decide) _ _
        rw [readScalar, hother, hother', scanWord_append]
      | none =>
        simp only [hfalse] at h
        obtain ⟨used, hsplit, ⟨c, more, rfl, hbegins⟩, hframe⟩ := readNumber_frames hD h
        -- and a number begins with none of these letters
        refine ⟨c, more, hsplit, fun y hy => ?_⟩
        simp only [beginsWord, Bool.or_eq_false_iff, decide_eq_false_iff_not] at hbegins
        have hword : ∀ word d, c ≠ d → scanWord (d :: word) (c :: more ++ y) = none :=
          fun word d hne => scanWord_head_ne (Ne.symm hne) _ _
        have hnull' : scanWord (textOf "null") (c :: more ++ y) = none := hword _ _ hbegins.1.1
        have htrue' : scanWord (textOf "true") (c :: more ++ y) = none := hword _ _ hbegins.1.2
        have hfalse' : scanWord (textOf "false") (c :: more ++ y) = none := hword _ _ hbegins.2
        rw [readScalar, hnull', htrue', hfalse']
        exact hframe y hy

end PyDecoder

/-! ## Section 5: Containers -/

section Containers

variable {α : Type} {item item' : Reader α} {close : CodePoint}

/-- The items of a container are read up to the same bracket, whatever stands behind it. -/
theorem readItems_frames (hitem : Frames item item') (hclose : continuesNumber close = false)
    {fuel : ℕ} {t rest : Text} {xs : List α} (h : readItems item close fuel t = .ok (xs, rest)) :
    ∃ inner, t = inner ++ close :: rest ∧
      ∀ y fuel', inner.length < fuel' →
        readItems item' close fuel' (inner ++ close :: y) = .ok (xs, y) := by
  induction fuel generalizing t xs with
  | zero => cases h
  | succ fuel ih =>
    rw [readItems, Except.bind_eq_ok] at h
    obtain ⟨⟨x, rest₁⟩, hx, h⟩ := h
    obtain ⟨first, more, rfl, hframe⟩ := hitem _ _ _ hx
    generalize first :: more = used at *
    cases hnext : skipBlank rest₁ with
    | nil => simp only [hnext, reduceCtorEq] at h
    | cons c rest₂ =>
      obtain ⟨blanks, rfl, hblanks, hc⟩ := skipBlank_eq_cons hnext
      simp only [hnext] at h
      split_ifs at h with hclosed hcomma
      · -- the container ends here
        cases h
        subst hclosed
        refine ⟨used ++ blanks, by rw [List.append_assoc], fun y fuel' hfuel => ?_⟩
        obtain ⟨k, rfl⟩ : ∃ k, fuel' = k + 1 := ⟨fuel' - 1, by omega⟩
        rw [List.append_assoc, readItems, hframe _ (delimits_blanks hblanks hclose), Except.ok_bind]
        simp only [skipBlank_blanks hblanks hc, if_true]
      · -- another item follows
        obtain ⟨⟨more, rest₃⟩, hmore, heq⟩ := (Except.bind_eq_ok _ _ _).mp h
        cases heq
        obtain ⟨inner, hinner, hrest⟩ := ih hmore
        obtain ⟨blanks', rfl, hskip⟩ := skipBlank_frames hinner
        have hplain : continuesNumber c = false := hcomma ▸ by decide
        refine ⟨used ++ (blanks ++ c :: (blanks' ++ inner)), by simp, fun y fuel' hfuel => ?_⟩
        obtain ⟨k, rfl⟩ : ∃ k, fuel' = k + 1 := ⟨fuel' - 1, by omega⟩
        have henough : inner.length < k := by
          simp only [List.length_append, List.length_cons] at hfuel
          omega
        have hshape : used ++ (blanks ++ c :: (blanks' ++ inner)) ++ close :: y =
            used ++ (blanks ++ c :: (blanks' ++ (inner ++ close :: y))) := by simp
        rw [hshape, readItems, hframe _ (delimits_blanks hblanks hplain), Except.ok_bind]
        simp only [skipBlank_blanks hblanks hc, if_neg hclosed, if_pos hcomma, hskip,
          hrest y k henough, Except.ok_bind]

/-- A container is read up to its closing bracket, whatever stands behind it. -/
theorem readContainer_frames (hitem : Frames item item') (hclose : continuesNumber close = false)
    {t rest : Text} {xs : List α} (h : readContainer item close t = .ok (xs, rest)) :
    ∃ inner, t = inner ++ close :: rest ∧
      ∀ y, readContainer item' close (inner ++ close :: y) = .ok (xs, y) := by
  rw [readContainer] at h
  cases hnext : skipBlank t with
  | nil => simp only [hnext, reduceCtorEq] at h
  | cons c rest' =>
    obtain ⟨blanks, rfl, hblanks, hc⟩ := skipBlank_eq_cons hnext
    simp only [hnext] at h
    split_ifs at h with hclosed
    · cases h
      subst hclosed
      refine ⟨blanks, rfl, fun y => ?_⟩
      simp only [readContainer, skipBlank_blanks hblanks hc, if_true]
    · obtain ⟨inner, hinner, hframe⟩ := readItems_frames hitem hclose h
      -- the first item begins in front of the closing bracket
      cases inner with
      | nil => exact absurd (List.cons.inj hinner).1 hclosed
      | cons d inner =>
        obtain ⟨rfl, rfl⟩ := List.cons.inj hinner
        refine ⟨blanks ++ c :: inner, by simp, fun y => ?_⟩
        have hshape : blanks ++ c :: inner ++ close :: y =
            blanks ++ c :: (inner ++ close :: y) := by simp
        have henough : (c :: inner).length < (inner ++ close :: y).length + 2 := by
          rw [List.length_cons, List.length_append, List.length_cons]
          omega
        rw [hshape]
        simp only [readContainer, skipBlank_blanks hblanks hc, if_neg hclosed]
        exact hframe y _ henough

theorem readMember_frames (hitem : Frames item item') :
    Frames (readMember item) (readMember item') := by
  intro t member rest h
  rw [readMember, Except.bind_eq_ok] at h
  obtain ⟨⟨key, rest₁⟩, hkey, h⟩ := h
  -- a key, a colon and a value, with blanks around the colon
  obtain ⟨quote, more, rfl, hkeyFrame⟩ := readText_frames hkey
  cases hnext : skipBlank rest₁ with
  | nil => simp only [hnext, reduceCtorEq] at h
  | cons c rest₂ =>
    obtain ⟨blanks, rfl, hblanks, hc⟩ := skipBlank_eq_cons hnext
    simp only [hnext] at h
    split_ifs at h with hcolon
    obtain ⟨⟨v, rest₃⟩, hv, heq⟩ := (Except.bind_eq_ok _ _ _).mp h
    cases heq
    obtain ⟨first, others, hvalue, hframe⟩ := hitem _ _ _ hv
    obtain ⟨blanks', rfl, hblanks', hfirst⟩ := skipBlank_eq_cons hvalue
    -- every reading stops inside its own part, so what follows does not matter
    refine ⟨quote, more ++ (blanks ++ c :: (blanks' ++ first :: others)), by simp, fun y hy => ?_⟩
    have hshape : quote :: (more ++ (blanks ++ c :: (blanks' ++ first :: others))) ++ y =
        quote :: more ++ (blanks ++ c :: (blanks' ++ first :: (others ++ y))) := by simp
    rw [hshape, readMember, hkeyFrame, Except.ok_bind]
    simp only [skipBlank_blanks hblanks hc, if_pos hcolon, skipBlank_blanks hblanks' hfirst]
    have hread := hframe y hy
    rw [List.cons_append] at hread
    rw [hread]
    rfl

end Containers

/-! ## Section 6: Values -/

namespace PyDecoder

variable {ν : Type} {D D' : PyDecoder ν}

/-- An object is read up to its closing brace, whatever stands behind it. -/
theorem readWith_dict_frames (hD : Extends D D') {value value' : Reader (PyJson ν)}
    (hvalue : Frames value value') {t rest : Text} {pairs : List (Text × PyJson ν)}
    {members : List (Text × PyJson ν)}
    (h : readContainer (readMember value) (ofChar '}') t = .ok (pairs, rest))
    (hpairs : D.pairs pairs = .ok members) :
    ∃ inner, t = inner ++ ofChar '}' :: rest ∧
      ∀ y, D'.readWith (some value') (ofChar '{' :: (inner ++ ofChar '}' :: y)) =
        .ok (.dict members, y) := by
  obtain ⟨inner, rfl, hframe⟩ := readContainer_frames (readMember_frames hvalue) (by decide) h
  refine ⟨inner, rfl, fun y => ?_⟩
  have hquote : ofChar '{' ≠ ofChar '"' := by decide
  rw [readWith]
  simp only [if_neg hquote, if_true]
  rw [(orRaise_eq_ok _ _ _).mpr rfl, Except.ok_bind, hframe, Except.ok_bind, hD.pairs]
  simp only
  rw [hpairs]
  rfl

theorem readWith_frames (hD : Extends D D') {nested nested' : Option (Reader (PyJson ν))}
    (hnested : ∀ value, nested = some value → ∃ value', nested' = some value' ∧
      Frames value value') : Frames (D.readWith nested) (D'.readWith nested') := by
  intro t v rest h
  cases t with
  | nil => cases h
  | cons c t =>
    rw [readWith] at h
    split_ifs at h with hquote hbrace hbracket
    · -- a string
      obtain ⟨⟨s, rest'⟩, hs, heq⟩ := (Except.bind_eq_ok _ _ _).mp h
      cases heq
      obtain ⟨first, more, hsplit, hframe⟩ := readText_frames hs
      refine ⟨first, more, hsplit, fun y _ => ?_⟩
      rw [List.cons_append, List.cons.injEq] at hsplit
      rw [List.cons_append, readWith, if_pos (hsplit.1 ▸ hquote), ← List.cons_append, hframe]
      rfl
    · -- an object
      obtain ⟨value, hsome, h⟩ := (Except.bind_eq_ok _ _ _).mp h
      obtain ⟨⟨pairs, rest'⟩, hpairs, h⟩ := (Except.bind_eq_ok _ _ _).mp h
      obtain ⟨members, hmembers, heq⟩ := (Except.bind_eq_ok _ _ _).mp h
      cases heq
      obtain ⟨value', rfl, hvalue⟩ := hnested value ((orRaise_eq_ok _ _ _).mp hsome)
      obtain ⟨inner, rfl, hframe⟩ := readWith_dict_frames hD hvalue hpairs hmembers
      subst hbrace
      refine ⟨ofChar '{', inner ++ [ofChar '}'], by simp, fun y _ => ?_⟩
      rw [List.cons_append, List.append_assoc, List.singleton_append]
      exact hframe y
    · -- a list
      obtain ⟨value, hsome, h⟩ := (Except.bind_eq_ok _ _ _).mp h
      obtain ⟨⟨items, rest'⟩, hitems, heq⟩ := (Except.bind_eq_ok _ _ _).mp h
      cases heq
      obtain ⟨value', rfl, hvalue⟩ := hnested value ((orRaise_eq_ok _ _ _).mp hsome)
      obtain ⟨inner, rfl, hframe⟩ := readContainer_frames hvalue (by decide) hitems
      refine ⟨c, inner ++ [ofChar ']'], by simp, fun y _ => ?_⟩
      rw [List.cons_append, List.append_assoc, List.singleton_append, readWith]
      simp only [if_neg hquote, if_neg hbrace, if_pos hbracket]
      rw [(orRaise_eq_ok _ _ _).mpr rfl, Except.ok_bind, hframe]
      rfl
    · -- a constant or a number
      obtain ⟨first, more, hsplit, hframe⟩ := readScalar_frames hD _ _ _ h
      refine ⟨first, more, hsplit, fun y hy => ?_⟩
      rw [List.cons_append, List.cons.injEq] at hsplit
      have hread := hframe y hy
      rw [List.cons_append] at hread ⊢
      rw [readWith]
      simp only [← hsplit.1, if_neg hquote, if_neg hbrace, if_neg hbracket]
      rw [hsplit.1]
      exact hread

/-- What the decoder reads of a text it reads wherever that stands, and so does a decoder with wider
limits. -/
theorem readValue_frames (hD : Extends D D') {depth depth' : ℕ} (hdepth : depth ≤ depth') :
    Frames (D.readValue depth) (D'.readValue depth') := by
  induction depth generalizing depth' with
  | zero =>
    -- at the limit no value is read inside another
    cases depth' with
    | zero =>
      apply readWith_frames hD
      intro value hvalue
      cases hvalue
    | succ k =>
      apply readWith_frames hD
      intro value hvalue
      cases hvalue
  | succ depth ih =>
    obtain ⟨k, rfl⟩ : ∃ k, depth' = k + 1 := ⟨depth' - 1, by omega⟩
    apply readWith_frames hD
    intro value hvalue
    rw [Option.some.injEq] at hvalue
    exact ⟨_, rfl, hvalue ▸ ih (by omega)⟩

/-! ## Section 7: Objects -/

/-- The text between the braces spells an object, whatever stands behind it. -/
def Spells (D : PyDecoder ν) (inner : Text) (members : List (Text × PyJson ν)) : Prop :=
  ∀ y, D.readValue D.limit (ofChar '{' :: (inner ++ ofChar '}' :: y)) = .ok (.dict members, y)

theorem readValue_dict_frames (hD : Extends D D') {t rest : Text}
    {members : List (Text × PyJson ν)} (h : D.readValue D.limit t = .ok (.dict members, rest)) :
    ∃ inner, t = ofChar '{' :: (inner ++ ofChar '}' :: rest) ∧ D'.Spells inner members := by
  have hquote : ofChar '{' ≠ ofChar '"' := by decide
  have hwith : ∀ nested, D.readWith nested t = .ok (.dict members, rest) →
      ∃ value t' pairs, nested = some value ∧ t = ofChar '{' :: t' ∧
        readContainer (readMember value) (ofChar '}') t' = .ok (pairs, rest) ∧
          D.pairs pairs = .ok members := by
    intro nested h
    cases t with
    | nil => cases h
    | cons c t =>
      -- only the branch of a brace answers an object
      rw [readWith] at h
      split_ifs at h with hstring hbrace hbracket
      · obtain ⟨⟨s, rest'⟩, _, heq⟩ := (Except.bind_eq_ok _ _ _).mp h
        cases heq
      · obtain ⟨value, hsome, h⟩ := (Except.bind_eq_ok _ _ _).mp h
        obtain ⟨⟨pairs, rest'⟩, hpairs, h⟩ := (Except.bind_eq_ok _ _ _).mp h
        obtain ⟨members', hmembers, heq⟩ := (Except.bind_eq_ok _ _ _).mp h
        cases heq
        exact ⟨value, t, pairs, (orRaise_eq_ok _ _ _).mp hsome, by rw [hbrace], hpairs, hmembers⟩
      · obtain ⟨value, _, h⟩ := (Except.bind_eq_ok _ _ _).mp h
        obtain ⟨⟨items, rest'⟩, _, heq⟩ := (Except.bind_eq_ok _ _ _).mp h
        cases heq
      · exact absurd h readScalar_ne_dict
  cases hlimit : D.limit with
  | zero =>
    rw [hlimit] at h
    obtain ⟨value, _, _, hnone, _⟩ := hwith none h
    cases hnone
  | succ depth =>
    rw [hlimit] at h
    obtain ⟨value, t', pairs, hsome, rfl, hpairs, hmembers⟩ := hwith _ h
    rw [Option.some.injEq] at hsome
    subst hsome
    -- the wider decoder has at least the depth that this one needed
    have hwider := hD.limit
    obtain ⟨k, hk⟩ : ∃ k, D'.limit = k + 1 := ⟨D'.limit - 1, by omega⟩
    have hvalue : Frames (D.readValue depth) (D'.readValue k) := readValue_frames hD (by omega)
    obtain ⟨inner, rfl, hframe⟩ := readWith_dict_frames hD hvalue hpairs hmembers
    refine ⟨inner, rfl, fun y => ?_⟩
    rw [hk]
    exact hframe y

/-- Two objects that a decoder reads at the start of one text are one. -/
theorem Spells.unique {inner inner' a b : Text} {members members' : List (Text × PyJson ν)}
    (h : D.Spells inner members) (h' : D.Spells inner' members')
    (htext : ofChar '{' :: (inner ++ ofChar '}' :: a) = ofChar '{' :: (inner' ++ ofChar '}' :: b)) :
    inner = inner' ∧ a = b ∧ members = members' := by
  have hread := h a
  rw [htext, h' b, Except.ok.injEq, Prod.mk.injEq, PyJson.dict.injEq] at hread
  obtain ⟨hmembers, hrest⟩ := hread
  subst hrest
  exact ⟨List.append_cancel_right (List.cons.inj htext).2, rfl, hmembers.symm⟩

/-- A decoder with wider limits reads the same objects. -/
theorem Spells.mono (hD : Extends D D') {inner : Text} {members : List (Text × PyJson ν)}
    (h : D.Spells inner members) : D'.Spells inner members := by
  obtain ⟨inner', htext, hspells⟩ := readValue_dict_frames hD (h [])
  have hsame : inner = inner' := List.append_cancel_right (List.cons.inj htext).2
  exact hsame ▸ hspells

/-- Text that is white space alone. -/
def Blank (t : Text) : Prop := ∀ c ∈ t, jsonBlank c = true

theorem skipBlank_eq_nil_iff {t : Text} : skipBlank t = [] ↔ Blank t := List.dropWhile_eq_nil_iff

/-- **Objects.** The decoder reads an object from a text exactly when the text is the object with
white space around it. -/
theorem parse_dict_iff {t : Text} {members : List (Text × PyJson ν)} :
    D.parse t = .ok (.dict members) ↔ ∃ front inner back,
      t = front ++ ofChar '{' :: (inner ++ ofChar '}' :: back) ∧ Blank front ∧ Blank back ∧
        D.Spells inner members := by
  have hbrace : jsonBlank (ofChar '{') = false := by decide
  rw [parse]
  constructor
  · intro h
    obtain ⟨⟨v, rest⟩, hv, h⟩ := (Except.bind_eq_ok _ _ _).mp h
    simp only [Except.bind_eq_ok, raiseIf_eq_ok, not_not, Except.pure_eq_ok] at h
    obtain ⟨_, hrest, rfl⟩ := h
    obtain ⟨inner, htext, hspells⟩ := readValue_dict_frames (Extends.refl D) hv
    obtain ⟨front, ht, hfront, _⟩ := skipBlank_eq_cons htext
    exact ⟨front, inner, rest, ht, hfront, skipBlank_eq_nil_iff.mp hrest, hspells⟩
  · intro h
    obtain ⟨front, inner, back, rfl, hfront, hback, hspells⟩ := h
    rw [skipBlank_blanks hfront hbrace, hspells back, Except.ok_bind]
    have hend : ¬ skipBlank back ≠ [] := not_not.mpr (skipBlank_eq_nil_iff.mpr hback)
    simp only
    rw [raiseIf_of_not _ hend]
    rfl

/-- What a decoder reads, one with wider limits reads alike. -/
theorem parse_mono (hD : Extends D D') {t : Text} {v : PyJson ν} (h : D.parse t = .ok v) :
    D'.parse t = .ok v := by
  rw [parse] at h ⊢
  obtain ⟨⟨v', rest⟩, hv, h⟩ := (Except.bind_eq_ok _ _ _).mp h
  obtain ⟨c, more, hsplit, hframe⟩ := readValue_frames hD hD.limit _ _ _ hv
  -- white space delimits a number
  have hrest : Delimits rest := by
    intro d hd
    simp only [Except.bind_eq_ok, raiseIf_eq_ok, not_not] at h
    obtain ⟨_, hblank, _⟩ := h
    exact continuesNumber_blank (skipBlank_eq_nil_iff.mp hblank d (List.mem_of_mem_head? hd))
  rw [hsplit, hframe rest hrest]
  exact h

/-- No proper beginning of an object is read as one. -/
theorem parse_beginning (hD : Extends D D') {inner front begun rest : Text} {c : CodePoint}
    {members members' : List (Text × PyJson ν)} (hspells : D'.Spells inner members)
    (hfront : Blank front)
    (hsplit : ofChar '{' :: (inner ++ [ofChar '}']) = ofChar '{' :: (begun ++ c :: rest)) :
    D.parse (front ++ ofChar '{' :: begun) ≠ .ok (.dict members') := by
  intro h
  have hbrace : jsonBlank (ofChar '{') = false := by decide
  obtain ⟨front', inner', back', htext, hfront', _, hbegun⟩ := parse_dict_iff.mp h
  -- both texts begin with the same white space
  have hskip := congrArg skipBlank htext
  rw [skipBlank_blanks hfront hbrace, skipBlank_blanks hfront' hbrace] at hskip
  have hwhole : ofChar '{' :: (inner ++ ofChar '}' :: []) =
      ofChar '{' :: (inner' ++ ofChar '}' :: (back' ++ c :: rest)) := by
    rw [hsplit, ← List.cons_append, hskip]
    simp
  have hrest := (hspells.unique (hbegun.mono hD) hwhole).2.1
  exact absurd hrest.symm (by simp)

end PyDecoder

end Library
