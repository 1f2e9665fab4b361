import ContractCapsule.Library.Unicode
import Mathlib.Data.List.DropRight

/-!
# Lines of a Text

Programs disagree about what ends a line. This module splits a text into lines under any
convention, and says which line holds a given place of the text.

A convention is the set of characters that end a line; a carriage return and a line feed behind it
are one end. `holdsPlace_lineNumber` says that the line of a place is counted by the line ends in
front of it, and `lineNumber_eq_iff` compares two conventions, one of which ends lines at more
characters: they give a place the same number exactly when none of those characters is in front.
-/

namespace Library

/-! ## Section 1: Splitting -/

/-- The carriage return. -/
def carriageReturn : CodePoint := codePoint 0x0D

/-- The line feed. -/
def lineFeed : CodePoint := codePoint 0x0A

/-- A convention for the ends of lines; under all of them the carriage return and the line feed
end a line. -/
structure LineEnds where
  ends : CodePoint → Bool
  carriageReturn_ends : ends carriageReturn = true
  lineFeed_ends : ends lineFeed = true

variable (E : LineEnds)

/-- A character in front of some lines belongs to the first of them: it does not end a line, or it
is a carriage return whose line feed comes next. -/
def LineEnds.joins (c : CodePoint) (lines : List Text) : Bool :=
  !E.ends c || (c == carriageReturn && lines.head? == some [lineFeed])

/-- Put a character in front of some lines. -/
def LineEnds.prepend (c : CodePoint) (lines : List Text) : List Text :=
  if E.joins c lines then (c :: lines.headD []) :: lines.tail else [c] :: lines

/-- The lines of a text, each with its end. -/
def LineEnds.lines (text : Text) : List Text := text.foldr E.prepend []

/-- A line without its end. -/
def LineEnds.body (line : Text) : Text := line.takeWhile fun c => !E.ends c

variable {E}

theorem LineEnds.lines_cons (c : CodePoint) (text : Text) :
    E.lines (c :: text) = E.prepend c (E.lines text) := rfl

theorem flatten_prepend (c : CodePoint) (lines : List Text) :
    (E.prepend c lines).flatten = c :: lines.flatten := by
  unfold LineEnds.prepend
  split
  · cases lines <;> simp
  · simp

/-- The lines make up the text. -/
theorem flatten_lines (text : Text) : (E.lines text).flatten = text := by
  induction text with
  | nil => rfl
  | cons c text ih => rw [LineEnds.lines_cons, flatten_prepend, ih]

/-- The first line begins with the first character. -/
theorem lines_eq_nil_iff {text : Text} : E.lines text = [] ↔ text = [] := by
  constructor
  · intro h
    rw [← flatten_lines (E := E) text, h]
    rfl
  · rintro rfl
    rfl

/-- A line of a line feed alone stands in front exactly when the text begins with one. -/
theorem head_lines_eq_lineFeed_iff {text : Text} :
    (E.lines text).head? = some [lineFeed] ↔ text.head? = some lineFeed := by
  constructor
  · intro h
    obtain ⟨rest, hrest⟩ := List.head?_eq_some_iff.mp h
    rw [← flatten_lines (E := E) text, hrest]
    rfl
  · intro h
    obtain ⟨rest, rfl⟩ := List.head?_eq_some_iff.mp h
    have hne : lineFeed ≠ carriageReturn := by decide
    have hsplit : E.joins lineFeed (E.lines rest) = false := by
      simp [LineEnds.joins, E.lineFeed_ends, beq_false_of_ne hne]
    rw [LineEnds.lines_cons, LineEnds.prepend, hsplit]
    rfl

/-- A line is its body and, behind it, characters that end lines. -/
theorem line_eq_body_append {text line : Text} (h : line ∈ E.lines text) :
    ∃ stop, line = E.body line ++ stop ∧ ∀ c ∈ stop, E.ends c = true := by
  induction text generalizing line with
  | nil => cases h
  | cons c text ih =>
    rw [LineEnds.lines_cons, LineEnds.prepend] at h
    cases hends : E.ends c with
    | false =>
      have hjoins : E.joins c (E.lines text) = true := by simp [LineEnds.joins, hends]
      rw [if_pos hjoins] at h
      rcases List.mem_cons.mp h with rfl | hmem
      · cases hlines : E.lines text with
        | nil => exact ⟨[], by simp [LineEnds.body, hends], by simp⟩
        | cons first rest =>
          obtain ⟨stop, hfirst, hstop⟩ := ih (hlines ▸ List.mem_cons_self)
          refine ⟨stop, ?_, hstop⟩
          rw [List.headD_cons, LineEnds.body, List.takeWhile_cons, if_pos (by simp [hends]),
            List.cons_append]
          exact congrArg (c :: ·) hfirst
      · exact ih (List.mem_of_mem_tail hmem)
    | true =>
      -- the line that `c` begins consists of line ends
      cases hjoins : E.joins c (E.lines text) with
      | false =>
        rw [if_neg (by simp [hjoins])] at h
        rcases List.mem_cons.mp h with rfl | hmem
        · exact ⟨[c], by simp [LineEnds.body, hends], by simp [hends]⟩
        · exact ih hmem
      | true =>
        rw [if_pos hjoins] at h
        have hhead : (E.lines text).head? = some [lineFeed] := by
          simp only [LineEnds.joins, hends, Bool.not_true, Bool.false_or, Bool.and_eq_true,
            beq_iff_eq] at hjoins
          exact hjoins.2
        obtain ⟨rest, hlines⟩ := List.head?_eq_some_iff.mp hhead
        rw [hlines] at h ih
        rcases List.mem_cons.mp h with rfl | hmem
        · refine ⟨[c, lineFeed], by simp [LineEnds.body, hends], ?_⟩
          simp [hends, E.lineFeed_ends]
        · exact ih (List.mem_cons_of_mem _ hmem)

theorem exists_lines_cons (c : CodePoint) (text : Text) :
    ∃ first later, E.lines (c :: text) = first :: later ∧ first.head? = some c := by
  rw [LineEnds.lines_cons, LineEnds.prepend]
  split
  · exact ⟨_, _, rfl, rfl⟩
  · exact ⟨_, _, rfl, rfl⟩

/-- Lines end at a line feed, whatever stands behind it. -/
theorem lines_append_lineFeed (text more : Text) :
    E.lines (text ++ lineFeed :: more) = E.lines (text ++ [lineFeed]) ++ E.lines more := by
  have hne : lineFeed ≠ carriageReturn := by decide
  induction text with
  | nil =>
    have hsplit : ∀ lines, E.joins lineFeed lines = false := by
      intro lines
      simp [LineEnds.joins, E.lineFeed_ends, beq_false_of_ne hne]
    rw [List.nil_append, List.nil_append, LineEnds.lines_cons, LineEnds.prepend, hsplit,
      LineEnds.lines_cons, LineEnds.prepend, hsplit]
    rfl
  | cons c text ih =>
    rw [List.cons_append, LineEnds.lines_cons, ih, List.cons_append, LineEnds.lines_cons]
    -- the first line is there, so a character in front looks at it alone
    obtain ⟨first, later, hlines⟩ :
        ∃ first later, E.lines (text ++ [lineFeed]) = first :: later := by
      apply List.exists_cons_of_ne_nil
      intro hnil
      simpa using lines_eq_nil_iff.mp hnil
    rw [hlines, List.cons_append, LineEnds.prepend, LineEnds.prepend, LineEnds.joins,
      LineEnds.joins, List.head?_cons, List.head?_cons]
    split
    · rfl
    · rfl

/-- Characters that end no line belong to the line behind them. -/
theorem lines_append_of_plain {front text : Text} (h : ∀ c ∈ front, E.ends c = false)
    (hne : front ≠ []) :
    E.lines (front ++ text) = (front ++ (E.lines text).headD []) :: (E.lines text).tail := by
  induction front with
  | nil => exact absurd rfl hne
  | cons c front ih =>
    have hjoins : ∀ lines, E.joins c lines = true := by
      intro lines
      simp [LineEnds.joins, h c List.mem_cons_self]
    rw [List.cons_append, LineEnds.lines_cons, LineEnds.prepend, if_pos (hjoins _)]
    cases front with
    | nil => rfl
    | cons d front =>
      rw [ih (fun e he => h e (List.mem_cons_of_mem _ he)) (List.cons_ne_nil _ _)]
      rfl

/-- Lines in front of a character that ends none: the last of them is joined with the first line of
what follows. -/
theorem lines_append_of_head {front rest : Text} {c : CodePoint} (hc : E.ends c = false) :
    ∃ before begun, E.lines (front ++ c :: rest) =
        before ++ (begun ++ (E.lines (c :: rest)).headD []) :: (E.lines (c :: rest)).tail ∧
      (∀ line ∈ before, ∀ d ∈ line, d ∈ front) ∧ (∀ d ∈ begun, d ∈ front) ∧
      ∀ d ∈ begun, E.ends d = false := by
  obtain ⟨first, later, hlines, hfirst⟩ := @exists_lines_cons E c rest
  rw [hlines, List.headD_cons, List.tail_cons]
  induction front with
  | nil => exact ⟨[], [], by simp [hlines], by simp, by simp, by simp⟩
  | cons d front ih =>
    obtain ⟨before, begun, heq, hbefore, hbegun, hplain⟩ := ih
    rw [List.cons_append, LineEnds.lines_cons, heq]
    have hmore : ∀ line ∈ before, ∀ e ∈ line, e ∈ d :: front :=
      fun line hline e he => List.mem_cons_of_mem _ (hbefore line hline e he)
    have hbegun' : ∀ e ∈ begun, e ∈ d :: front := fun e he => List.mem_cons_of_mem _ (hbegun e he)
    cases before with
    | cons line before =>
      -- the character stands in front of an earlier line
      rw [LineEnds.prepend]
      split
      · refine ⟨(d :: line) :: before, begun, rfl, ?_, hbegun', hplain⟩
        intro other hother e he
        rcases List.mem_cons.mp hother with rfl | hother
        · rcases List.mem_cons.mp he with rfl | he
          · exact List.mem_cons_self
          · exact hmore line List.mem_cons_self e he
        · exact hmore other (List.mem_cons_of_mem _ hother) e he
      · refine ⟨[d] :: line :: before, begun, rfl, ?_, hbegun', hplain⟩
        intro other hother e he
        rcases List.mem_cons.mp hother with rfl | hother
        · rw [List.mem_singleton.mp he]
          exact List.mem_cons_self
        · exact hmore other hother e he
    | nil =>
      cases hends : E.ends d with
      | false =>
        have hjoins : ∀ lines, E.joins d lines = true := by
          intro lines
          simp [LineEnds.joins, hends]
        refine ⟨[], d :: begun, by simp [LineEnds.prepend, hjoins], by simp, ?_, ?_⟩
        · intro e he
          rcases List.mem_cons.mp he with rfl | he
          · exact List.mem_cons_self
          · exact hbegun' e he
        · intro e he
          rcases List.mem_cons.mp he with rfl | he
          · exact hends
          · exact hplain e he
      | true =>
        -- the line behind it does not begin with a line feed that ends it
        have hsplit : E.joins d ((begun ++ first) :: later) = false := by
          have hnot : begun ++ first ≠ [lineFeed] := by
            intro hsingle
            cases begun with
            | nil =>
              rw [List.nil_append] at hsingle
              rw [hsingle, List.head?_cons, Option.some.injEq] at hfirst
              rw [← hfirst, E.lineFeed_ends] at hc
              cases hc
            | cons e begun =>
              rw [List.cons_append, List.cons.injEq] at hsingle
              have hplainFeed := hplain e List.mem_cons_self
              rw [hsingle.1, E.lineFeed_ends] at hplainFeed
              cases hplainFeed
          simp [LineEnds.joins, hends, hnot]
        refine ⟨[[d]], begun, by simp [LineEnds.prepend, hsplit], ?_, hbegun', hplain⟩
        intro other hother e he
        rw [List.mem_singleton] at hother
        subst hother
        rw [List.mem_singleton.mp he]
        exact List.mem_cons_self

/-- Every character of a line is one of the text. -/
theorem mem_of_mem_lines {text line : Text} (h : line ∈ E.lines text) {c : CodePoint}
    (hc : c ∈ line) : c ∈ text := by
  rw [← flatten_lines (E := E) text]
  exact List.mem_flatten.mpr ⟨line, h, hc⟩

/-- The body of a line that begins with characters that end none. -/
theorem body_append_of_plain {front rest : Text} (h : ∀ c ∈ front, E.ends c = false) :
    E.body (front ++ rest) = front ++ E.body rest := by
  apply List.takeWhile_append_of_pos
  intro c hc
  simp [h c hc]

/-- Texts in which no line ends are the bodies of the lines that they are written on. -/
theorem bodies_of_plain {texts : List Text} (h : ∀ text ∈ texts, ∀ c ∈ text, E.ends c = false) :
    (E.lines (texts.flatMap fun text => text ++ [lineFeed])).map E.body = texts := by
  have hend : E.ends lineFeed = true := E.lineFeed_ends
  induction texts with
  | nil => rfl
  | cons text texts ih =>
    have hplain := h text List.mem_cons_self
    have hone : E.lines (text ++ [lineFeed]) = [text ++ [lineFeed]] := by
      have hfeed : E.lines [lineFeed] = [[lineFeed]] := by
        rw [LineEnds.lines_cons, LineEnds.prepend]
        split <;> rfl
      cases text with
      | nil => exact hfeed
      | cons c text => rw [lines_append_of_plain hplain (List.cons_ne_nil _ _), hfeed]; rfl
    have hbody : E.body (text ++ [lineFeed]) = text := by
      have hstop : E.body [lineFeed] = [] := List.takeWhile_cons_of_neg (by simp [hend])
      rw [body_append_of_plain hplain, hstop, List.append_nil]
    rw [List.flatMap_cons, List.append_assoc, List.singleton_append, lines_append_lineFeed,
      List.map_append, hone, ih fun other hother => h other (List.mem_cons_of_mem _ hother),
      List.map_singleton, hbody]
    rfl

/-! ## Section 2: The line of a place -/

/-- Line `number`, counted from one, holds the character at `place`. -/
def HoldsPlace (lines : List Text) (number place : ℕ) : Prop :=
  1 ≤ number ∧ (lines.take (number - 1)).flatten.length ≤ place ∧
    place < (lines.take number).flatten.length

/-- How many lines end in a text. -/
def LineEnds.endsIn (E : LineEnds) : Text → ℕ
  | [] => 0
  | c :: rest =>
    (if E.ends c && !(c == carriageReturn && rest.head? == some lineFeed) then 1 else 0) +
      endsIn E rest

/-- The number of the line that holds a place. -/
def LineEnds.lineNumber (E : LineEnds) (text : Text) (place : ℕ) : ℕ :=
  E.endsIn (text.take place) + 1

theorem length_flatten_take_le {lines : List Text} {n m : ℕ} (h : n ≤ m) :
    (lines.take n).flatten.length ≤ (lines.take m).flatten.length := by
  obtain ⟨k, rfl⟩ := Nat.exists_eq_add_of_le h
  rw [List.take_add, List.flatten_append, List.length_append]
  omega

/-- At most one line holds a place. -/
theorem HoldsPlace.unique {lines : List Text} {n m place : ℕ} (hn : HoldsPlace lines n place)
    (hm : HoldsPlace lines m place) : n = m := by
  obtain ⟨hnpos, hnlow, hnhigh⟩ := hn
  obtain ⟨hmpos, hmlow, hmhigh⟩ := hm
  rcases Nat.lt_trichotomy n m with hlt | heq | hgt
  · have := @length_flatten_take_le lines n (m - 1) (by omega)
    omega
  · exact heq
  · have := @length_flatten_take_le lines m (n - 1) (by omega)
    omega

/-- The line that holds a place is there. -/
theorem HoldsPlace.le_length {lines : List Text} {n place : ℕ} (h : HoldsPlace lines n place) :
    n ≤ lines.length := by
  by_contra hlong
  have hall : (lines.take n) = lines.take (n - 1) := by
    rw [List.take_of_length_le (by omega), List.take_of_length_le (by omega)]
  obtain ⟨_, hlow, hhigh⟩ := h
  rw [hall] at hhigh
  omega

/-- A character that joins the first line moves every place by one. -/
theorem HoldsPlace.join {lines : List Text} {n place : ℕ} (h : HoldsPlace lines n place)
    (c : CodePoint) : HoldsPlace ((c :: lines.headD []) :: lines.tail) n (place + 1) := by
  obtain ⟨hpos, hlow, hhigh⟩ := h
  obtain ⟨k, rfl⟩ : ∃ k, n = k + 1 := ⟨n - 1, by omega⟩
  cases lines with
  | nil => simp at hhigh
  | cons line rest =>
    refine ⟨hpos, ?_, ?_⟩
    · cases k with
      | zero => simp
      | succ k => simpa using hlow
    · simpa using hhigh

/-- A line in front moves every place and every number. -/
theorem HoldsPlace.push {lines : List Text} {n place : ℕ} (h : HoldsPlace lines n place)
    (c : CodePoint) : HoldsPlace ([c] :: lines) (n + 1) (place + 1) := by
  obtain ⟨hpos, hlow, hhigh⟩ := h
  obtain ⟨k, rfl⟩ : ∃ k, n = k + 1 := ⟨n - 1, by omega⟩
  refine ⟨by omega, ?_, ?_⟩
  · simpa using hlow
  · simpa using hhigh

/-- The line of a place is counted by the line ends in front of it, unless a line end stands at the
place itself. -/
theorem holdsPlace_append {front rest : Text} {c : CodePoint} (hc : E.ends c = false) :
    HoldsPlace (E.lines (front ++ c :: rest)) (E.endsIn front + 1) front.length := by
  induction front with
  -- in front of the text there is one line, and the place is in it
  | nil =>
    have hjoins : E.joins c (E.lines rest) = true := by simp [LineEnds.joins, hc]
    rw [List.nil_append, LineEnds.lines_cons, LineEnds.prepend, if_pos hjoins]
    exact ⟨by simp, by simp [LineEnds.endsIn], by simp [LineEnds.endsIn]⟩
  | cons d front ih =>
    -- whether the next character is a line feed does not depend on what stands at the place
    have hnext : (front ++ c :: rest).head? = some lineFeed ↔ front.head? = some lineFeed := by
      cases front with
      | nil =>
        have hne : c ≠ lineFeed := by
          intro heq
          rw [heq, E.lineFeed_ends] at hc
          exact absurd hc (by simp)
        simp [hne]
      | cons e front => simp
    have hstart : ((E.lines (front ++ c :: rest)).head? == some [lineFeed]) =
        (front.head? == some lineFeed) := by
      rw [Bool.eq_iff_iff, beq_iff_eq, beq_iff_eq, head_lines_eq_lineFeed_iff, hnext]
    rw [List.cons_append, LineEnds.lines_cons, LineEnds.prepend, LineEnds.endsIn,
      List.length_cons]
    -- a character joins the line behind it exactly when it does not count as a line end
    cases hjoins : E.joins d (E.lines (front ++ c :: rest)) with
    | true =>
      have hcount : (E.ends d && !(d == carriageReturn && front.head? == some lineFeed)) = false := by
        rw [LineEnds.joins, hstart] at hjoins
        generalize (d == carriageReturn && front.head? == some lineFeed) = crlf at hjoins ⊢
        revert hjoins
        cases E.ends d <;> cases crlf <;> simp
      rw [if_pos rfl, hcount, if_neg (by simp), Nat.zero_add]
      exact ih.join d
    | false =>
      have hcount : (E.ends d && !(d == carriageReturn && front.head? == some lineFeed)) = true := by
        rw [LineEnds.joins, hstart] at hjoins
        generalize (d == carriageReturn && front.head? == some lineFeed) = crlf at hjoins ⊢
        revert hjoins
        cases E.ends d <;> cases crlf <;> simp
      rw [if_neg (by simp), hcount, if_pos rfl, Nat.add_comm 1]
      exact ih.push d

theorem holdsPlace_lineNumber {text : Text} {place : ℕ} {c : CodePoint}
    (hplace : text[place]? = some c) (hc : E.ends c = false) :
    HoldsPlace (E.lines text) (E.lineNumber text place) place := by
  obtain ⟨hlt, hget⟩ := List.getElem?_eq_some_iff.mp hplace
  have hsplit : text = text.take place ++ c :: text.drop (place + 1) := by
    rw [← hget, List.getElem_cons_drop, List.take_append_drop]
  have hfront := @holdsPlace_append E (text.take place) (text.drop (place + 1)) c hc
  rw [← hsplit, List.length_take, Nat.min_eq_left (by omega)] at hfront
  exact hfront

/-! ## Section 3: Two conventions -/

/-- The characters that end a line under the second convention alone. -/
def extraEnd (E E' : LineEnds) (c : CodePoint) : Bool := E'.ends c && !E.ends c

/-- The second convention ends lines wherever the first does. -/
def Coarser (E E' : LineEnds) : Prop := ∀ c, E.ends c = true → E'.ends c = true

/-- The finer convention counts one more line for each character that ends lines for it alone. -/
theorem endsIn_eq_add {E E' : LineEnds} (h : Coarser E E') (text : Text) :
    E'.endsIn text = E.endsIn text + (text.filter (extraEnd E E')).length := by
  induction text with
  | nil => rfl
  | cons c text ih =>
    rw [LineEnds.endsIn, LineEnds.endsIn, ih, List.filter_cons]
    cases hends : E.ends c with
    | true => simp [extraEnd, hends, h c hends, Nat.add_assoc]
    | false =>
      have hne : c ≠ carriageReturn := by
        intro heq
        rw [heq, E.carriageReturn_ends] at hends
        exact absurd hends (by simp)
      cases hends' : E'.ends c with
      | true =>
        simp [extraEnd, hends, hends', beq_false_of_ne hne]
        omega
      | false => simp [extraEnd, hends, hends']

/-- The two conventions give a place one number exactly when none of the characters on which they
differ is in front of it. -/
theorem lineNumber_eq_iff {E E' : LineEnds} (h : Coarser E E') {text : Text} {place : ℕ} :
    E.lineNumber text place = E'.lineNumber text place ↔
      ∀ c ∈ text.take place, extraEnd E E' c = false := by
  rw [LineEnds.lineNumber, LineEnds.lineNumber, endsIn_eq_add h]
  constructor
  · intro heq c hc
    have hempty : (text.take place).filter (extraEnd E E') = [] := by
      apply List.eq_nil_of_length_eq_zero
      omega
    have hnone := List.filter_eq_nil_iff.mp hempty c hc
    simpa using hnone
  · intro hnone
    have hempty : (text.take place).filter (extraEnd E E') = [] := by
      apply List.filter_eq_nil_iff.mpr
      intro c hc
      simp [hnone c hc]
    rw [hempty]
    rfl

/-! ## Section 4: Stripping -/

/-- `str.strip` of the characters with a property. -/
def stripBy (p : CodePoint → Bool) (text : Text) : Text := (text.rdropWhile p).dropWhile p

variable {p : CodePoint → Bool}

/-- A text with a character that is not stripped is not stripped away. -/
theorem stripBy_ne_nil {text : Text} {c : CodePoint} (hmem : c ∈ text) (hc : p c = false) :
    stripBy p text ≠ [] := by
  intro hnil
  rw [stripBy, List.dropWhile_eq_nil_iff] at hnil
  have hright : text.rdropWhile p = [] := by
    by_contra hne
    have hlast := List.rdropWhile_last_not p text hne
    exact hlast (hnil _ (List.getLast_mem hne))
  rw [List.rdropWhile_eq_nil_iff.mp hright c hmem] at hc
  cases hc

/-- What is stripped anyway may stand behind the text. -/
theorem stripBy_append {text stop : Text} (h : ∀ c ∈ stop, p c = true) :
    stripBy p (text ++ stop) = stripBy p text := by
  have hstop : ∀ c ∈ stop.reverse, p c = true := by
    intro c hc
    exact h c (List.mem_reverse.mp hc)
  rw [stripBy, List.rdropWhile, List.reverse_append, List.dropWhile_append_of_pos hstop]
  rfl

/-- Where line ends are stripped, a line is stripped to the same text with and without its end. -/
theorem stripBy_body {text line : Text} (h : line ∈ E.lines text)
    (hp : ∀ c, E.ends c = true → p c = true) : stripBy p (E.body line) = stripBy p line := by
  obtain ⟨stop, hline, hstop⟩ := line_eq_body_append h
  have happend := @stripBy_append p (E.body line) stop (fun c hc => hp c (hstop c hc))
  rw [← hline] at happend
  exact happend.symm

/-- A text at neither end of which there is something to strip. -/
def Stripped (p : CodePoint → Bool) (text : Text) : Prop :=
  (∀ h : text ≠ [], p (text.head h) = false) ∧ ∀ h : text ≠ [], p (text.getLast h) = false

theorem stripped_stripBy (text : Text) : Stripped p (stripBy p text) := by
  constructor
  · intro h
    exact List.head_dropWhile_not p h
  · intro h
    -- the last character is the last one of what is left after stripping on the right
    have hsuffix : stripBy p text <:+ text.rdropWhile p := List.dropWhile_suffix p
    have hright : text.rdropWhile p ≠ [] := by
      intro hnil
      rw [hnil] at hsuffix
      exact h (List.suffix_nil.mp hsuffix)
    have hlast : (stripBy p text).getLast h = (text.rdropWhile p).getLast hright :=
      hsuffix.getLast h
    rw [hlast]
    simpa using List.rdropWhile_last_not p text hright

/-- There is nothing to strip from a stripped text. -/
theorem Stripped.stripBy_eq {text : Text} (h : Stripped p text) : stripBy p text = text := by
  obtain ⟨hhead, hlast⟩ := h
  have hright : text.rdropWhile p = text := by
    apply List.rdropWhile_eq_self_iff.mpr
    intro hne
    simp [hlast hne]
  rw [stripBy, hright]
  cases text with
  | nil => rfl
  | cons c rest => rw [List.dropWhile_cons_of_neg (by simpa using hhead (List.cons_ne_nil c rest))]

theorem length_stripBy_le (text : Text) : (stripBy p text).length ≤ text.length :=
  (List.dropWhile_suffix p).length_le.trans (List.rdropWhile_prefix p text).length_le

end Library
