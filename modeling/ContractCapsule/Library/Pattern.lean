import Mathlib.Tactic.Common

/-!
# Patterns

Regular expressions over predicates on characters, matched against a whole text by
derivatives. The derivative of a pattern that cannot start with a character is
`nothing`, which makes `accepts_alphabet` an induction on the text: an accepted text has
only characters that occur in the pattern.
-/

namespace Library

/-- A regular expression. -/
inductive Pattern where
  | nothing
  | empty
  | char (p : Char → Bool)
  | seq (a b : Pattern)
  | alt (a b : Pattern)
  | star (a : Pattern)

namespace Pattern

/-! ## Section 1: Building patterns -/

/-- One after the other; nothing follows `nothing`. -/
def andThen : Pattern → Pattern → Pattern
  | .nothing, _ => .nothing
  | .empty, b => b
  | a, b => .seq a b

/-- Either of two; `nothing` adds no text. -/
def either : Pattern → Pattern → Pattern
  | .nothing, b => b
  | a, .nothing => a
  | a, b => .alt a b

/-- A given character. -/
def lit (c : Char) : Pattern := .char (· == c)

/-- A given text. -/
def word : List Char → Pattern
  | [] => .empty
  | c :: cs => .seq (lit c) (word cs)

/-- All of a list of patterns, in order. -/
def all : List Pattern → Pattern
  | [] => .empty
  | p :: ps => .seq p (all ps)

/-- At most once. -/
def optional (a : Pattern) : Pattern := .alt .empty a

/-- Once or more. -/
def plus (a : Pattern) : Pattern := .seq a (.star a)

/-- A given number of times. -/
def times (a : Pattern) : ℕ → Pattern
  | 0 => .empty
  | n + 1 => .seq a (times a n)

/-! ## Section 2: Matching -/

/-- Whether the empty text matches. -/
def nullable : Pattern → Bool
  | .nothing => false
  | .empty => true
  | .char _ => false
  | .seq a b => nullable a && nullable b
  | .alt a b => nullable a || nullable b
  | .star _ => true

/-- What may follow a first character. -/
def derivative (c : Char) : Pattern → Pattern
  | .nothing => .nothing
  | .empty => .nothing
  | .char p => if p c then .empty else .nothing
  | .seq a b =>
    either (andThen (derivative c a) b) (if nullable a then derivative c b else .nothing)
  | .alt a b => either (derivative c a) (derivative c b)
  | .star a => andThen (derivative c a) (.star a)

/-- Whether a whole text matches. -/
def accepts : Pattern → List Char → Bool
  | p, [] => nullable p
  | p, c :: cs => accepts (derivative c p) cs

/-! ## Section 3: The characters of accepted texts -/

/-- Whether a character occurs in the pattern. -/
def alphabet (c : Char) : Pattern → Bool
  | .nothing => false
  | .empty => false
  | .char p => p c
  | .seq a b => alphabet c a || alphabet c b
  | .alt a b => alphabet c a || alphabet c b
  | .star a => alphabet c a

theorem accepts_nothing (cs : List Char) : accepts .nothing cs = false := by
  induction cs with
  | nil => rfl
  | cons c cs ih => exact ih

theorem alphabet_andThen {c : Char} {a b : Pattern} (h : alphabet c (andThen a b) = true) :
    alphabet c a = true ∨ alphabet c b = true := by
  cases a <;> simp_all [andThen, alphabet]

theorem alphabet_either {c : Char} {a b : Pattern} (h : alphabet c (either a b) = true) :
    alphabet c a = true ∨ alphabet c b = true := by
  cases a <;> cases b <;> simp_all [either, alphabet]

/-- A derivative has no new characters. -/
theorem alphabet_derivative {c d : Char} {p : Pattern}
    (h : alphabet c (derivative d p) = true) : alphabet c p = true := by
  induction p with
  | nothing => simp [derivative, alphabet] at h
  | empty => simp [derivative, alphabet] at h
  | char p => unfold derivative at h; split at h <;> simp [alphabet] at h
  | seq a b iha ihb =>
    rw [alphabet, Bool.or_eq_true]
    rcases alphabet_either h with h | h
    · exact (alphabet_andThen h).imp iha id
    · split at h
      · exact .inr (ihb h)
      · simp [alphabet] at h
  | alt a b iha ihb =>
    rw [alphabet, Bool.or_eq_true]
    exact (alphabet_either h).imp iha ihb
  | star a ih =>
    rcases alphabet_andThen h with h | h
    · exact ih h
    · exact h

/-- A character that does not occur in a pattern cannot start it. -/
theorem derivative_eq_nothing {c : Char} {p : Pattern} (h : alphabet c p = false) :
    derivative c p = .nothing := by
  induction p with
  | nothing => rfl
  | empty => rfl
  | char p => simp_all [derivative, alphabet]
  | seq a b iha ihb =>
    rw [alphabet, Bool.or_eq_false_iff] at h
    simp [derivative, iha h.1, ihb h.2, andThen, either]
  | alt a b iha ihb =>
    rw [alphabet, Bool.or_eq_false_iff] at h
    simp [derivative, iha h.1, ihb h.2, either]
  | star a ih => simp [derivative, ih h, andThen]

/-- An accepted text has only characters of the pattern. -/
theorem accepts_alphabet {p : Pattern} {cs : List Char} (h : accepts p cs = true) {c : Char}
    (hc : c ∈ cs) : alphabet c p = true := by
  induction cs generalizing p with
  | nil => cases hc
  | cons d cs ih =>
    rcases List.mem_cons.mp hc with rfl | hc
    · by_contra hother
      rw [accepts, derivative_eq_nothing (by simpa using hother), accepts_nothing] at h
      cases h
    · exact alphabet_derivative (ih h hc)

end Pattern

end Library
