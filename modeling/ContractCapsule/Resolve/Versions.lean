import ContractCapsule.Library.Transaction
import ContractCapsule.Models.View

/-!
# Versions and Interfaces

`resolve/versions.py`: the parser of interface names, the parser of version constraints, and the
comparison of a version with a constraint. How two versions compare is the `semantic_version`
package's, and a parameter here.
-/

namespace ContractCapsule.Resolve

open Library Models

/-! ## Section 1: Interfaces -/

open Pattern in
/-- `([^\s/]+(?:/[^\s/]+)*)/v(0|[1-9][0-9]*)` -/
def interfacePattern : Pattern :=
  let segment := plus (.char fun c => !isSpace c && c != '/')
  all [segment, .star (.seq (lit '/') segment), lit '/', lit 'v', numericPattern]

/-- `parse_interface`. The family is what stands before the last slash: the version after it has
none. -/
def parseInterface (value : String) : Except CompileError String :=
  if fullmatch interfacePattern value then
    .ok (String.ofList ((value.toList.reverse.dropWhile (· != '/')).tail.reverse))
  else .error .interfaceIncompatible

/-! ## Section 2: Constraints -/

/-- The comparisons of a constraint. -/
inductive Comparison where
  | eq
  | ne
  | ge
  | le
  | gt
  | lt
deriving DecidableEq, Repr

/-- What a comparison says of the order of two versions. -/
def Comparison.holds : Comparison → Ordering → Bool
  | .eq, o => o == .eq
  | .ne, o => o != .eq
  | .ge, o => o != .lt
  | .le, o => o != .gt
  | .gt, o => o == .gt
  | .lt, o => o == .lt

/-- A blank of a constraint. -/
def isConstraintBlank (c : Char) : Bool := c == ' ' || c == '\t'

/-- The comparison that a term starts with, the longer one first, and the rest of the term. -/
def readComparison : List Char → Option (Comparison × List Char)
  | '=' :: '=' :: rest => some (.eq, rest)
  | '!' :: '=' :: rest => some (.ne, rest)
  | '>' :: '=' :: rest => some (.ge, rest)
  | '<' :: '=' :: rest => some (.le, rest)
  | '>' :: rest => some (.gt, rest)
  | '<' :: rest => some (.lt, rest)
  | _ => none

open Pattern in
/-- `(0|[1-9][0-9]*)(?:\.(0|[1-9][0-9]*))?` -/
def shorthandPattern : Pattern :=
  .seq numericPattern (optional (.seq (lit '.') numericPattern))

/-- `_normalized`: a shorthand is filled up to three numbers. -/
def normalized (value : String) : Except CompileError String :=
  let filled :=
    if fullmatch shorthandPattern value then
      (List.replicate (2 - value.toList.count '.') ".0").foldl (· ++ ·) value
    else value
  if isSemVer filled then .ok filled else .error .invalidVersionConstraint

/-- One term of a constraint. A value ends at the first white space, after which only blanks may
follow. -/
def constraintTerm (term : List Char) : Except CompileError (Comparison × String) := do
  let (comparison, rest) ← orRaise (readComparison (term.dropWhile isConstraintBlank))
    .invalidVersionConstraint
  let text := rest.dropWhile isConstraintBlank
  let value := text.takeWhile fun c => !isSpace c
  raiseIf (value = [] ∨ (text.drop value.length).all isConstraintBlank = false)
    .invalidVersionConstraint
  let value ← normalized (String.ofList value)
  return (comparison, value)

/-- `constraint_terms` -/
def constraintTerms (constraint : String) : Except CompileError (List (Comparison × String)) :=
  (splitOn ',' constraint.toList).mapM constraintTerm

/-- `satisfies`; `precedence` compares two versions without their build metadata. -/
def satisfies (precedence : String → String → Ordering) (version constraint : String) :
    Except CompileError Bool := do
  let terms ← constraintTerms constraint
  let current ← normalized version
  return terms.all fun term => term.1.holds (precedence current term.2)

/-- `_requirement` of the graph: a family, and a constraint on the version of its provider. -/
def requirement (value : String) : Except CompileError (String × String) := do
  let (family, separated, constraint) := partition '@' value.toList
  raiseIf (separated = false ∨ '@' ∈ constraint) .invalidVersionConstraint
  let parsed ← parseInterface (String.ofList family ++ "/v0")
  let _ ← constraintTerms (String.ofList constraint)
  return (parsed, String.ofList constraint)

example : parseInterface "billing/api/v2" = .ok "billing/api" := by decide +kernel

example : constraintTerms ">=1.2, <2" = .ok [(.ge, "1.2.0"), (.lt, "2.0.0")] := by decide +kernel

end ContractCapsule.Resolve
