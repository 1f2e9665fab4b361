import ContractCapsule.Library.Transaction
import ContractCapsule.Models.View

/-!
# Scopes

`resolve/scope.py`: anchored matching of paths against patterns of segments, and the selectors of
an atom's scope. A pattern is matched row by row, one row for each of its symbols: entry `i` of a
row says whether the symbols so far match the first `i` values.
-/

namespace ContractCapsule.Resolve

open Library Models

/-! ## Section 1: Rows -/

/-- The entries of a row after its first: `left` is the entry before, and `previous` the row of the
symbols before. A star takes a value more or stays; any other symbol takes the values it hits. -/
def rowEntries {α : Type} (star : Bool) (hit : α → Bool) : Bool → List Bool → List α → List Bool
  | left, diagonal :: above :: previous, v :: vs =>
    let entry := if star then above || left else diagonal && hit v
    entry :: rowEntries star hit entry (above :: previous) vs
  | _, _, _ => []

/-- The next row. -/
def nextRow {α : Type} (star : Bool) (hit : α → Bool) (previous : List Bool) (values : List α) :
    List Bool :=
  let first := previous.headD false && star
  first :: rowEntries star hit first previous values

/-- Match all symbols against all values. -/
def matchRows {σ α : Type} (star : σ → Bool) (hit : σ → α → Bool) (symbols : List σ)
    (values : List α) : Bool :=
  let rows := symbols.foldl (fun previous s => nextRow (star s) (hit s) previous values)
    (true :: List.replicate values.length false)
  rows.getLastD false

/-! ## Section 2: Paths -/

/-- `_segment_matches` -/
def segmentMatches (pattern value : List Char) : Bool :=
  matchRows (· == '*') (fun character literal => character == literal) pattern value

/-- `_matches` -/
def segmentsMatch (pattern path : List (List Char)) : Bool :=
  matchRows (· == ['*', '*']) segmentMatches pattern path

/-- Whether two stars stand next to each other. -/
def hasDoubleStar : List Char → Bool
  | '*' :: '*' :: _ => true
  | _ :: cs => hasDoubleStar cs
  | [] => false

/-- `_segments` -/
def segments (value : String) (pattern : Bool) : Except CompileError (List (List Char)) := do
  raiseIf (isSafeRelativePath value "" = false) .invalidScope
  let parts := splitOn '/' value.toList
  raiseIf (value.toList.any (fun c => c == '?' || c == '[' || c == ']') = true) .invalidScope
  raiseIf (pattern = false ∧ '*' ∈ value.toList) .invalidScope
  raiseIf (∃ part ∈ parts, hasDoubleStar part = true ∧ part ≠ ['*', '*']) .invalidScope
  return parts

/-- `path_matches` -/
def pathMatches (pattern path : String) : Except CompileError Bool := do
  let patternParts ← segments pattern true
  let pathParts ← segments path false
  return segmentsMatch patternParts pathParts

/-- `paths_match` -/
def pathsMatch (patterns paths : List String) : Except CompileError Bool := do
  let parsedPatterns ← patterns.mapM (segments · true)
  let parsedPaths ← paths.mapM (segments · false)
  return parsedPatterns.any fun pattern => parsedPaths.any fun path => segmentsMatch pattern path

example : pathMatches "src/**/api-*.py" "src/a/b/api-v1.py" = .ok true := by decide +kernel

example : pathMatches "src/*" "src/a/b" = .ok false := by decide +kernel

/-! ## Section 3: Selectors -/

/-- A selector of an atom's scope: its dimension and its value. -/
def selector (text : String) : Except CompileError (String × String) := do
  let (dimension, separated, value) := partition ':' text.toList
  raiseIf (separated = false ∨
      String.ofList dimension ∉ ["repository", "path", "environment"] ∨ value = [])
    .invalidScope
  return (String.ofList dimension, String.ofList value)

/-- The values of the selectors of a dimension. -/
def selected (dimension : String) (selectors : List (String × String)) : List String :=
  (selectors.filter fun s => s.1 = dimension).map Prod.snd

/-- `atom_scope_matches` -/
def atomScopeMatches (scope : List String) (task : TaskContext) : Except CompileError Bool := do
  raiseIf (scope = []) .invalidScope
  let selectors ← scope.mapM selector
  let repositories := selected "repository" selectors
  let environments := selected "environment" selectors
  let paths := selected "path" selectors
  let pathAllowed ← if paths = [] then .ok true else pathsMatch paths task.paths
  return (repositories.isEmpty || repositories.contains task.repository) &&
    (environments.isEmpty || environments.contains task.environment) && pathAllowed

end ContractCapsule.Resolve
