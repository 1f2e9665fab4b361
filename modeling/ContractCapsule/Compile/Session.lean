import ContractCapsule.Compile.Renderer

/-!
# Ranking and Selection

`compile/session.py`: the check of a ranking, the rendering of a set of atoms, and the selection,
which closes and renders the mandatory atoms, then each matched atom in the order of the classes,
and last the expansions.
-/

namespace ContractCapsule.Compile

open Library Models Resolve
open Enumeration (wire)

variable {F : Type} [FloatText F]

/-! ## Section 1: Ranking -/

mutual

/-- A value as an equality of the program sees it: a truth value is the number 0 or 1. -/
def countTruths : Value F → Value F
  | .bool b => .number (.int (if b then 1 else 0))
  | .array xs => .array (countTruthsItems xs)
  | .object ms => .object (countTruthsMembers ms)
  | v => v

def countTruthsItems : List (Value F) → List (Value F)
  | [] => []
  | x :: xs => countTruths x :: countTruthsItems xs

def countTruthsMembers : Members (Number F) → Members (Number F)
  | [] => []
  | (k, v) :: ms => (k, countTruths v) :: countTruthsMembers ms

end

/-- `==` of two atoms. -/
def equalAtoms (a b : Atom (Number F)) : Bool :=
  decide (Capsule.atomByValue { a with extensions := countTruthsMembers a.extensions } =
    Capsule.atomByValue { b with extensions := countTruthsMembers b.extensions })

/-- A result that a ranking may have for an atom of the graph. -/
def acceptable (g : ResolvedGraph F) (result : RankedAtom F) : Bool :=
  result.atom.valid && result.score.isSome && (g.atom? result.atom.atomId).any (equalAtoms result.atom)

/-- `_rank` -/
def rank (c : ViewCompiler F) (g : ResolvedGraph F) (request : CompileRequest F) :
    Except CompileError (List (RankedAtom F)) := do
  let results ← orRaise (c.ranker.rankAtoms g.atoms request.task) .rankingFailed
  raiseIf (results.length ≠ g.atoms.length) .rankingFailed
  raiseIf (¬ (results.map fun result => result.atom.atomId).Nodup ∨
    results.all (acceptable g) = false) .rankingFailed
  return results

/-! ## Section 2: Rendering -/

/-- What is fixed of a `Compilation` before its selection starts. -/
structure Compilation (F : Type) [FloatText F] where
  compiler : ViewCompiler F
  request : CompileRequest F
  graph : ResolvedGraph F
  ranked : List (RankedAtom F)
  evidence : Evidence
  expanded : List String

/-- What a selection writes. -/
structure Selection where
  selected : Finset String
  reasons : String → Option String
  content : List Char
  tokens : TokenAccounting
  conflicts : List Conflict

/-- The materials of a set of atoms, by handle. The dictionary of the evidence is in the order of
the atoms; handles are told apart by their identifiers, so it makes no difference in which order
the program goes through a set. -/
def materialsOf (env : Environment F) (evidence : Evidence) (selected : Finset String) :
    Except CompileError (List EvidenceMaterial) := do
  raiseIf (¬ selected ⊆ (evidence.map Prod.fst).toFinset) .unexpected
  let bound := (evidence.filter fun entry => entry.1 ∈ selected).flatMap Prod.snd
  return inHandleOrder env (index (fun m => handleId env m.handle) bound)

/-- The ranked atoms of a set. -/
def rankedOf (ranked : List (RankedAtom F)) (selected : Finset String) : List (RankedAtom F) :=
  ranked.filter fun item => item.atom.atomId ∈ selected

namespace Compilation

variable (s : Compilation F)

/-- A handle that is expanded is there, and expands to the material that was read before. -/
def checkExpansion (materials : List EvidenceMaterial) (handle : String) :
    Except CompileError Unit := do
  let source ← orRaise (materials.find? fun m => handleId s.compiler.env m.handle = handle)
    .unexpected
  let refreshed ← s.compiler.evidence.expand source.handle s.request.principal s.request.task
    s.request.asOf
  raiseIf (refreshed ≠ source) .evidenceIntegrity

/-- The sections that the renderer of the compiler makes. -/
def renderSections (handles : List String) (atoms : List (RankedAtom F))
    (materials : List EvidenceMaterial) : Except CompileError Sections :=
  match s.compiler.renderer with
  | .neutral _ => neutralRender s.compiler.env handles s.request.task atoms materials
  | .custom _ _ _ render => render s.request.task atoms materials

/-- `_render` -/
def render (selected : Finset String) (expanded : Bool) :
    Except CompileError (List Char × TokenAccounting) := do
  let env := s.compiler.env
  let atoms := rankedOf s.ranked selected
  let materials ← materialsOf env s.evidence selected
  let handles := if expanded then s.expanded else []
  raiseIf (∃ handle ∈ handles, handle ∉ materials.map fun m => handleId env m.handle)
    .evidenceUnavailable
  checkAll (s.checkExpansion materials) handles
  let sections ← s.renderSections handles atoms materials
  let expected ← neutralRender env handles s.request.task atoms materials
  raiseIf (sections ≠ expected) .renderingFailed
  let content ← renderedContent sections
  let tokens ← accountTokens sections s.compiler.counter s.request.budget
  return (content, tokens)

/-- The rendering of a set of atoms that the neutral renderer makes. -/
def neutralRendering (selected : Finset String) (handles : List String) :
    Except CompileError (List Char × TokenAccounting) := do
  let materials ← materialsOf s.compiler.env s.evidence selected
  raiseIf (∃ handle ∈ handles, handle ∉ materials.map fun m => handleId s.compiler.env m.handle)
    .evidenceUnavailable
  checkAll (s.checkExpansion materials) handles
  let sections ← neutralRender s.compiler.env handles s.request.task (rankedOf s.ranked selected)
    materials
  let content ← renderedContent sections
  let tokens ← accountTokens sections s.compiler.counter s.request.budget
  return (content, tokens)

/-- The stock renderer agrees with what is expected of it. -/
theorem render_neutral {configured : List String} (h : s.compiler.renderer = .neutral configured)
    (selected : Finset String) (expanded : Bool) :
    s.render selected expanded =
      s.neutralRendering selected (if expanded then s.expanded else []) := by
  have hsame : ∀ {β : Type} (sections : Except CompileError Sections)
      (f : Sections → Except CompileError β),
      (do
        let made ← sections
        let expected ← sections
        raiseIf (made ≠ expected) .renderingFailed
        f made) = sections >>= f := by
    intro β sections f
    cases sections with
    | error e => rfl
    | ok made => simp [raiseIf_of_not]
  simp only [render, neutralRendering, renderSections, h, hsame]

/-! ## Section 3: Selection -/

/-- The closure of a set of atoms, which no conflict is in. -/
def closeWithoutConflict (atomIds : Finset String) :
    Except CompileError (Finset String × List Conflict) := do
  let closed ← s.graph.closeAtoms atomIds
  let conflicts ← s.graph.conflictsFor closed
  raiseIf (conflicts ≠ []) .conflict
  return (closed, conflicts)

/-- The reasons after some atoms are added, each for a reason of its own. -/
def addReasons (reasons : String → Option String) (added : Finset String)
    (reason : String → String) : String → Option String :=
  fun atomId => if atomId ∈ added then some (reason atomId) else reasons atomId

/-- `_mandatory` -/
def mandatory (seeds : Finset String) (reason : String) (overflow : CompileError)
    (st : Selection) : Except CompileError Selection := do
  let (closed, conflicts) ← s.closeWithoutConflict (st.selected ∪ seeds)
  let (content, tokens) ← s.render closed false
  raiseIf (tokens.total > tokens.available) overflow
  return {
    selected := closed
    reasons := addReasons st.reasons (closed \ st.selected)
      fun atomId => if atomId ∈ seeds then reason else "DEPENDENCY_REQUIRED"
    content := content
    tokens := tokens
    conflicts := conflicts }

/-- The part of `_select` for one ranked atom. -/
def consider (st : Selection) (item : RankedAtom F) : Except CompileError Selection :=
  if item.atom.atomId ∈ st.selected ∨ item.isMatched = false then .ok st
  else do
    let (closed, conflicts) ← s.closeWithoutConflict (st.selected ∪ {item.atom.atomId})
    let (content, tokens) ← s.render closed false
    if tokens.total > tokens.available then
      return { st with
        reasons := addReasons st.reasons {item.atom.atomId} fun _ => "BUDGET_EXCLUDED"
        conflicts := conflicts }
    else
      return {
        selected := closed
        reasons := addReasons st.reasons (closed \ st.selected) fun atomId =>
          if atomId = item.atom.atomId then "RELEVANT" else "DEPENDENCY_REQUIRED"
        content := content
        tokens := tokens
        conflicts := conflicts }

/-- The expansion at the end of `_select`. -/
def expand (st : Selection) : Except CompileError Selection :=
  if s.expanded = [] then .ok st
  else do
    let (content, tokens) ← s.render st.selected true
    raiseIf (tokens.total > tokens.available) .expansionOverflow
    return { st with content := content, tokens := tokens }

/-- The atoms of the exact class. -/
def p0Seeds : Finset String :=
  ((s.graph.atoms.filter fun atom => atom.compressionClass = .p0Exact).map Atom.atomId).toFinset

/-- The matched atoms of the structured class. -/
def p1Seeds : Finset String :=
  ((s.ranked.filter fun item => item.isMatched ∧ item.atom.compressionClass = .p1Structured).map
    fun item => item.atom.atomId).toFinset

/-- What the task requires: matched structured atoms, required atoms and roots. -/
def taskSeeds : Finset String :=
  s.p1Seeds ∪ s.request.task.requiredAtomIds.toFinset ∪ s.graph.rootAtomIds.toFinset

/-- The selection before anything is selected. -/
def unselected : Selection where
  selected := ∅
  reasons := fun atomId => if atomId ∈ s.graph.atomIds then some "NOT_RELEVANT" else none
  content := []
  tokens := { total := 0, available := 0, sections := [], boundaryAdjustment := 0 }
  conflicts := []

/-- `_select`. The sort is stable, so it keeps the order of the ranking within a class. -/
def select : Except CompileError Selection := do
  let st ← s.mandatory s.p0Seeds "P0_REQUIRED" .p0Overflow s.unselected
  let st ← s.mandatory s.taskSeeds "TASK_REQUIRED" .p1Overflow st
  let ordered := s.ranked.insertionSort fun a b =>
    wire a.atom.compressionClass ≤ wire b.atom.compressionClass
  let st ← ordered.foldlM s.consider st
  s.expand st

end Compilation

end ContractCapsule.Compile
