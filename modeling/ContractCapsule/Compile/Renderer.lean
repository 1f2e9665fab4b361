import ContractCapsule.Compile.Services

/-!
# Rendering and Token Accounting

`compile/renderers.py` and `compile/budget.py`: the neutral renderer, the content that its sections
make, and the tokens that a counter finds in them. Nothing is known of the counter but that it
answers alike each time.
-/

namespace ContractCapsule.Compile

open Library Models Resolve
open Enumeration (wire)

variable {F : Type} [FloatText F]

/-! ## Section 1: Frames -/

/-- The length of a text in UTF-8. -/
def utf8Length (text : List Char) : ℕ := (text.map Char.utf8Size).sum

/-- `_frame` -/
def frame (kind text : List Char) : List Char :=
  "BEGIN ".toList ++ kind ++ " bytes=".toList ++ Json.decimal (utf8Length text) ++ ['\n'] ++ text ++
    "\nEND ".toList ++ kind ++ ['\n']

/-- `_scan` -/
def scanText (env : Environment F) (text : List Char) : Except CompileError Unit :=
  raiseIf (env.scanSecrets text = true) .secretDetected

/-- `compression_class[:2]` -/
def classLabel (compressionClass : CompressionClass) : String :=
  String.ofList ((wire compressionClass).toList.take 2)

/-! ## Section 2: Atoms -/

/-- `_materials` -/
def materials (env : Environment F) (atom : Atom (Number F)) (evidence : List EvidenceMaterial) :
    Except CompileError (List EvidenceMaterial) := do
  let bound := evidence.filter fun source =>
    source.handle.atomIds.contains atom.atomId && atom.evidenceRefs.contains source.handle.evidenceId
  let selected ← orRaise (agreeAll (fun source => handleId env source.handle) [] bound)
    .evidenceIntegrity
  raiseIf (atom.evidenceRefs = [] ∨
    ¬ sameElements (selected.map fun source => source.handle.evidenceId) atom.evidenceRefs)
    .evidenceUnavailable
  return inHandleOrder env selected

/-- The wire members of an atom but for its statement. -/
def atomMembers (atom : Atom (Number F)) : Members (Number F) :=
  match Canonical.atom atom with
  | .object members => members.filter fun member => member.1 ≠ "statement"
  | _ => []

/-- `_atom_text` -/
def atomText (env : Environment F) (atom : Atom (Number F)) (sources : List EvidenceMaterial) :
    List Char :=
  let handles := strings (sources.map fun source => handleId env source.handle)
  let metadata := canonicalText (.object
    [("atom", .object (atomMembers atom)), ("evidence_handles", handles)]) ++ ['\n']
  match atom.compressionClass with
  | .p1Structured => frame "ATOM".toList (canonicalText (.object
      [("atom", Canonical.atom atom), ("evidence_handles", handles)]))
  | .p2Evidence => metadata ++ sources.flatMap fun source =>
      frame ("EVIDENCE ".toList ++ (handleId env source.handle).toList) source.excerpt.toList
  | _ => metadata ++ frame ("ATOM ".toList ++ atom.atomId.toList) atom.statement.toList

/-! ## Section 3: The neutral renderer -/

/-- What the renderer has written and used: the identifiers it saw, the materials by handle, and
the texts of the groups in the order in which they were added. -/
structure Rendering where
  seen : List String
  used : List EvidenceMaterial
  texts : List (String × List Char)

/-- The part of `render` for one atom. -/
def renderAtom (env : Environment F) (evidence : List EvidenceMaterial) (r : Rendering)
    (atom : Atom (Number F)) : Except CompileError Rendering := do
  raiseIf (atom.atomId ∈ r.seen) .invalidRenderAtoms
  let sources ← materials env atom evidence
  checkAll (fun source => do
    scanText env source.fullText.toList
    scanText env source.excerpt.toList) sources
  return {
    seen := r.seen ++ [atom.atomId]
    used := sources.foldl (fun d source => assign (fun m => handleId env m.handle) source d) r.used
    texts := r.texts ++ [(classLabel atom.compressionClass, atomText env atom sources)] }

/-- The order in which the owner of an expanded text is chosen. -/
def ownerLe (a b : Atom (Number F)) : Prop :=
  wire a.compressionClass < wire b.compressionClass ∨
    wire a.compressionClass = wire b.compressionClass ∧ a.atomId ≤ b.atomId

instance (a b : Atom (Number F)) : Decidable (ownerLe a b) :=
  inferInstanceAs (Decidable (_ ∨ _ ∧ _))

/-- The part of `_expand` for one handle. -/
def expandHandle (env : Environment F) (atoms : List (Atom (Number F))) (r : Rendering)
    (handle : String) : Except CompileError Rendering := do
  let source ← orRaise (r.used.find? fun m => handleId env m.handle = handle) .evidenceUnavailable
  let owners := atoms.filter fun atom => atom.atomId ∈ source.handle.atomIds
  let owner ← orRaise (owners.insertionSort ownerLe).head? .renderingFailed
  return { r with texts := r.texts ++ [(classLabel owner.compressionClass,
    frame ("EXPANDED ".toList ++ handle.toList) source.fullText.toList)] }

/-- `_expand` -/
def expandHandles (env : Environment F) (handles : List String) (atoms : List (Atom (Number F)))
    (r : Rendering) : Except CompileError Rendering := do
  raiseIf (∃ handle ∈ handles, handle ∉ r.used.map fun m => handleId env m.handle)
    .evidenceUnavailable
  handles.foldlM (expandHandle env atoms) r

/-- The text of a group. -/
def Rendering.group (r : Rendering) (label : String) : List Char :=
  (r.texts.filter fun entry => entry.1 = label).flatMap Prod.snd

/-- The task as the renderer writes it. -/
def taskText (F : Type) [FloatText F] (task : TaskContext) : List Char :=
  canonicalText (task.dump : Value F)

/-- `NeutralViewRenderer.render` with the handles it expands. -/
def neutralRender (env : Environment F) (expandedHandles : List String) (task : TaskContext)
    (atoms : List (RankedAtom F)) (evidence : List EvidenceMaterial) :
    Except CompileError Sections := do
  scanText env (taskText F task)
  let ordered := (atoms.map RankedAtom.atom).insertionSort fun a b => a.atomId ≤ b.atomId
  let rendered ← ordered.foldlM (renderAtom env evidence) ⟨[], [], []⟩
  let r ← expandHandles env expandedHandles (atoms.map RankedAtom.atom) rendered
  let sections : Sections :=
    [("schema", schemaText.toList), ("P0", r.group "P0"),
      ("task", frame "TASK".toList (taskText F task)), ("P1", r.group "P1"), ("P2", r.group "P2"),
      ("P3", r.group "P3"), ("P4", r.group "P4")]
  scanText env (sections.flatMap Prod.snd)
  return sections

/-! ## Section 4: Budget -/

/-- `rendered_content` -/
def renderedContent (sections : Sections) : Except CompileError (List Char) := do
  raiseIf (¬ (sections.map Prod.fst).Nodup ∨ "" ∈ sections.map Prod.fst) .invalidRenderSections
  return sections.flatMap Prod.snd

/-- `_count` -/
def countTokens (counter : TokenCounter) (text : List Char) : Except CompileError ℕ :=
  match counter.count text with
  | some (.ofNat n) => if n ≤ maxCount then .ok n else .error .tokenizerUnavailable
  | _ => .error .tokenizerUnavailable

/-- `account_tokens`. The mapping of the sections stands in the order of their names. -/
def accountTokens (sections : Sections) (counter : TokenCounter) (budget : ViewBudget) :
    Except CompileError TokenAccounting := do
  let content ← renderedContent sections
  let counts ← sections.mapM fun part => do
    let n ← countTokens counter part.2
    return (part.1, n)
  let total ← countTokens counter content
  let adjustment : ℤ := total - ((counts.map Prod.snd).sum : ℕ)
  raiseIf (adjustment < -maxCount ∨ maxCount < adjustment) .unexpected
  return {
    total := total
    available := budget.available
    sections := counts.insertionSort fun a b => a.1 ≤ b.1
    boundaryAdjustment := adjustment }

end ContractCapsule.Compile
