import ContractCapsule.Compile.Compiler

/-!
# The Independent Compression Checks

`validate/compression.py` and `validate/evidence.py`: a view is checked against sources that are read
and bound again, with a selection taken from its own decisions. Nothing of the selection of a
compilation is used; only the projection of a manifest is, over the selection that was checked.
-/

namespace ContractCapsule.Validate

open Library Models Resolve Compile

variable {F : Type} [FloatText F]

/-! ## Section 1: Sources -/

/-- The check of `verified_materials` on one material of an owner. -/
def verifyMaterial (c : ViewCompiler F) (g : ResolvedGraph F) (owner : CapsuleRef)
    (p : Publication F) (material : EvidenceMaterial) : Except CompileError Unit := do
  raiseIf (materialValid material = false) .unexpected
  let handle := material.handle
  let record ← orRaise (recordOf p handle.evidenceId) .unexpected
  let (excerpt, span) ← c.env.sourceSpan record material.fullText
  let members := (record.atomIds.filter fun key => owner ∈ g.ownersOf key).insertionSort (· ≤ ·)
  raiseIf (handle.capsule ≠ owner ∨ handle.atomIds ≠ members ∨
    handle.contentDigest ≠ record.contentDigest ∨
    handle.contentDigest ≠ c.env.sha256 material.fullText.toList ∨ handle.mode ≠ record.mode ∨
    handle.spanDigest ≠ span ∨ handle.resolverVersion ≠ c.evidence.version ∨
    material.excerpt ≠ excerpt) .evidenceIntegrity

/-- The part of `verified_materials` for one owner of an atom. -/
def verifiedOwner (c : ViewCompiler F) (request : CompileRequest F) (now : String)
    (g : ResolvedGraph F) (atom : Atom (Number F)) (sources : List EvidenceMaterial)
    (owner : CapsuleRef) : Except CompileError (List EvidenceMaterial) := do
  let p ← orRaise (publicationOf g owner.key) .unexpected
  let materials ← c.evidence.resolve p atom request.principal request.task now
  raiseIf (¬ sameElements (materials.map fun m => m.handle.evidenceId) atom.evidenceRefs)
    .evidenceIntegrity
  checkAll (verifyMaterial c g owner p) materials
  return materials.foldl (fun d m => assign (fun m => handleId c.env m.handle) m d) sources

/-- `verified_materials` -/
def verifiedMaterials (c : ViewCompiler F) (g : ResolvedGraph F) (request : CompileRequest F)
    (now : String) : Except CompileError Evidence :=
  g.atoms.mapM fun atom => do
    let sources ← (g.ownersOf atom.atomId).foldlM (verifiedOwner c request now g atom) []
    return (atom.atomId, inHandleOrder c.env sources)

/-! ## Section 2: Ranking -/

/-- `_ranked` -/
def ranked (c : ViewCompiler F) (g : ResolvedGraph F) (request : CompileRequest F) :
    Except CompileError (List (RankedAtom F)) := do
  let results ← orRaise (c.ranker.rankAtoms g.atoms request.task) .rankingFailed
  raiseIf (results.length ≠ g.atoms.length) .rankingFailed
  raiseIf (results.all (acceptable g) = false) .rankingFailed
  raiseIf ((results.map fun item => item.atom.atomId).toFinset ≠ g.atomIds) .rankingFailed
  return results

/-! ## Section 3: Membership -/

/-- The atoms that a view says it selected. -/
def selectedOf (view : CompiledView) : Finset String :=
  ((view.manifest.decisions.filter fun d => d.outcome = .selected).map
    DecisionRecord.atomId).toFinset

/-- The atoms that every view has to select. -/
def mandatoryAtoms (g : ResolvedGraph F) (request : CompileRequest F)
    (ranked : List (RankedAtom F)) : Finset String :=
  ((g.atoms.filter fun atom => atom.compressionClass = .p0Exact).map Atom.atomId).toFinset ∪
    ((ranked.filter fun item =>
      item.isMatched ∧ item.atom.compressionClass = .p1Structured).map
        fun item => item.atom.atomId).toFinset ∪
    g.rootAtomIds.toFinset ∪ request.task.requiredAtomIds.toFinset

/-- The owners of some atoms, in the order of their keys. -/
def ownersIn (g : ResolvedGraph F) (selected : Finset String) : List CapsuleRef :=
  let owners := (g.atoms.filter fun atom => atom.atomId ∈ selected).flatMap
    fun atom => g.ownersOf atom.atomId
  (index CapsuleRef.key owners).insertionSort fun a b => a.key ≤ b.key

/-- The keys of the decisions that a view has to record. -/
def expectedKeys (g : ResolvedGraph F) : List (String × String) :=
  g.atoms.flatMap fun atom => (g.ownersOf atom.atomId).map fun owner => (owner.key, atom.atomId)

/-- `_membership` -/
def membership (view : CompiledView) (g : ResolvedGraph F) (request : CompileRequest F)
    (ranked : List (RankedAtom F)) : Except CompileError (Finset String) := do
  let decisions := view.manifest.decisions
  raiseIf ((decisions.map decisionKey).toFinset ≠ (expectedKeys g).toFinset) .membershipInvalid
  let selected := selectedOf view
  let mandatory ← g.closeAtoms (mandatoryAtoms g request ranked)
  raiseIf (¬ mandatory ⊆ selected) .mandatoryMembership
  let closed ← g.closeAtoms selected
  raiseIf (closed ≠ selected) .mandatoryMembership
  raiseIf (∃ d ∈ decisions, ¬ (d.outcome = .selected ↔ d.atomId ∈ selected)) .membershipInvalid
  let conflicts ← g.conflictsFor selected
  raiseIf (conflicts ≠ [] ∨ view.manifest.conflicts ≠ []) .conflict
  raiseIf (ownersIn g selected ≠ view.manifest.capsules) .membershipInvalid
  let links ← g.closureLinks selected
  raiseIf (links.toFinset ≠ view.manifest.closure.toFinset) .closureInvalid
  return selected

/-! ## Section 4: The manifest -/

/-- The reason that a view records of an atom, the last one when there are several. -/
def reasonsOf (view : CompiledView) (atomId : String) : Option String :=
  (view.manifest.decisions.reverse.find? fun d => d.atomId = atomId).map DecisionRecord.reason

/-- The session that the manifest of a view is rebuilt from. -/
def rebuiltSession (view : CompiledView) (request : CompileRequest F) (g : ResolvedGraph F)
    (admission : AdmissionResult F) (selected : Finset String) (expanded : List String)
    (services : List ServiceStamp) : Session F where
  request := request
  admission := admission
  graph := g
  services := services
  selected := selected
  reasons := reasonsOf view
  expanded := expanded
  tokens := view.manifest.tokens
  conflicts := []

/-- `_manifest` -/
def checkManifest (view : CompiledView) (request : CompileRequest F) (c : ViewCompiler F)
    (g : ResolvedGraph F) (admission : AdmissionResult F) (selected : Finset String) :
    Except CompileError Unit := do
  let expanded ← expansionIds request c.renderer
  let services ← serviceSnapshot c
  let manifest ←
    (rebuiltSession view request g admission selected expanded services).buildManifest c.env
  raiseIf (manifest ≠ view.manifest) .manifestInvalid
  raiseIf (mismatches c.env request view.manifest = true) .replayMismatch

/-! ## Section 5: The checks -/

/-- `check_compression` up to its supplemental compilation. The configured renderer, a neutral one
that is given the same handles, renders what the checks render. -/
def independentChecks (view : CompiledView) (request : CompileRequest F) (c : ViewCompiler F)
    (g : ResolvedGraph F) (sources : Evidence) (admission : AdmissionResult F) :
    Except CompileError TokenAccounting := do
  raiseIf (viewValid view = false) .invalidView
  raiseIf (view.validation.isValid = false ∨ view.manifest.validation.isValid = false) .invalidView
  let ranked ← ranked c g request
  let selected ← membership view g request ranked
  let materials ← materialsOf c.env sources selected
  raiseIf (materials.map EvidenceMaterial.handle ≠ view.evidenceHandles) .evidenceIntegrity
  let expanded ← expansionIds request c.renderer
  raiseIf (expanded ≠ view.manifest.expandedEvidence) .evidenceIntegrity
  let sections ← neutralRender c.env expanded request.task (rankedOf ranked selected) materials
  raiseIf (c.renderer.isNeutral = false) .invalidConfiguration
  let content ← renderedContent sections
  raiseIf (content ≠ view.content) .renderingFailed
  let tokens ← accountTokens sections c.counter request.budget
  raiseIf (tokens ≠ view.manifest.tokens ∨ tokens.total > tokens.available)
    .tokenAccountingInvalid
  checkManifest view request c g admission selected
  return tokens

/-- `check_compression` -/
def checkCompression (view : CompiledView) (request : CompileRequest F) (c : ViewCompiler F)
    (g : ResolvedGraph F) (sources : Evidence) (admission : AdmissionResult F) :
    Except CompileError TokenAccounting := do
  let tokens ← independentChecks view request c g sources admission
  raiseIf ((compileView c request).toOption ≠ some view) .replayMismatch
  return tokens

/-- What the validation computes again before it checks a view: the admission at the instant of the
request, its graph, and the sources as they are now. -/
def recomputed (c : ViewCompiler F) (request : CompileRequest F) (now : String) :
    Except CompileError (AdmissionResult F × ResolvedGraph F × Evidence) := do
  let admission ← (c.resolver request.asOf).resolve request.capsules request.task request.principal
  let g ← resolveGraph c.env.precedence c.env.sha256 admission request.task
  let sources ← verifiedMaterials c g request now
  return (admission, g, sources)

end ContractCapsule.Validate
