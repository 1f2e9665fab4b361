import ContractCapsule.Compile.Manifest
import ContractCapsule.Compile.Selection

/-!
# The Compiler

`Compilation.run` and `ViewCompiler.compile_view`. A compilation that fails returns an invalid view
whose only blocker is a safe code; such a view stands here as that code.
-/

namespace ContractCapsule.Compile

open Library Models Resolve

variable {F : Type} [FloatText F]

/-! ## Section 1: Codes -/

/-- `_SAFE_CODES` -/
def safeCodes : List CompileError :=
  [.invalidRequest, .invalidConfiguration, .secretDetected, .compilationFailed,
   .invalidPolicySnapshot, .policySnapshotChanged, .missingAtom, .missingDependency,
   .missingInterface, .ambiguousProvider, .invalidVersionConstraint, .invalidGraph, .duplicateAtom,
   .ambiguousGraphNode, .conflict, .rankingFailed, .rankingUnavailable, .evidenceUnavailable,
   .evidenceUnauthorized, .evidenceIntegrity, .tokenizerUnavailable, .tokenizerIntegrity,
   .renderingFailed, .p0Overflow, .p1Overflow, .expansionOverflow, .replayMismatch,
   .serviceSnapshotChanged, .finalPreservationFailed]

/-- The code that `failure` reports. -/
def safeCode (e : CompileError) : CompileError := if e ∈ safeCodes then e else .compilationFailed

/-! ## Section 2: One compilation -/

/-- `_configure`: the expanded handles and the stamps of the services. -/
def configure (c : ViewCompiler F) (request : CompileRequest F) :
    Except CompileError (List String × List ServiceStamp) := do
  raiseIf (c.evidence.native = false ∨ c.counter.modelId ≠ request.modelId ∨
    c.counter.profile ≠ request.tokenizerProfile ∨ c.renderer.version ≠ request.rendererVersion)
    .invalidConfiguration
  let expanded ← expansionIds request c.renderer
  let services ← serviceSnapshot c
  return (expanded, services)

/-- `_final_checks`, as far as it looks at what was selected. What it computes a second time, from
the request and the services, is the same again. -/
def finalChecks (g : ResolvedGraph F) (request : CompileRequest F) (selected : Finset String) :
    Except CompileError Unit := do
  let closed ← g.closeAtoms selected
  raiseIf (closed ≠ selected ∨ ¬ g.rootAtomIds.toFinset ⊆ selected ∨
    ¬ request.task.requiredAtomIds.toFinset ⊆ selected) .finalPreservationFailed
  let conflicts ← g.conflictsFor selected
  raiseIf (conflicts ≠ []) .finalPreservationFailed

/-- The handles of the evidence of the selected atoms. -/
def evidenceHandles (env : Environment F) (evidence : Evidence) (selected : Finset String) :
    List EvidenceHandle :=
  let bound := (evidence.filter fun entry => entry.1 ∈ selected).flatMap Prod.snd
  (inHandleOrder env (index (fun m => handleId env m.handle) bound)).map EvidenceMaterial.handle

/-- `_result` for a valid report. -/
def result (env : Environment F) (s : Session F) (evidence : Evidence) (content : List Char) :
    Except CompileError CompiledView := do
  let manifest ← s.buildManifest env
  let view : CompiledView := {
    content := content
    manifest := manifest
    validation := { isValid := true, blockers := [] }
    evidenceHandles := evidenceHandles env evidence s.selected }
  raiseIf (viewValid view = false) .unexpected
  return view

/-- Whether a manifest is not the one that a request expects. -/
def mismatches (env : Environment F) (request : CompileRequest F) (m : ViewManifest) : Bool :=
  request.expectedManifestDigest.any fun digest => viewManifestDigest env m != digest

/-- What a compilation has found when its selection starts. -/
structure Prepared (F : Type) [FloatText F] where
  expanded : List String
  services : List ServiceStamp
  admission : AdmissionResult F
  graph : ResolvedGraph F
  evidence : Evidence
  ranked : List (RankedAtom F)

namespace Prepared

variable (p : Prepared F) (c : ViewCompiler F) (request : CompileRequest F)

/-- The compilation whose selection runs. -/
def compilation : Compilation F where
  compiler := c
  request := request
  graph := p.graph
  ranked := p.ranked
  evidence := p.evidence
  expanded := p.expanded

/-- The session after a selection. -/
def session (st : Selection) : Session F where
  request := request
  admission := p.admission
  graph := p.graph
  services := p.services
  selected := st.selected
  reasons := st.reasons
  expanded := p.expanded
  tokens := st.tokens
  conflicts := st.conflicts

end Prepared

/-- The part of `run` before the selection. -/
def prepare (c : ViewCompiler F) (request : CompileRequest F) :
    Except CompileError (Prepared F) := do
  let (expanded, services) ← configure c request
  let admission ← (c.resolver request.asOf).resolve request.capsules request.task request.principal
  let graph ← resolveGraph c.env.precedence c.env.sha256 admission request.task
  let evidence ← sources c graph request
  let _ ← graph.closeAtoms (graph.rootAtomIds.toFinset ∪ request.task.requiredAtomIds.toFinset)
  let ranked ← rank c graph request
  return {
    expanded := expanded
    services := services
    admission := admission
    graph := graph
    evidence := evidence
    ranked := ranked }

/-- `run` -/
def run (c : ViewCompiler F) (request : CompileRequest F) : Except CompileError CompiledView := do
  let p ← prepare c request
  let st ← (p.compilation c request).select
  finalChecks p.graph request st.selected
  let view ← result c.env (p.session request st) p.evidence st.content
  raiseIf (mismatches c.env request view.manifest = true) .replayMismatch
  return view

/-- `compile_view` -/
def compileView (c : ViewCompiler F) (request : CompileRequest F) :
    Except CompileError CompiledView :=
  Except.mapError safeCode do
    validateRequest c.env request
    run c request

end ContractCapsule.Compile
