import ContractCapsule.Library.Index
import ContractCapsule.Library.Worklist
import ContractCapsule.Resolve.Eligibility

/-!
# The Provider and Atom Graph

`resolve/graph.py`, `resolve/closure.py` and `resolve/conflicts.py`: the assembly of one relation of
edges over atoms and capsules, and the closure and the conflicts of a set of atoms under it. A
capsule has two private nodes. Its presence is implied by each of its admitted atoms and carries what the
capsule requires and conflicts with; its unit implies each of its admitted atoms.

`Inventory` are the fields of `_Assembly` that only `inventory` writes, and `Wiring` those the
other methods write.
-/

namespace ContractCapsule.Resolve

open Library Models
open Enumeration (wire)

variable {F : Type} [FloatText F]

/-! ## Section 1: Nodes -/

/-- `_PRIVATE` -/
def privateMark : String := "__ccs_m4__:"

/-- `name.startswith(_PRIVATE)` -/
def isPrivate (name : String) : Bool := privateMark.toList.isPrefixOf name.toList

/-- `_presence` -/
def presence (ref : CapsuleRef) : String := privateMark ++ "presence:" ++ ref.key

/-- `_unit` -/
def unitNode (ref : CapsuleRef) : String := privateMark ++ "unit:" ++ ref.key

/-! ## Section 2: Closure and conflicts -/

/-- An edge of the assembled graph; it has no version constraint any more. -/
structure Edge where
  source : String
  target : String
  edgeType : EdgeType
  mandatory : Bool
deriving DecidableEq, Repr

/-- The key of an edge. -/
def Edge.key (e : Edge) : String × String × EdgeType := (e.source, e.target, e.edgeType)

/-- Whether the closure follows an edge. -/
def Edge.followed (e : Edge) : Bool := decide (e.edgeType = .requires) && e.mandatory

/-- The targets that `dependency_closure` collects for a node. -/
def dependencies (edges : List Edge) (node : String) : List String :=
  (edges.filter fun e => e.followed && e.source == node).map Edge.target

/-- `dependency_closure` -/
def dependencyClosure (selected : List String) (edges : List Edge) : Finset String :=
  worklist (dependencies edges) (selected.length + edges.length) selected

/-- The ends of an edge in order. -/
def orderedEnds (e : Edge) : String × String :=
  if e.source ≤ e.target then (e.source, e.target) else (e.target, e.source)

/-- The order of two pairs of ends. -/
def endsLe (a b : String × String) : Prop := a.1 < b.1 ∨ a.1 = b.1 ∧ a.2 ≤ b.2

instance (a b : String × String) : Decidable (endsLe a b) := inferInstanceAs (Decidable (_ ∨ _ ∧ _))

/-- `detect_conflicts` -/
def detectConflicts (selected : Finset String) (edges : List Edge) : List Conflict :=
  let pairs := (edges.filter fun e =>
    e.edgeType = .conflicts ∧ e.source ∈ selected ∧ e.target ∈ selected).map orderedEnds
  (pairs.dedup.insertionSort endsLe).map fun pair =>
    { source := pair.1, target := pair.2, reason := "DECLARED_CONFLICT" }

/-! ## Section 3: Resolved graphs -/

/-- `ResolvedGraph`. The dictionary of atoms is keyed by their identifiers, and that of
publications by the keys of their references. -/
structure ResolvedGraph (F : Type) [FloatText F] where
  atoms : List (Atom (Number F))
  owners : List (String × List CapsuleRef)
  publications : List (CapsuleRef × Publication F)
  edges : List Edge
  rootAtomIds : List String
  providers : List ProviderWitness
  configDigest : String
  version : String

namespace ResolvedGraph

variable (g : ResolvedGraph F)

/-- The keys of `atoms`. -/
def atomIds : Finset String := (g.atoms.map Atom.atomId).toFinset

/-- `graph.atoms.get` -/
def atom? (atomId : String) : Option (Atom (Number F)) := g.atoms.find? fun a => a.atomId = atomId

/-- `graph.owners[atom_id]` -/
def ownersOf (atomId : String) : List CapsuleRef := (g.owners.lookup atomId).getD []

/-- The private nodes of the publications. -/
def markers : List String :=
  g.publications.flatMap fun p => [presence p.1, unitNode p.1]

/-- `_closed_nodes` -/
def closedNodes (selected : Finset String) : Except CompileError (Finset String) := do
  raiseIf (¬ selected ⊆ g.atomIds) .missingAtom
  let closed := dependencyClosure ((g.atoms.map Atom.atomId).filter (· ∈ selected)) g.edges
  raiseIf (¬ closed ⊆ g.atomIds ∪ g.markers.toFinset) .missingDependency
  return closed

/-- `close_atoms` -/
def closeAtoms (selected : Finset String) : Except CompileError (Finset String) := do
  let closed ← g.closedNodes selected
  return closed ∩ g.atomIds

/-- `conflicts_for` -/
def conflictsFor (selected : Finset String) : Except CompileError (List Conflict) := do
  let closed ← g.closedNodes selected
  return detectConflicts closed g.edges

/-- `closure_links` -/
def closureLinks (selected : Finset String) : Except CompileError (List ClosureLink) := do
  let closed ← g.closedNodes selected
  return (g.edges.filter fun e => e.followed ∧ e.source ∈ closed ∧ e.target ∈ closed).map fun e =>
    { source := e.source, target := e.target }

end ResolvedGraph

/-! ## Section 4: The inventory -/

structure Inventory (F : Type) [FloatText F] where
  refs : List CapsuleRef
  publications : List (CapsuleRef × Publication F)
  knownAtoms : List String
  complete : List CapsuleRef
  atoms : List (Atom (Number F))
  owners : List (String × List CapsuleRef)

/-- The key of a publication in its dictionary. -/
def entryKey (p : CapsuleRef × Publication F) : String := p.1.key

structure Wiring where
  edges : List Edge
  providers : List ProviderWitness

/-- The inventory before anything is admitted. -/
def Inventory.empty : Inventory F := ⟨[], [], [], [], [], []⟩

/-- The wiring before any edge is added. -/
def Wiring.empty : Wiring := ⟨[], []⟩

/-- `add`. An edge that is added again is mandatory when it was or is. -/
def Wiring.add (w : Wiring) (source target : String) (kind : EdgeType) (mandatory : Bool) :
    Wiring :=
  let previous := w.edges.any fun e => e.key == (source, target, kind) && e.mandatory
  let edge : Edge :=
    { source := source, target := target, edgeType := kind, mandatory := mandatory || previous }
  { w with edges := assign Edge.key edge w.edges }

/-- The insertion of a reference into the owners of an atom, in the order of the keys. -/
def addOwner (ref : CapsuleRef) (owners : List CapsuleRef) : List CapsuleRef :=
  (assign CapsuleRef.key ref owners).insertionSort fun a b => a.key ≤ b.key

/-- `_admit_atom` -/
def admitAtom (ref : CapsuleRef) (state : Inventory F × Wiring) (atom : Atom (Number F)) :
    Except CompileError (Inventory F × Wiring) := do
  let (inv, w) := state
  raiseIf (∃ previous ∈ inv.atoms, previous.atomId = atom.atomId ∧
    canonicalText (atomDump previous) ≠ canonicalText (atomDump atom)) .duplicateAtom
  let owners := (inv.owners.lookup atom.atomId).getD []
  return ({ inv with
      atoms := assign Atom.atomId atom inv.atoms
      owners := assign Prod.fst (atom.atomId, addOwner ref owners) inv.owners },
    (w.add atom.atomId (presence ref) .requires true).add (unitNode ref) atom.atomId .requires true)

/-- Whether an atom of the payload is admitted. -/
def AdmittedCapsule.Admits (item : AdmittedCapsule F) (atomId : String) : Prop :=
  atomId ∈ item.payload.map Atom.atomId ∧ atomId ∈ item.atomIds

/-- Whether the whole payload is admitted. -/
def AdmittedCapsule.IsComplete (item : AdmittedCapsule F) : Prop :=
  item.payload.map Atom.atomId ≠ [] ∧ ∀ id ∈ item.payload.map Atom.atomId, id ∈ item.atomIds

instance (item : AdmittedCapsule F) : Decidable item.IsComplete :=
  inferInstanceAs (Decidable (_ ∧ _))

/-- What `inventory` notes of an admitted publication itself. -/
def Inventory.withItem (inv : Inventory F) (item : AdmittedCapsule F) : Inventory F :=
  { inv with
    refs := assign CapsuleRef.key item.ref inv.refs
    publications := assign entryKey (item.ref, item.published) inv.publications
    knownAtoms := inv.knownAtoms ++ item.payload.map Atom.atomId
    complete := if item.IsComplete then inv.complete ++ [item.ref] else inv.complete }

/-- The part of `inventory` for one admitted publication. -/
def inventoryItem (state : Inventory F × Wiring) (item : AdmittedCapsule F) :
    Except CompileError (Inventory F × Wiring) :=
  (item.payload.filter fun atom => atom.atomId ∈ item.atomIds).foldlM (admitAtom item.ref)
    (state.1.withItem item, state.2)

/-- `inventory` -/
def inventory (admission : AdmissionResult F) : Except CompileError (Inventory F × Wiring) := do
  let items := admission.items.insertionSort fun a b => a.ref.key ≤ b.ref.key
  let (inv, w) ← items.foldlM inventoryItem (Inventory.empty, Wiring.empty)
  raiseIf (∃ name ∈ inv.knownAtoms ++ inv.refs.map CapsuleRef.capsuleId, isPrivate name = true)
    .invalidGraph
  return (inv, w)

/-! ## Section 5: Providers -/

/-- Whether the lock of a capsule names a provider. -/
def locks (capsule : Capsule (Number F)) (provider : CapsuleRef) : Bool :=
  capsule.testsIntegrity.lock.capsuleDependencies.any fun lock =>
    lock.capsuleId == provider.capsuleId && lock.version == provider.version &&
      lock.digest == provider.digest

namespace Inventory

variable (precedence : String → String → Ordering) (inv : Inventory F)

/-- The capsule of a reference. -/
def capsule? (ref : CapsuleRef) : Option (Capsule (Number F)) :=
  (inv.publications.find? fun p => entryKey p = ref.key).map fun p => capsuleOf p.2

/-- `_payload` -/
def payload (ref : CapsuleRef) : List String :=
  match inv.capsule? ref with
  | none => []
  | some capsule => (capsule.semanticPayload.atoms.map Atom.atomId).insertionSort (· ≤ ·)

/-- `unique` -/
def unique (candidates : List CapsuleRef) (missing : CompileError) :
    Except CompileError CapsuleRef :=
  match candidates with
  | [] => .error missing
  | [ref] => .ok ref
  | _ => .error .ambiguousProvider

/-- `locked` -/
def locked (consumer provider : CapsuleRef) : Bool :=
  (inv.capsule? consumer).any fun capsule => locks capsule provider

/-- Whether a capsule provides an interface of a family. An interface that cannot be parsed is only
met when no earlier one is of the family. -/
def providesFamily (family : String) (provides : List String) : Except CompileError Bool :=
  provides.anyM fun value => return (← parseInterface value) == family

/-- `matching` -/
def matching (declaration : String) : Except CompileError (List CapsuleRef) := do
  let (family, constraint) ← requirement declaration
  inv.refs.filterM fun ref => do
    match inv.capsule? ref with
    | none => return false
    | some capsule =>
      if ← providesFamily family capsule.controlManifest.provides then
        satisfies precedence ref.version constraint
      else return false

/-- `witness` -/
def witness (consumer : Option CapsuleRef) (requirement : String) (provider : CapsuleRef)
    (w : Wiring) : Wiring :=
  let found : ProviderWitness :=
    { consumer := consumer
      requirement := requirement
      provider := provider
      atomIds := uniqueStrings (inv.payload provider) }
  { w with providers := w.providers ++ [found] }

/-- The part of `roots` for one required interface. -/
def rootsOf (state : List String × Wiring) (requirement : String) :
    Except CompileError (List String × Wiring) := do
  let _ ← parseInterface requirement
  let candidates := inv.refs.filter fun ref => inv.complete.contains ref &&
    match inv.capsule? ref with
    | none => false
    | some capsule => capsule.controlManifest.provides.contains requirement
  let provider ← unique candidates .missingInterface
  return (state.1 ++ inv.payload provider, inv.witness none requirement provider state.2)

/-- `roots` -/
def roots (task : TaskContext) (w : Wiring) : Except CompileError (List String × Wiring) := do
  let result ← task.requiredInterfaces.foldlM inv.rootsOf ([], w)
  raiseIf (∃ id ∈ task.requiredAtomIds, id ∉ inv.atoms.map Atom.atomId) .missingAtom
  return result

/-! ## Section 6: Manifests -/

/-- The part of `manifests` for one requirement of a capsule. -/
def requireManifest (consumer : CapsuleRef) (w : Wiring) (requirement : String) :
    Except CompileError Wiring := do
  let providers ← inv.matching precedence requirement
  let candidates := providers.filter fun provider =>
    inv.complete.contains provider && inv.locked consumer provider
  let provider ← unique candidates .missingDependency
  return inv.witness (some consumer) requirement provider
    (w.add (presence consumer) (unitNode provider) .requires true)

/-- The part of `manifests` for one declared conflict of a capsule. -/
def conflictManifest (consumer : CapsuleRef) (w : Wiring) (declaration : String) :
    Except CompileError Wiring := do
  let providers ← inv.matching precedence declaration
  return providers.foldl
    (fun w provider => w.add (presence consumer) (presence provider) .conflicts true) w

/-- The part of `manifests` for one capsule. -/
def manifestsOf (w : Wiring) (consumer : CapsuleRef) : Except CompileError Wiring :=
  match inv.capsule? consumer with
  | none => .ok w
  | some capsule => do
    let w ← (uniqueStrings capsule.controlManifest.requires).foldlM
      (inv.requireManifest precedence consumer) w
    capsule.controlManifest.conflicts.foldlM (inv.conflictManifest precedence consumer) w

/-- `combinations(refs, 2)` -/
def combinations : List CapsuleRef → List (CapsuleRef × CapsuleRef)
  | [] => []
  | left :: rest => rest.map (fun right => (left, right)) ++ combinations rest

/-- Two versions of one capsule are in conflict. -/
def identityConflict (w : Wiring) (pair : CapsuleRef × CapsuleRef) : Wiring :=
  if pair.1.capsuleId = pair.2.capsuleId then
    w.add (presence pair.1) (presence pair.2) .conflicts true
  else w

/-- `manifests` -/
def manifests (w : Wiring) : Except CompileError Wiring := do
  let w ← inv.refs.foldlM (inv.manifestsOf precedence) w
  return (combinations inv.refs).foldl identityConflict w

/-! ## Section 7: Explicit edges -/

/-- `nodes` -/
def nodes (name : String) : Except CompileError (List String) := do
  raiseIf (isPrivate name = true) .invalidGraph
  let refs := (inv.refs.filter fun ref => ref.capsuleId = name).map presence
  raiseIf (refs ≠ [] ∧ name ∈ inv.knownAtoms) .ambiguousGraphNode
  return if refs = [] then [name] else refs

/-- `node_owners` -/
def nodeOwners (node : String) : List CapsuleRef :=
  match inv.owners.lookup node with
  | some owners => owners
  | none => inv.refs.filter fun ref => node = presence ref

/-- One pair of consumer and provider in `_required_target`. -/
def requiredPair (source target : String) (w : Wiring) (pair : CapsuleRef × CapsuleRef) :
    Except CompileError Wiring :=
  let (consumer, provider) := pair
  if consumer = provider then .ok w
  else do
    raiseIf (inv.locked consumer provider = false) .missingDependency
    let found : ProviderWitness :=
      { consumer := some consumer
        requirement := "requires:" ++ source ++ "->" ++ target
        provider := provider
        atomIds := uniqueStrings (if isPrivate target then inv.payload provider else [target]) }
    return { w with providers := w.providers ++ [found] }

/-- `_required_target`: the node that an edge to a target leads to. -/
def requiredTarget (source target : String) (consumers : List CapsuleRef) (w : Wiring) :
    Except CompileError (String × Wiring) := do
  let providers := inv.nodeOwners target
  let pairs := consumers.flatMap fun consumer => providers.map fun provider => (consumer, provider)
  let w ← pairs.foldlM (inv.requiredPair source target) w
  if isPrivate target then
    match providers with
    | [] => .error .unexpected
    | provider :: _ =>
      raiseIf (inv.complete.contains provider = false) .missingDependency
      return (unitNode provider, w)
  else return (target, w)

/-- Whether an edge makes its source depend on its target. -/
def demands (edge : DependencyEdge (Number F)) : Bool :=
  decide (edge.edgeType = .requires) && edge.mandatory

/-- `_version_matches` -/
def versionMatches (target : String) (edge : DependencyEdge (Number F)) :
    Except CompileError Bool :=
  match edge.versionConstraint with
  | none => .ok true
  | some constraint =>
    if edge.edgeType ≠ .requires ∧ edge.edgeType ≠ .conflicts then .ok true
    else do
      let results ← (inv.nodeOwners target).mapM fun ref => satisfies precedence ref.version constraint
      return if edge.edgeType = .conflicts then results.any id else results.all id

/-- `_targets_for` -/
def targetsFor (targets : List String) (edge : DependencyEdge (Number F)) (declaring : CapsuleRef) :
    Except CompileError (List String) :=
  if demands edge = true ∧ (targets.head?.any isPrivate) = true then do
    let candidates ← targets.filterM fun target =>
      match (inv.nodeOwners target).head? with
      | none => return false
      | some provider =>
        if inv.complete.contains provider then do
          if ← inv.versionMatches precedence target edge then
            return declaring = provider || inv.locked declaring provider
          else return false
        else return false
    let providers := candidates.filterMap fun target => (inv.nodeOwners target).head?
    let provider ← unique providers .missingDependency
    return [presence provider]
  else .ok targets

/-- The part of `explicit` for one source and one target. -/
def explicitTarget (edge : DependencyEdge (Number F)) (declaring : CapsuleRef) (source : String)
    (w : Wiring) (target : String) : Except CompileError Wiring := do
  if ← inv.versionMatches precedence target edge then
    if demands edge then do
      let (resolved, w) ← inv.requiredTarget source target [declaring] w
      return w.add source resolved edge.edgeType edge.mandatory
    else return w.add source target edge.edgeType edge.mandatory
  else if demands edge then .error .missingDependency
  else return w

/-- The part of `explicit` for one source. -/
def explicitSource (edge : DependencyEdge (Number F)) (declaring : CapsuleRef)
    (targets : List String) (w : Wiring) (source : String) : Except CompileError Wiring :=
  if declaring ∉ inv.nodeOwners source then .ok w
  else do
    let resolved ← inv.targetsFor precedence targets edge declaring
    resolved.foldlM (inv.explicitTarget precedence edge declaring source) w

/-- `explicit` -/
def explicit (capsule : Capsule (Number F)) (declaring : CapsuleRef) (w : Wiring)
    (edge : DependencyEdge (Number F)) : Except CompileError Wiring := do
  match edge.versionConstraint with
  | none => pure ()
  | some constraint => let _ ← constraintTerms constraint
  let sources ← inv.nodes edge.source
  let targets ← inv.nodes edge.target
  raiseIf (edge.source ≠ declaring.capsuleId ∧
    edge.source ∉ capsule.semanticPayload.atoms.map Atom.atomId) .invalidGraph
  let sources := if edge.source = declaring.capsuleId then [presence declaring] else sources
  raiseIf ((sources.head?.all fun source => (inv.nodeOwners source).isEmpty) = true ∧
    edge.source ∉ inv.knownAtoms) .invalidGraph
  sources.foldlM (inv.explicitSource precedence edge declaring targets) w

/-! ## Section 8: Atom edges -/

/-- One required atom of an atom. -/
def requireAtom (atomId : String) (w : Wiring) (target : String) : Except CompileError Wiring := do
  raiseIf (isPrivate target = true) .invalidGraph
  let (resolved, w) ← inv.requiredTarget atomId target (inv.nodeOwners atomId) w
  return w.add atomId resolved .requires true

/-- One conflicting atom of an atom. -/
def conflictAtom (atomId : String) (w : Wiring) (target : String) : Except CompileError Wiring := do
  raiseIf (isPrivate target = true) .invalidGraph
  return w.add atomId target .conflicts true

/-- The edges that an atom declares. -/
def atomEdges (w : Wiring) (atom : Atom (Number F)) : Except CompileError Wiring := do
  let w ← atom.requiresAtoms.foldlM (inv.requireAtom atom.atomId) w
  atom.conflictsWith.foldlM (conflictAtom atom.atomId) w

/-- The edges that a capsule declares. -/
def publicationEdges (w : Wiring) (p : CapsuleRef × Publication F) : Except CompileError Wiring :=
  (capsuleOf p.2).dependencyGraph.edges.foldlM (inv.explicit precedence (capsuleOf p.2) p.1) w

/-- `atomic_edges` -/
def atomicEdges (w : Wiring) : Except CompileError Wiring := do
  let w ← inv.atoms.foldlM inv.atomEdges w
  inv.publications.foldlM (inv.publicationEdges precedence) w

end Inventory

/-! ## Section 9: Resolution -/

/-- The order of two edges by their keys. -/
def Edge.le (a b : Edge) : Prop :=
  a.source < b.source ∨ a.source = b.source ∧ (a.target < b.target ∨
    a.target = b.target ∧ wire a.edgeType ≤ wire b.edgeType)

instance (a b : Edge) : Decidable (Edge.le a b) :=
  inferInstanceAs (Decidable (_ ∨ _ ∧ (_ ∨ _ ∧ _)))

/-- The canonical text of a witness, by which witnesses are kept once and ordered. -/
def witnessText (F : Type) [FloatText F] (w : ProviderWitness) : List Char :=
  canonicalText (w.dump : Value F)

/-- `resolve_graph` -/
def resolveGraph (precedence : String → String → Ordering) (sha256 : List Char → String)
    (admission : AdmissionResult F) (task : TaskContext) : Except CompileError (ResolvedGraph F) := do
  let (inv, w) ← inventory admission
  let (roots, w) ← inv.roots task w
  let w ← inv.manifests precedence w
  let w ← inv.atomicEdges precedence w
  return {
    atoms := inv.atoms.insertionSort fun a b => a.atomId ≤ b.atomId
    owners := inv.owners.insertionSort fun a b => a.1 ≤ b.1
    publications := inv.publications
    edges := w.edges.insertionSort Edge.le
    rootAtomIds := roots
    providers := (index (witnessText F) w.providers).insertionSort fun a b =>
      witnessText F a ≤ witnessText F b
    configDigest := snapshotDigest (F := F) sha256 (.object
      [("version", .string "1.0.1"), ("profile", .string "CCS-2.1-m4-collective-interfaces-v1")])
    version := "1.0.1" }

end ContractCapsule.Resolve
