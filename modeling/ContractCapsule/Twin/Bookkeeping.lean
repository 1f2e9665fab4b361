import ContractCapsule.Twin.DockerLifecycle
import Mathlib.Algebra.Order.Group.Multiset

/-!
# The Bookkeeping of a Stage

What the events of a stage say about its containers and volumes, and the balance that the lifecycle
keeps with them: what was created is what was removed together with what the lifecycle still owns.

Each operation of the lifecycle is confined to the balance, and raises an error that the runner does
not catch exactly when one of its events escapes (`DockerHost.escapes`).
-/

namespace ContractCapsule.Twin

open Library Models

/-! ## Section 1: What events say -/

/-- The exception is one that the runner does not catch. -/
def uncaught {α : Type} : Except PyError α → Bool
  | .ok _ => false
  | .error e => !e.isOsOrValue

/-- The reference to a container: its identity when one was returned, and its name otherwise. -/
def createdAs (name : String) : Except PyError String → String
  | .ok identity => identity
  | .error _ => name

namespace DockerHost

variable {ν : Type} (host : DockerHost ν)

/-- What `control` made of the answer. -/
def result (event : Event) : Except PyError Bytes :=
  controlled host.config event.command event.answer

/-- The resources whose creation an event attempted. -/
def created (event : Event) : Resource → List String
  | .container =>
    match event.command with
    | .create name _ _ => [createdAs name (host.result event >>= containerIdentity)]
    | _ => []
  | .volume =>
    match event.command with
    | .createVolume volume => [volume]
    | _ => []

/-- The command succeeded. -/
def confirmed (event : Event) : Bool := (host.result event).toBool

/-- The resources whose removal an event confirmed. -/
def removed (event : Event) : Resource → List String
  | .container =>
    match event.command with
    | .removeContainer container => if host.confirmed event then [container] else []
    | _ => []
  | .volume =>
    match event.command with
    | .removeVolume volume => if host.confirmed event then [volume] else []
    | _ => []

/-- The resources that some events attempted to create, each as often as it was attempted. -/
def attempted (events : List Event) (resource : Resource) : Multiset String :=
  ↑(events.flatMap fun event => host.created event resource)

/-- The resources whose removal some events confirmed. -/
def confirmedRemoved (events : List Event) (resource : Resource) : Multiset String :=
  ↑(events.flatMap fun event => host.removed event resource)

/-- What was created is what was removed and what is owned. -/
def Balanced (s : Stage) : Prop :=
  ∀ resource, host.attempted s.events resource =
    host.confirmedRemoved s.events resource + ↑(s.owned resource)

/-- An event whose outcome the runner does not catch: an exception of `bounded` that is neither an
`OSError` nor a `ValueError`, or a document of the quota program or an archive of the workspace
whose reader raises one. What the readers of an inspection raise is all caught. -/
def escapes (event : Event) : Bool :=
  match event.command with
  | .inspectImage | .inspect _ =>
    match event.answer with
    | .ok _ => false
    | .error e => !e.isMalformed
  | .quota _ => uncaught (host.result event >>= host.readQuota)
  | .copy _ => uncaught (host.result event >>= host.readTar)
  | _ => uncaught event.answer

/-- What the programs of a stage are confined to. -/
def confinement : Confinement Stage PyError Event where
  inv := host.Balanced
  trace := Stage.events
  escapes := host.escapes
  caught := PyError.isOsOrValue

/-- The program is confined to the balance of the stage. -/
abbrev Kept {α : Type} (p : Tx Stage PyError α) : Prop := host.confinement.Confined p

/-! ## Section 2: Commands -/

section Commands

variable {host}

@[simp] theorem attempted_append (events : List Event) (event : Event) (resource : Resource) :
    host.attempted (events ++ [event]) resource =
      host.attempted events resource + ↑(host.created event resource) := by
  simp [attempted]

@[simp] theorem confirmedRemoved_append (events : List Event) (event : Event)
    (resource : Resource) :
    host.confirmedRemoved (events ++ [event]) resource =
      host.confirmedRemoved events resource + ↑(host.removed event resource) := by
  simp [confirmedRemoved]

/-- The store after a command. -/
def answered (host : DockerHost ν) (command : Command) (s : Stage) : Stage :=
  { s with events := s.events ++ [⟨command, host.bounded s.events command⟩] }

/-- A command that creates and removes nothing. -/
def Neutral (host : DockerHost ν) (command : Command) : Prop :=
  ∀ answer resource, host.created ⟨command, answer⟩ resource = [] ∧
    host.removed ⟨command, answer⟩ resource = []

theorem owned_answered (command : Command) (s : Stage) :
    (answered host command s).owned = s.owned := by
  funext r
  cases r <;> rfl

theorem balanced_answered {command : Command} (h : Neutral host command) {s : Stage}
    (hs : host.Balanced s) : host.Balanced (answered host command s) := by
  intro resource
  obtain ⟨hcreated, hremoved⟩ := h (host.bounded s.events command) resource
  simp only [answered, attempted_append, confirmedRemoved_append, hcreated, hremoved,
    Multiset.coe_nil, add_zero]
  exact hs resource

/-- A program that runs one command and decides on its answer. -/
def deciding {α : Type} (host : DockerHost ν) (command : Command)
    (decision : Except PyError Output → Except PyError α) : Tx Stage PyError α := do
  let answer ← host.ask command
  check (decision answer)

theorem deciding_eq {α : Type} (command : Command)
    (decision : Except PyError Output → Except PyError α) (s : Stage) :
    deciding host command decision s =
      (check (decision (host.bounded s.events command)) : Tx Stage PyError α)
        (answered host command s) := rfl

theorem exists_uncaught {α : Type} (x : Except PyError α) :
    (∃ e, x = .error e ∧ e.isOsOrValue = false) ↔ uncaught x = true := by
  cases x with
  | ok a => simp [uncaught]
  | error e => simp [uncaught]

/-- A program that adds one event, and raises an uncaught error exactly where the event escapes. -/
theorem adds_event {α : Type} {p : Tx Stage PyError α} {s after : Stage} {event : Event}
    {x : Except PyError α} (hrun : p s = (check x : Tx Stage PyError α) after)
    (hinv : host.Balanced after) (htrace : after.events = s.events ++ [event])
    (hescapes : uncaught x = host.escapes event) : host.confinement.Adds p s [event] := by
  have hbehind : leftBehind p s = after := by
    rw [leftBehind, hrun]
    cases x <;> rfl
  refine ⟨?_, ?_, ?_⟩
  · rw [hbehind]
    exact hinv
  · rw [hbehind]
    exact htrace
  · have hraises : (∃ e, Raises p s e ∧ host.confinement.caught e = false) ↔
        uncaught x = true := by
      rw [← exists_uncaught]
      apply exists_congr
      intro e
      rw [Raises, hrun]
      cases x <;> simp [confinement, check]
    rw [hraises, hescapes]
    simp [confinement]

theorem kept_deciding {α : Type} {command : Command} (hneutral : Neutral host command)
    {decision : Except PyError Output → Except PyError α}
    (h : ∀ answer, uncaught (decision answer) = host.escapes ⟨command, answer⟩) :
    host.Kept (deciding host command decision) :=
  fun s hs => ⟨_, adds_event (deciding_eq command decision s) (balanced_answered hneutral hs) rfl
    (h _)⟩

/-- What `control` raises by itself is caught. -/
theorem uncaught_controlled (command : Command) (answer : Except PyError Output) :
    uncaught (controlled host.config command answer) = uncaught answer := by
  cases answer with
  | error e => rfl
  | ok output =>
    unfold controlled
    simp only [Except.ok_bind]
    by_cases h : output.exitCode ≠ some 0 ∨ output.timedOut = true ∨ output.limited = true
    · rw [raiseIf_of _ h]
      rfl
    · rw [raiseIf_of_not _ h]
      rfl

/-- A reader that raises only what is caught does not change what is uncaught. -/
theorem uncaught_reading {α : Type} {read : Bytes → Except PyError α}
    (hread : ∀ raw, FailsOnly (fun e => e.isOsOrValue = true) (read raw)) (command : Command)
    (answer : Except PyError Output) :
    uncaught (controlled host.config command answer >>= read) = uncaught answer := by
  rw [← uncaught_controlled command answer]
  cases controlled host.config command answer with
  | error e => rfl
  | ok raw =>
    rw [Except.ok_bind]
    cases hraw : read raw with
    | ok a => rfl
    | error e => exact congrArg not (hread raw e hraw)

theorem control_eq (command : Command) :
    host.control command = deciding host command (controlled host.config command) := rfl

/-- A command whose outcome only `control` looks at. -/
def Plain (host : DockerHost ν) (command : Command) : Prop :=
  ∀ answer, host.escapes ⟨command, answer⟩ = uncaught answer

theorem kept_control {command : Command} (hneutral : Neutral host command)
    (hplain : Plain host command) : host.Kept (host.control command) := by
  rw [control_eq]
  apply kept_deciding hneutral
  intro answer
  rw [uncaught_controlled, hplain]

theorem bind_check {α β : Type} (command : Command)
    (decision : Except PyError Output → Except PyError α) (f : α → Except PyError β) :
    (deciding host command decision >>= fun a => check (f a)) =
      deciding host command fun answer => decision answer >>= f := by
  funext s
  show EStateM.bind (deciding host command decision) _ s = _
  rw [EStateM.bind, deciding_eq, deciding_eq]
  cases decision (host.bounded s.events command) <;> rfl

theorem handling_deciding {α : Type} (caught : PyError → Bool) (command : Command)
    (decision : Except PyError Output → Except PyError α) (f : PyError → PyError) :
    handling caught (deciding host command decision) (fun e => check (.error (f e))) =
      deciding host command fun answer =>
        match decision answer with
        | .ok a => .ok a
        | .error e => if caught e then .error (f e) else .error e := by
  funext s
  rw [handling, deciding_eq, deciding_eq]
  cases decision (host.bounded s.events command) with
  | ok a => rfl
  | error e => by_cases h : caught e = true <;> simp [h, check]

end Commands

/-! ## Section 3: Inspections -/

section Inspections

variable {host}

/-- What the readers of an inspection raise. -/
abbrev Malformed {α : Type} (x : Except PyError α) : Prop :=
  FailsOnly (fun e => e.isMalformed = true) x

theorem malformed_loads (raw : Bytes) : Malformed (host.loads raw) := by
  intro e h
  unfold loads at h
  cases hloads : host.decoder.loadsBytes raw with
  | ok value => simp [hloads, fromLoads] at h
  | error e' =>
    cases e' with
    | valueError =>
      simp only [hloads, fromLoads, Except.error.injEq] at h
      rw [← h]
      rfl
    | recursionError =>
      simp only [hloads, fromLoads, Except.error.injEq] at h
      rw [← h]
      rfl

theorem malformed_item (members : List (Text × PyJson ν)) (key : String) :
    Malformed (item members key) :=
  failsOnly_orRaise rfl

theorem malformed_require {α : Type} (o : Option α) : Malformed (orRaise o .valueError) :=
  failsOnly_orRaise rfl

/-- The value of a key, which must have a type, and what is done with it. -/
theorem malformed_field {α β : Type} (members : List (Text × PyJson ν)) (key : String)
    (read : PyJson ν → Option α) {f : α → Except PyError β} (hf : ∀ a, Malformed (f a)) :
    Malformed (do
      let value ← item members key
      let a ← orRaise (read value) .valueError
      f a) := by
  apply failsOnly_bind (malformed_item members key)
  intro value
  exact failsOnly_bind (malformed_require _) hf

theorem malformed_readImage (raw : Bytes) : Malformed (host.readImage raw) := by
  unfold readImage
  apply failsOnly_bind (malformed_loads raw)
  intro payload
  apply failsOnly_bind (malformed_require _)
  intro image
  apply failsOnly_bind (malformed_item _ _)
  intro imageId
  apply failsOnly_bind (malformed_item _ _)
  intro operatingSystem
  apply failsOnly_bind (malformed_item _ _)
  intro architecture
  apply failsOnly_bind (malformed_require _)
  intro _
  apply failsOnly_bind (malformed_require _)
  intro _
  apply failsOnly_bind (malformed_require _)
  intro _
  exact failsOnly_raiseIf rfl

theorem malformed_readState (container : String) (raw : Bytes) :
    Malformed (host.readState container raw) := by
  have hguard : ∀ (p : Prop) [Decidable p], Malformed (raiseIf p PyError.valueError) :=
    fun p _ => failsOnly_raiseIf rfl
  -- every step of the reader either looks into the document or tests it with `raise ValueError`
  unfold readState
  apply failsOnly_bind (malformed_loads raw)
  intro payload
  apply failsOnly_bind (malformed_require _)
  intro result
  apply malformed_field
  intro state
  apply failsOnly_bind (malformed_item _ _)
  intro id
  apply failsOnly_bind (hguard _)
  intro _
  apply failsOnly_bind (hguard _)
  intro _
  apply malformed_field
  intro running
  apply malformed_field
  intro status
  apply malformed_field
  intro exitCode
  apply malformed_field
  intro oomKilled
  apply malformed_field
  intro error
  exact failsOnly_ok _

/-- What `control` raises for an output. -/
theorem malformed_controlled (command : Command) (output : Output) :
    Malformed (controlled host.config command (.ok output)) := by
  unfold controlled
  rw [Except.ok_bind]
  refine failsOnly_bind (failsOnly_raiseIf ?_) fun _ => failsOnly_ok _
  rfl

/-- A command whose reader is wrapped in the clause for malformed documents raises an uncaught
error exactly when `bounded` raised one that the clause does not catch. -/
theorem kept_inspection {α : Type} {command : Command} (hneutral : Neutral host command)
    (hescapes : ∀ answer, host.escapes ⟨command, answer⟩ =
      match answer with | .ok _ => false | .error e => !e.isMalformed)
    {read : Bytes → Except PyError α} (hread : ∀ raw, Malformed (read raw))
    {rename : PyError → PyError} (hrename : ∀ e, (rename e).isOsOrValue = true) :
    host.Kept (handling PyError.isMalformed
      (do
        let raw ← host.control command
        check (read raw))
      fun e => check (.error (rename e))) := by
  -- command and reader are one decision, whose malformed documents are caught and renamed
  have hdeciding : (do
      let raw ← host.control command
      check (read raw)) =
      deciding host command fun answer => controlled host.config command answer >>= read := by
    rw [control_eq]
    exact bind_check command _ read
  rw [hdeciding, handling_deciding]
  apply kept_deciding hneutral
  intro answer
  rw [hescapes]
  cases answer with
  -- `bounded` raised: the clause catches a malformed document and lets any other error through
  | error e =>
    show uncaught (if e.isMalformed = true then Except.error (rename e) else .error e) = _
    cases e <;> first | rfl | exact congrArg not (hrename _)
  -- it answered: then only the reader may raise, and that is caught
  | ok output =>
    have hmalformed : Malformed (controlled host.config command (.ok output) >>= read) :=
      failsOnly_bind (malformed_controlled command output) hread
    cases hresult : controlled host.config command (.ok output) >>= read with
    | ok a => rfl
    | error e =>
      have he := hmalformed e hresult
      simp only [he, if_true]
      exact congrArg not (hrename e)

theorem kept_preflight : host.Kept host.preflight := by
  apply kept_inspection
  · intro answer resource
    cases resource <;> exact ⟨rfl, rfl⟩
  · intro answer
    rfl
  · exact malformed_readImage
  · intro e
    cases e <;> rfl

theorem kept_state (container : String) : host.Kept (host.state container) := by
  apply kept_inspection
  · intro answer resource
    cases resource <;> exact ⟨rfl, rfl⟩
  · intro answer
    rfl
  · exact malformed_readState container
  · intro e
    rfl

/-- A command whose reader is not wrapped. -/
theorem kept_reading {α : Type} {command : Command} (hneutral : Neutral host command)
    {read : Bytes → Except PyError α}
    (hescapes : ∀ answer, host.escapes ⟨command, answer⟩ =
      uncaught (controlled host.config command answer >>= read)) :
    host.Kept (do
      let raw ← host.control command
      check (read raw)) := by
  rw [control_eq, bind_check]
  apply kept_deciding hneutral
  intro answer
  exact (hescapes answer).symm

theorem kept_checkQuota (stderr : Bytes) : host.Kept (host.checkQuota stderr) := by
  apply Confinement.confined_bind (Confinement.confined_select _)
  intro keeper
  rw [← bind_assoc]
  apply Confinement.confined_bind
  · apply kept_reading
    · intro answer resource
      cases resource <;> exact ⟨rfl, rfl⟩
    · intro answer
      rfl
  · intro exhausted
    apply Confinement.confined_check
    exact failsOnly_raiseIf rfl

/-- The workspace is copied out of the keeper. -/
theorem kept_copy (keeper : String) :
    host.Kept (do
      let raw ← host.control (.copy keeper)
      check (host.readTar raw)) := by
  apply kept_reading
  · intro answer resource
    cases resource <;> exact ⟨rfl, rfl⟩
  · intro answer
    rfl

end Inspections

/-! ## Section 4: Creation -/

section Creation

variable {host}

/-- The store once a container was attempted to be created under a name, and is owned by another. -/
def ownedAs (host : DockerHost ν) (mounts command : List String) (s : Stage) (owned : String) :
    Stage :=
  let name := "ccs-m5-stage-" ++ host.uuid s.names
  let asked : Stage := { s with containers := s.containers ++ [name], names := s.names + 1 }
  { answered host (.create name mounts command) asked with
    containers := s.containers ++ [owned] }

/-- `create`, read off its answer. -/
theorem create_eq (mounts command : List String) (s : Stage) {name : String} {event : Event}
    {x : Except PyError String} (hname : name = "ccs-m5-stage-" ++ host.uuid s.names)
    (hevent : event = ⟨.create name mounts command,
      host.bounded s.events (.create name mounts command)⟩)
    (hx : host.result event >>= containerIdentity = x) :
    host.create mounts command s =
      (check x : Tx Stage PyError String) (ownedAs host mounts command s (createdAs name x)) := by
  have hprogram : host.create mounts command = (do
      let name ← host.newName "ccs-m5-stage-"
      write fun s => { s with containers := s.containers ++ [name] }
      let identity ← deciding host (.create name mounts command) fun answer =>
        controlled host.config (.create name mounts command) answer >>= containerIdentity
      write fun s => { s with containers := s.containers.dropLast ++ [identity] }
      pure identity) := by
    unfold create
    simp only [control_eq, ← bind_check, bind_assoc]
  let asked : Stage := { s with containers := s.containers ++ [name], names := s.names + 1 }
  have hrun : host.create mounts command s = EStateM.bind
      (deciding host (.create name mounts command) fun answer =>
        controlled host.config (.create name mounts command) answer >>= containerIdentity)
      (fun identity => do
        write fun s => { s with containers := s.containers.dropLast ++ [identity] }
        pure identity) asked := by
    subst hname
    rw [hprogram]
    rfl
  have hresult : controlled host.config (.create name mounts command)
      (host.bounded asked.events (.create name mounts command)) = host.result event := by
    rw [hevent]
    rfl
  rw [hrun, EStateM.bind, deciding_eq, hresult, hx]
  subst hname
  cases x with
  | error e => rfl
  | ok identity =>
    -- the identity takes the place of the name, which is the last of the containers
    have hlast : ∀ name : String, (s.containers ++ [name]).dropLast = s.containers :=
      fun name => List.dropLast_concat
    show EStateM.Result.ok identity _ = EStateM.Result.ok identity _
    congr 1
    show Stage.mk ((s.containers ++ [_]).dropLast ++ [identity]) _ _ _ _ = _
    rw [hlast]
    rfl

/-- What the identity of a container raises is caught. -/
theorem failsOnly_containerIdentity (raw : Bytes) :
    FailsOnly (fun e => e.isOsOrValue = true) (containerIdentity raw) := by
  unfold containerIdentity
  refine failsOnly_bind (failsOnly_orRaise ?_) fun text => ?_
  · rfl
  refine failsOnly_bind (failsOnly_raiseIf ?_) fun _ => failsOnly_ok _
  rfl

/-- Creating a container adds its event, whatever the answer is: the container is owned by the
reference that the event gives it. -/
theorem kept_create (mounts command : List String) : host.Kept (host.create mounts command) := by
  intro s hs
  let name := "ccs-m5-stage-" ++ host.uuid s.names
  let event : Event := ⟨.create name mounts command,
    host.bounded s.events (.create name mounts command)⟩
  refine ⟨[event], adds_event (create_eq mounts command s rfl rfl rfl) ?_ rfl ?_⟩
  -- the new container is attempted and owned; the volumes are as before
  · intro resource
    have hevents : ∀ owned, (ownedAs host mounts command s owned).events = s.events ++ [event] :=
      fun _ => rfl
    rw [hevents, attempted_append, confirmedRemoved_append]
    cases resource with
    | container =>
      show host.attempted s.events .container + ↑[createdAs name _] =
        host.confirmedRemoved s.events .container + ↑([] : List String) +
          ↑(s.containers ++ [createdAs name _])
      rw [hs .container, ← Multiset.coe_add, Multiset.coe_nil, add_zero, add_assoc]
      rfl
    | volume =>
      show host.attempted s.events .volume + ↑([] : List String) =
        host.confirmedRemoved s.events .volume + ↑([] : List String) + ↑s.volumes
      rw [hs .volume, Multiset.coe_nil, add_zero, add_zero]
      rfl
  · exact uncaught_reading failsOnly_containerIdentity event.command event.answer

/-- The volume is owned by its name from before it is created. -/
theorem kept_createVolume : host.Kept host.createVolume := by
  intro s hs
  -- the name is recorded before the command is sent
  let volume := "ccs-m5-" ++ host.uuid s.names
  let event : Event := ⟨.createVolume volume, host.bounded s.events (.createVolume volume)⟩
  let asked : Stage := { s with volumes := s.volumes ++ [volume], names := s.names + 1 }
  have hrun : ∀ x, controlled host.config event.command event.answer = x →
      host.createVolume s = (check (x >>= fun _ => .ok volume) : Tx Stage PyError String)
        (answered host (.createVolume volume) asked) := by
    intro x hx
    have hcontrolled : controlled host.config (.createVolume volume)
        (host.bounded asked.events (.createVolume volume)) = x := hx
    show EStateM.bind (host.control (.createVolume volume)) (fun _ => pure volume) asked = _
    rw [EStateM.bind, control_eq, deciding_eq, hcontrolled]
    cases x <;> rfl
  refine ⟨[event], adds_event (hrun _ rfl) ?_ rfl ?_⟩
  -- the command attempts one volume and no container
  · intro resource
    have hevents : (answered host (.createVolume volume) asked).events = s.events ++ [event] := rfl
    rw [hevents, attempted_append, confirmedRemoved_append]
    cases resource with
    | container =>
      show host.attempted s.events .container + ↑([] : List String) =
        host.confirmedRemoved s.events .container + ↑([] : List String) + ↑s.containers
      rw [hs .container, Multiset.coe_nil, add_zero, add_zero]
      rfl
    | volume =>
      show host.attempted s.events .volume + ↑[volume] =
        host.confirmedRemoved s.events .volume + ↑([] : List String) + ↑(s.volumes ++ [volume])
      rw [hs .volume, ← Multiset.coe_add, Multiset.coe_nil, add_zero, add_assoc]
      rfl
  · show _ = uncaught event.answer
    rw [← uncaught_controlled event.command event.answer]
    cases controlled host.config event.command event.answer <;> rfl

/-- The preparation of a stage. -/
theorem kept_prepare (entry : String) (argv : List String) : host.Kept (host.prepare entry argv) := by
  unfold prepare
  apply Confinement.confined_bind kept_createVolume
  intro volume
  apply Confinement.confined_bind (kept_create _ _)
  intro keeper
  apply Confinement.confined_bind
  · apply Confinement.confined_write
    · intro s hs
      exact hs
    · intro s
      rfl
  -- starting a container creates none and removes none
  intro _
  apply Confinement.confined_bind
  · apply kept_control
    · intro answer resource
      cases resource <;> exact ⟨rfl, rfl⟩
    · intro answer
      rfl
  intro _
  apply Confinement.confined_bind (kept_create _ _)
  intro initializer
  apply Confinement.confined_bind
  · apply kept_control
    · intro answer resource
      cases resource <;> exact ⟨rfl, rfl⟩
    · intro answer
      rfl
  intro _
  apply Confinement.confined_bind (kept_state _)
  intro state
  apply Confinement.confined_bind
  · apply Confinement.confined_check
    refine failsOnly_raiseIf ?_
    rfl
  intro _
  exact kept_create _ _

end Creation

/-! ## Section 5: Removal -/

section Removal

variable {host}

theorem owned_disown (s : Stage) (resource : Resource) (name : String) (r : Resource) :
    (s.disown resource name).owned r =
      if r = resource then (s.owned r).erase name else s.owned r := by
  cases r <;> cases resource <;> rfl

/-- A program that removes an owned resource: it strikes the resource when it returns, and nothing
when it raises. -/
structure Removes (host : DockerHost ν) (resource : Resource) (name : String)
    (p : Tx Stage PyError (List String)) : Prop where
  adds : ∀ s, host.Balanced s → name ∈ s.owned resource → ∃ new, host.confinement.Adds p s new
  returns : ∀ s errors s', Returns p s errors s' →
    errors = [] ∧ name ∈ s.owned resource ∧ s'.owned = (s.disown resource name).owned
  raises : ∀ s e s', p s = .error e s' → s'.owned = s.owned

/-- A command that removes one resource. -/
structure RemovalOf (host : DockerHost ν) (command : Command) (resource : Resource) (name : String) :
    Prop where
  created : ∀ answer r, host.created ⟨command, answer⟩ r = []
  removed : ∀ answer, host.removed ⟨command, answer⟩ resource =
    if host.confirmed ⟨command, answer⟩ then [name] else []
  others : ∀ answer r, r ≠ resource → host.removed ⟨command, answer⟩ r = []
  plain : Plain host command

/-- `remove`, read off its answer. -/
theorem remove_eq {command : Command} {resource : Resource} {name : String} {s : Stage}
    {x : Except PyError Bytes} (hx : host.result ⟨command, host.bounded s.events command⟩ = x) :
    host.remove command resource name s =
      match x with
      | .ok _ =>
        if name ∈ s.owned resource then .ok [] ((answered host command s).disown resource name)
        else .error .valueError (answered host command s)
      | .error e => .error e (answered host command s) := by
  have hcontrolled : controlled host.config command (host.bounded s.events command) = x := hx
  show EStateM.bind (host.control command) _ s = _
  rw [EStateM.bind, control_eq, deciding_eq, hcontrolled]
  cases x with
  | error e => rfl
  | ok raw =>
    show EStateM.bind (query _) _ (answered host command s) = _
    rw [EStateM.bind, query, owned_answered]
    by_cases hmem : name ∈ s.owned resource
    · simp only [raiseIf_of_not _ (not_not.mpr hmem), if_pos hmem]
      rfl
    · simp only [raiseIf_of _ hmem, if_neg hmem]

theorem removes_remove {command : Command} {resource : Resource} {name : String}
    (h : RemovalOf host command resource name) :
    Removes host resource name (host.remove command resource name) := by
  have howned := @owned_answered ν host command
  refine ⟨?_, ?_, ?_⟩
  · intro s hs hmem
    let event : Event := ⟨command, host.bounded s.events command⟩
    -- the resource is struck exactly when its removal was confirmed
    let after : Stage := if host.confirmed event then
      (answered host command s).disown resource name else answered host command s
    have hrun : host.remove command resource name s =
        (check (host.result event >>= fun _ => .ok []) : Tx Stage PyError (List String)) after := by
      cases hx : host.result event with
      | ok raw =>
        have hafter : after = (answered host command s).disown resource name := by
          apply if_pos
          rw [confirmed, hx]
          rfl
        rw [remove_eq hx, hafter]
        exact if_pos hmem
      | error e =>
        have hafter : after = answered host command s := by
          apply if_neg
          rw [confirmed, hx]
          exact Bool.false_ne_true
        rw [remove_eq hx, hafter]
        rfl
    have hevents : after.events = s.events ++ [event] := by
      show (if host.confirmed event then (answered host command s).disown resource name
        else answered host command s).events = _
      split
      · cases resource <;> rfl
      · rfl
    refine ⟨[event], adds_event hrun ?_ hevents ?_⟩
    · intro r
      rw [hevents, attempted_append, confirmedRemoved_append, h.created, Multiset.coe_nil,
        add_zero, hs r, add_assoc]
      congr 1
      by_cases hr : r = resource
      · subst hr
        rw [h.removed]
        show _ = _ + (((if host.confirmed event then (answered host command s).disown r name
          else answered host command s).owned r : List String) : Multiset String)
        split
        · rw [owned_disown, if_pos rfl, howned, Multiset.coe_add, Multiset.coe_eq_coe]
          exact (List.perm_cons_erase hmem)
        · rw [howned, Multiset.coe_nil, zero_add]
      · rw [h.others _ r hr, Multiset.coe_nil, zero_add]
        show _ = (((if host.confirmed event then (answered host command s).disown resource name
          else answered host command s).owned r : List String) : Multiset String)
        split
        · rw [owned_disown, if_neg hr, howned]
        · rw [howned]
    · rw [h.plain, ← uncaught_controlled command]
      show uncaught (host.result event >>= fun _ => .ok []) = uncaught (host.result event)
      cases host.result event <;> rfl
  · intro s errors s' hreturn
    rw [Returns, remove_eq rfl] at hreturn
    split at hreturn
    · split at hreturn
      · next hmem =>
        cases hreturn
        refine ⟨rfl, hmem, ?_⟩
        funext r
        rw [owned_disown, owned_disown, howned]
      · cases hreturn
    · cases hreturn
  · intro s e s' hraise
    rw [remove_eq rfl] at hraise
    split at hraise
    · split at hraise
      · cases hraise
      · cases hraise
        exact howned s
    · cases hraise
      exact howned s

/-- A removal after a command whose output is tested. -/
theorem removes_after {command : Command} {resource : Resource} {name : String}
    {p : Tx Stage PyError (List String)} {test : Bytes → Except PyError Unit}
    (hneutral : Neutral host command) (hplain : Plain host command)
    (htest : ∀ raw, FailsOnly (fun e => e.isOsOrValue = true) (test raw))
    (hp : Removes host resource name p) :
    Removes host resource name (do
      let raw ← host.control command
      check (test raw)
      p) := by
  let decision : Except PyError Output → Except PyError Unit :=
    fun answer => controlled host.config command answer >>= test
  have hprogram : (do
      let raw ← host.control command
      check (test raw)
      p) = (deciding host command decision >>= fun _ => p) := by
    -- the command and the test of its output are one decision about the answer
    rw [← bind_check, control_eq, bind_assoc]
  have hstore : ∀ s u s', Returns (deciding host command decision) s u s' →
      s' = answered host command s := by
    intro s u s' hreturn
    rw [Returns, deciding_eq] at hreturn
    exact ((returns_check _ _ _ _).mp hreturn).2.symm
  rw [hprogram]
  -- neither creates a resource, so what is owned is owned until the removal itself
  refine ⟨?_, ?_, ?_⟩
  · intro s hs hmem
    have hfirst := adds_event (deciding_eq command decision s) (balanced_answered hneutral hs) rfl
      ((uncaught_reading htest command _).trans (hplain _).symm)
    apply Confinement.adds_bind hfirst
    intro u s' hreturn hs'
    apply hp.adds s' hs'
    rw [hstore s u s' hreturn, owned_answered]
    exact hmem
  -- a removal that returns struck its resource after the command had left it alone
  · intro s errors s' hreturn
    obtain ⟨u, s₁, hfirst, hrest⟩ := (returns_bind _ _ _ _ _).mp hreturn
    have hs₁ := hstore s u s₁ hfirst
    obtain ⟨herrors, hmem, howned⟩ := hp.returns s₁ errors s' hrest
    rw [hs₁, owned_answered] at hmem
    refine ⟨herrors, hmem, ?_⟩
    rw [howned, hs₁]
    funext r
    rw [owned_disown, owned_disown, owned_answered]
  -- one that raises left it owned, whether the command raised or the removal did
  · intro s e s' hraise
    have hrun : EStateM.bind (deciding host command decision) (fun _ => p) s = .error e s' := hraise
    rw [EStateM.bind, deciding_eq] at hrun
    cases hx : decision (host.bounded s.events command) with
    | ok u =>
      rw [hx] at hrun
      exact (hp.raises _ e s' hrun).trans (owned_answered command s)
    | error e' =>
      rw [hx] at hrun
      cases hrun
      exact owned_answered command s

/-- What a turn of a cleanup loop does: it reports an error, or strikes its resource. -/
structure Cleans (host : DockerHost ν) (resource : Resource)
    (turn : String → Tx Stage PyError (List String)) : Prop where
  adds : ∀ name s, host.Balanced s → name ∈ s.owned resource →
    ∃ new, host.confinement.Adds (turn name) s new
  returns : ∀ name s errors s', Returns (turn name) s errors s' →
    (errors = [] ∧ name ∈ s.owned resource ∧ s'.owned = (s.disown resource name).owned) ∨
      (errors ≠ [] ∧ s'.owned = s.owned)
  uncaught : ∀ name, RaisesUncaught PyError.isOsOrValue (turn name)

/-- A turn that reports what its removal raises. -/
theorem cleans_of_removes {resource : Resource} {p : String → Tx Stage PyError (List String)}
    (hp : ∀ name, Removes host resource name (p name)) (report : String) :
    Cleans host resource fun name =>
      handling PyError.isOsOrValue (p name) fun _ => pure [report] := by
  refine ⟨?_, ?_, ?_⟩
  · intro name s hs hmem
    obtain ⟨new, hnew⟩ := (hp name).adds s hs hmem
    apply Confinement.adds_handling hnew
    intro e s' _ hs'
    exact Confinement.confined_pure _ s' hs'
  · intro name s errors s' hreturn
    rcases returns_handling.mp hreturn with hdone | ⟨e, s₁, hraise, _, hreport⟩
    · exact Or.inl ((hp name).returns s errors s' hdone)
    · obtain ⟨rfl, rfl⟩ := (returns_pure _ _ _ _).mp hreport
      exact Or.inr ⟨List.cons_ne_nil _ _, (hp name).raises s e s₁ hraise⟩
  · intro name
    apply raisesUncaught_handling
    intro e
    exact raisesOnly_pure _

theorem cleans_container : Cleans host .container host.cleanupContainer := by
  apply cleans_of_removes
  intro container
  apply removes_remove
  constructor
  · intro answer r
    cases r <;> rfl
  · intro answer
    rfl
  · intro answer r hr
    cases r with
    | container => exact absurd rfl hr
    | volume => rfl
  · intro answer
    rfl

theorem cleans_volume : Cleans host .volume host.cleanupVolume := by
  apply cleans_of_removes
  intro volume
  apply removes_after
  · intro answer resource
    cases resource <;> exact ⟨rfl, rfl⟩
  · intro answer
    rfl
  · intro attachments
    refine failsOnly_raiseIf ?_
    rfl
  · apply removes_remove
    constructor
    · intro answer r
      cases r <;> rfl
    · intro answer
      rfl
    · intro answer r hr
      cases r with
      | container => rfl
      | volume => exact absurd rfl hr
    · intro answer
      rfl

variable {resource : Resource} {turn : String → Tx Stage PyError (List String)}

/-- The loop over some of the owned resources is confined to the balance. -/
theorem adds_cleaning (h : Cleans host resource turn) {names : List String} {s : Stage}
    (hs : host.Balanced s) (hnames : (names : Multiset String) ≤ ↑(s.owned resource)) :
    ∃ new, host.confinement.Adds (cleaning turn names) s new := by
  induction names generalizing s with
  | nil => exact Confinement.confined_pure _ s hs
  | cons name rest ih =>
    have hmem : name ∈ s.owned resource :=
      Multiset.mem_coe.mp (Multiset.mem_of_le hnames (Multiset.mem_coe.mpr List.mem_cons_self))
    obtain ⟨new, hnew⟩ := h.adds name s hs hmem
    apply Confinement.adds_bind hnew
    intro errors s' hreturn hs'
    -- the rest is still owned, since only this occurrence of the name was struck
    have hrest : (rest : Multiset String) ≤ ↑(s'.owned resource) := by
      rcases h.returns name s errors s' hreturn with ⟨_, _, howned⟩ | ⟨_, howned⟩
      · rw [howned, owned_disown, if_pos rfl, ← Multiset.coe_erase]
        have herase := Multiset.erase_le_erase name hnames
        rwa [Multiset.coe_erase, List.erase_cons_head] at herase
      · rw [howned]
        apply le_trans _ hnames
        exact Multiset.coe_le.mpr (List.sublist_cons_self name rest).subperm
    obtain ⟨more, hmore⟩ := ih hs' hrest
    apply Confinement.adds_bind hmore
    intro _ s₁ _ hs₁
    exact Confinement.confined_pure _ s₁ hs₁

/-- A loop that reports nothing has struck all its names, and never touches the other resources. -/
theorem returns_cleaning (h : Cleans host resource turn) {names errors : List String}
    {s s' : Stage} (hreturn : Returns (cleaning turn names) s errors s') :
    (∀ r, r ≠ resource → s'.owned r = s.owned r) ∧
      (errors = [] → (s.owned resource : Multiset String) = ↑names + ↑(s'.owned resource)) := by
  induction names generalizing s errors with
  | nil =>
    obtain ⟨_, rfl⟩ := (returns_pure _ _ _ _).mp hreturn
    exact ⟨fun _ _ => rfl, fun _ => by rw [Multiset.coe_nil, zero_add]⟩
  | cons name rest ih =>
    obtain ⟨first, s₁, hturn, hrest⟩ := (returns_bind _ _ _ _ _).mp hreturn
    obtain ⟨more, s₂, hmore, hdone⟩ := (returns_bind _ _ _ _ _).mp hrest
    obtain ⟨rfl, rfl⟩ := (returns_pure _ _ _ _).mp hdone
    obtain ⟨hothers, hall⟩ := ih hmore
    -- the first turn struck its name, or it reported an error
    rcases h.returns name s first s₁ hturn with ⟨hfirst, hmem, howned⟩ | ⟨hfirst, howned⟩
    · constructor
      · intro r hr
        rw [hothers r hr, howned, owned_disown, if_neg hr]
      · intro hnone
        have hrestOwned := hall (List.append_eq_nil_iff.mp hnone).2
        rw [howned, owned_disown, if_pos rfl] at hrestOwned
        have hsplit : (s.owned resource : Multiset String) =
            name ::ₘ ↑((s.owned resource).erase name) :=
          Multiset.coe_eq_coe.mpr (List.perm_cons_erase hmem)
        rw [hsplit, hrestOwned, ← Multiset.cons_coe, Multiset.cons_add]
    · constructor
      · intro r hr
        rw [hothers r hr, howned]
      · intro hnone
        exact absurd (List.append_eq_nil_iff.mp hnone).1 hfirst

theorem raisesUncaught_cleaning (h : Cleans host resource turn) (names : List String) :
    RaisesUncaught PyError.isOsOrValue (cleaning turn names) := by
  induction names with
  | nil => exact raisesOnly_pure _
  | cons name rest ih =>
    apply raisesOnly_bind (h.uncaught name)
    intro errors
    apply raisesOnly_bind ih
    intro more
    exact raisesOnly_pure _

/-- Cleanup is confined to the balance. -/
theorem kept_cleanup : host.Kept host.cleanup := by
  intro s hs
  apply Confinement.adds_select_bind
  -- the containers go first, from the last to the first
  have hcontainers : ((s.containers.reverse : List String) : Multiset String) ≤
      ↑(s.owned .container) := by
    rw [Multiset.coe_reverse]
    exact le_refl _
  obtain ⟨loop, hloop⟩ := adds_cleaning cleans_container hs hcontainers
  apply Confinement.adds_bind hloop
  intro errors s₁ _ hs₁
  apply Confinement.adds_select_bind
  -- while containers are left, their volumes stay
  by_cases hleft : s₁.containers ≠ []
  · rw [if_pos hleft]
    exact Confinement.confined_pure _ s₁ hs₁
  · rw [if_neg hleft]
    apply Confinement.adds_select_bind
    have hvolumes : ((s₁.volumes : List String) : Multiset String) ≤ ↑(s₁.owned .volume) :=
      le_refl _
    obtain ⟨more, hmore⟩ := adds_cleaning cleans_volume hs₁ hvolumes
    apply Confinement.adds_bind hmore
    intro _ s₂ _ hs₂
    exact Confinement.confined_pure _ s₂ hs₂

/-- Cleanup raises only what the runner does not catch. -/
theorem raisesUncaught_cleanup : RaisesUncaught PyError.isOsOrValue host.cleanup := by
  unfold cleanup
  refine raisesOnly_bind (raisesOnly_select _) fun containers => ?_
  refine raisesOnly_bind (raisesUncaught_cleaning cleans_container _) fun errors => ?_
  refine raisesOnly_bind (raisesOnly_select _) fun left => ?_
  split
  · exact raisesOnly_pure _
  · refine raisesOnly_bind (raisesOnly_select _) fun volumes => ?_
    refine raisesOnly_bind (raisesUncaught_cleaning cleans_volume _) fun more => ?_
    exact raisesOnly_pure _

/-- Cleanup that reports nothing leaves nothing owned. -/
theorem owned_of_cleanup {s s' : Stage} (h : Returns host.cleanup s [] s') (r : Resource) :
    s'.owned r = [] := by
  obtain ⟨_, _, hselect, h⟩ := (returns_bind _ _ _ _ _).mp h
  obtain ⟨rfl, rfl⟩ := (returns_select _ _ _ _).mp hselect
  obtain ⟨errors, s₁, hloop, h⟩ := (returns_bind _ _ _ _ _).mp h
  obtain ⟨_, _, hselect, h⟩ := (returns_bind _ _ _ _ _).mp h
  obtain ⟨rfl, rfl⟩ := (returns_select _ _ _ _).mp hselect
  obtain ⟨_, hstruck⟩ := returns_cleaning cleans_container hloop
  -- when the loop over the containers reports nothing, all of them are struck
  have hnone : errors = [] → s₁.containers = [] := by
    intro herrors
    have hall := hstruck herrors
    rw [Multiset.coe_reverse] at hall
    have hzero : (s₁.owned .container : Multiset String) = 0 := by
      apply Multiset.card_eq_zero.mp
      have hcard := congrArg Multiset.card hall
      rw [Multiset.card_add] at hcard
      simp only [Multiset.coe_card] at hcard ⊢
      have hsame : (s.owned .container).length = s.containers.length := rfl
      omega
    exact (Multiset.coe_eq_zero _).mp hzero
  split at h
  · next hleft =>
    obtain ⟨herrors, _⟩ := (returns_pure _ _ _ _).mp h
    exact absurd (hnone herrors) hleft
  · next hleft =>
    rw [ne_eq, not_not] at hleft
    obtain ⟨_, _, hselect, h⟩ := (returns_bind _ _ _ _ _).mp h
    obtain ⟨rfl, rfl⟩ := (returns_select _ _ _ _).mp hselect
    obtain ⟨more, s₂, hloop', h⟩ := (returns_bind _ _ _ _ _).mp h
    obtain ⟨hdone, rfl⟩ := (returns_pure _ _ _ _).mp h
    obtain ⟨hothers, hstruck'⟩ := returns_cleaning cleans_volume hloop'
    have hall := hstruck' (List.append_eq_nil_iff.mp hdone).2
    cases r with
    | container =>
      rw [hothers .container (by decide)]
      exact hleft
    | volume =>
      apply (Multiset.coe_eq_zero _).mp
      apply Multiset.card_eq_zero.mp
      have hcard := congrArg Multiset.card hall
      rw [Multiset.card_add] at hcard
      simp only [Multiset.coe_card] at hcard ⊢
      have hsame : (s₁.owned .volume).length = s₁.volumes.length := rfl
      omega

end Removal

end DockerHost

end ContractCapsule.Twin
