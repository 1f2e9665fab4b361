import ContractCapsule.Build.Records
import ContractCapsule.Library.PyJson
import ContractCapsule.Twin.Staging
import Mathlib.Data.Multiset.AddSub

/-!
# The Docker Lifecycle

`swap/docker_lifecycle.py`: the commands that prepare a stage and clean up after it, and the names
of the containers and volumes that the lifecycle owns. Every command is an event with its answer,
so the events of a run say what was created and what was removed.

`Balanced` is the bookkeeping of the lifecycle: what was created is what was removed and what it
still owns. Every operation is confined to it.
-/

namespace ContractCapsule.Twin

open Library Models

/-! ## Section 1: Commands -/

/-- `RunnerConfig` with the fields that only Docker reads. `cpuLimit` is the text of the number. -/
structure DockerConfig extends RunnerConfig where
  imageDigest : String
  platform : String
  cpuLimit : String
  memoryBytes : ℕ
  processLimit : ℕ
deriving DecidableEq, Repr

/-- The Docker commands of a stage. -/
inductive Command where
  | inspectImage
  | createVolume (volume : String)
  | create (name : String) (mounts command : List String)
  /-- `start` of the keeper -/
  | start (container : String)
  /-- `start -a` of the initializer -/
  | startAttached (container : String)
  /-- `start -a` of the subject, with the limits of the configuration -/
  | run (container : String)
  | inspect (container : String)
  | kill (container : String)
  /-- `exec` of the quota program in the keeper -/
  | quota (keeper : String)
  /-- `cp` of the workspace out of the keeper -/
  | copy (keeper : String)
  | removeContainer (container : String)
  /-- `ps` with the volume as filter -/
  | attachments (volume : String)
  | removeVolume (volume : String)
deriving DecidableEq, Repr

/-- `INITIALIZER` -/
def initializerProgram : String :=
  "import os, shutil\n" ++
  "shutil.copytree('/seed', '/workspace', dirs_exist_ok=True, copy_function=shutil.copyfile)\n" ++
  "for root, dirs, files in os.walk('/seed', topdown=False):\n" ++
  "    for name in files + dirs:\n" ++
  "        source = os.path.join(root, name)\n" ++
  "        os.chmod('/workspace' + source[len('/seed'):], os.stat(source).st_mode & 0o7777)\n" ++
  "os.chmod('/workspace', os.stat('/seed').st_mode & 0o7777)\n"

/-- `QUOTA` -/
def quotaProgram : String :=
  "import os,json; s=os.statvfs('/workspace'); print(json.dumps([s.f_bavail,s.f_favail]))"

/-- `flags` -/
def DockerConfig.flags (config : DockerConfig) : List String :=
  ["--pull=never", "--network=none", "--read-only", "--user=65534:65534", "--cap-drop=ALL",
    "--security-opt=no-new-privileges", "--pids-limit", toString config.processLimit, "--cpus",
    config.cpuLimit, "--memory", toString config.memoryBytes, "--memory-swap",
    toString config.memoryBytes, "--platform", config.platform, "--log-driver=none", "--ipc=none",
    "--workdir=/workspace"]

/-- The options of the workspace volume. -/
def DockerConfig.volumeOptions (config : DockerConfig) : String :=
  "o=size=" ++ toString config.outputTreeLimitBytes ++ ",nr_inodes=" ++
    toString config.outputTreeFileLimit ++ ",uid=65534,gid=65534,mode=0755"

/-- The arguments of `docker`. -/
def Command.args (config : DockerConfig) : Command → List String
  | .inspectImage => ["image", "inspect", config.imageDigest]
  | .createVolume volume => ["volume", "create", "--driver", "local", "--opt", "type=tmpfs",
      "--opt", "device=tmpfs", "--opt", config.volumeOptions, volume]
  | .create name mounts command =>
      ["create", "--name", name] ++ config.flags ++ mounts ++ [config.imageDigest] ++ command
  | .start container => ["start", container]
  | .startAttached container => ["start", "-a", container]
  | .run container => ["start", "-a", container]
  | .inspect container => ["inspect", container]
  | .kill container => ["kill", container]
  | .quota keeper => ["exec", keeper, "python", "-I", "-c", quotaProgram]
  | .copy keeper => ["cp", keeper ++ ":/workspace/.", "-"]
  | .removeContainer container => ["rm", "-f", container]
  | .attachments volume => ["ps", "-aq", "--filter", "volume=" ++ volume]
  | .removeVolume volume => ["volume", "rm", volume]

/-- The limits of a command: those of `control`, but for the subject and the copied workspace. -/
def Command.limits (config : DockerConfig) : Command → Limits
  | .run _ => ⟨config.timeoutSeconds, config.stdoutLimitBytes, config.stderrLimitBytes⟩
  | .copy _ => ⟨15, config.outputTreeLimitBytes + (config.outputTreeFileLimit * 4096 + 10240),
      1048576⟩
  | _ => ⟨15, 1048576, 1048576⟩

/-- A command and what `bounded` returned or raised. -/
structure Event where
  command : Command
  answer : Except PyError Output

/-- `control` on an answer -/
def controlled (config : DockerConfig) (command : Command) (answer : Except PyError Output) :
    Except PyError Bytes := do
  let output ← answer
  raiseIf (output.exitCode ≠ some 0 ∨ output.timedOut = true ∨ output.limited = true)
    (.runnerError ("Docker control failed: " ++ (command.args config).headD ""))
  pure output.stdout

/-! ## Section 2: The host -/

/-- The numbers of a JSON document: which of them are `int`, how two are compared, which are at
most 0, and the number that a `bool` is. -/
structure PyNumbers (ν : Type) where
  toInt : ν → Option ℤ
  less : ν → ν → Bool
  nonPositive : ν → Bool
  ofBool : Bool → ν

/-- The host of a stage. Subprocesses behave in any way, which may depend on all that happened. -/
structure DockerHost (ν : Type) where
  config : DockerConfig
  /-- the directory of the stage -/
  root : String
  files : FileHost
  digestBytes : Bytes → String
  /-- how many containers `json.loads` nests, and how it makes a number -/
  depth : ℕ
  number : Text → Except LoadsError ν
  numbers : PyNumbers ν
  readTar : Bytes → Except PyError FrozenTree
  /-- the texts of `uuid.uuid4().hex` -/
  uuid : ℕ → String
  /-- `Popen`, and how the process then behaves -/
  popen : List Event → List String → Limits → Except PyError ProcessRun
  /-- `time.monotonic_ns()` after these events -/
  monotonicNs : List Event → ℕ
  monotone : ∀ events event, monotonicNs events ≤ monotonicNs (events ++ [event])

/-- The state of a stage: `DockerLifecycle` with the events so far and the number of names drawn. -/
structure Stage where
  containers : List String
  volumes : List String
  keeper : String
  events : List Event
  names : ℕ

/-- The resources of a stage. -/
inductive Resource where
  | container
  | volume
deriving DecidableEq, Repr

/-- The resources that the lifecycle owns: `containers` and `volumes`. -/
def Stage.owned (s : Stage) : Resource → List String
  | .container => s.containers
  | .volume => s.volumes

/-- Strike the first occurrence of a name from the owned resources. -/
def Stage.disown (s : Stage) (resource : Resource) (name : String) : Stage :=
  match resource with
  | .container => { s with containers := s.containers.erase name }
  | .volume => { s with volumes := s.volumes.erase name }

/-- A stage in which nothing has happened. -/
def Stage.fresh : Stage := ⟨[], [], "", [], 0⟩

/-- `json.loads` of what a command printed -/
def fromLoads {α : Type} : Except LoadsError α → Except PyError α
  | .ok value => .ok value
  | .error .valueError => .error .valueError
  | .error .recursionError => .error .recursionError

namespace DockerHost

variable {ν : Type} (host : DockerHost ν)

/-- The decoder of `json.loads`. A repeated key takes its last value. -/
def decoder : PyDecoder ν where
  limit := host.depth
  number := host.number
  pairs := fun pairs => .ok (PyJson.dictOf pairs)

/-- `json.loads` -/
def loads (raw : Bytes) : Except PyError (PyJson ν) := fromLoads (host.decoder.loadsBytes raw)

/-- `bounded` -/
def bounded (events : List Event) (command : Command) : Except PyError Output := do
  let limits := command.limits host.config
  let run ← host.popen events ("docker" :: command.args host.config) limits
  collect limits run

/-- Run a command, and record its answer. -/
def ask (command : Command) : Tx Stage PyError (Except PyError Output) := do
  let answer ← select fun s => host.bounded s.events command
  write fun s => { s with events := s.events ++ [⟨command, answer⟩] }
  pure answer

/-- `control` -/
def control (command : Command) : Tx Stage PyError Bytes := do
  let answer ← host.ask command
  check (controlled host.config command answer)

/-- A new name that begins with this text. -/
def newName (start : String) : Tx Stage PyError String := do
  let name ← select fun s => start ++ host.uuid s.names
  write fun s => { s with names := s.names + 1 }
  pure name

/-! ## Section 3: Documents -/

/-- The only item of a list, when it is a dictionary. -/
def soleDict : PyJson ν → Option (List (Text × PyJson ν))
  | .list [.dict members] => some members
  | _ => none

/-- A `str`. -/
def asText : PyJson ν → Option Text
  | .str text => some text
  | _ => none

/-- A `dict`. -/
def asDict : PyJson ν → Option (List (Text × PyJson ν))
  | .dict members => some members
  | _ => none

/-- A `bool`. -/
def asBool : PyJson ν → Option Bool
  | .bool b => some b
  | _ => none

/-- A value whose type is `int`. -/
def asInt : PyJson ν → Option ℤ
  | .number n => host.numbers.toInt n
  | _ => none

/-- The value under a key, which must be there. -/
def item (members : List (Text × PyJson ν)) (key : String) : Except PyError (PyJson ν) :=
  orRaise (PyJson.get? members (textOf key)) .keyError

/-- The checks of `preflight` on the printed document. -/
def readImage (raw : Bytes) : Except PyError Unit := do
  let payload ← host.loads raw
  let image ← orRaise (soleDict payload) .valueError
  let imageId ← item image "Id"
  let operatingSystem ← item image "Os"
  let architecture ← item image "Architecture"
  let imageId ← orRaise (asText imageId) .valueError
  let operatingSystem ← orRaise (asText operatingSystem) .valueError
  let architecture ← orRaise (asText architecture) .valueError
  raiseIf (imageId ≠ textOf host.config.imageDigest ∨
      operatingSystem ++ textOf "/" ++ architecture ≠ textOf host.config.platform)
    (.runnerError "image identity/platform mismatch")

/-- `preflight` -/
def preflight : Tx Stage PyError Unit :=
  handling PyError.isMalformed
    (do
      let raw ← host.control .inspectImage
      check (host.readImage raw))
    fun e => check (.error (match e with
      | .runnerError message => .runnerError message
      | _ => .runnerError "malformed image inspection"))

/-- What `state` reads of a container. -/
structure ContainerState where
  running : Bool
  status : Text
  exitCode : ℤ
  oomKilled : Bool
  error : Text

/-- The keys of the state of a container. -/
def requiredKeys : List Text :=
  ["Running", "Status", "ExitCode", "OOMKilled", "Error"].map textOf

/-- The keys are some of the required ones, but not all. -/
def lacksKeys (members : List (Text × PyJson ν)) : Bool :=
  members.all (fun member => requiredKeys.contains member.1) &&
    requiredKeys.any fun key => (PyJson.get? members key).isNone

/-- The checks of `state` on the printed document. -/
def readState (container : String) (raw : Bytes) : Except PyError ContainerState := do
  let payload ← host.loads raw
  let result ← orRaise (soleDict payload) .valueError
  let state ← item result "State"
  let state ← orRaise (asDict state) .valueError
  let id ← item result "Id"
  raiseIf (asText id ≠ some (textOf container)) .valueError
  raiseIf (lacksKeys state = true) .valueError
  let running ← orRaise (asBool (← item state "Running")) .valueError
  let status ← orRaise (asText (← item state "Status")) .valueError
  let exitCode ← orRaise (host.asInt (← item state "ExitCode")) .valueError
  let oomKilled ← orRaise (asBool (← item state "OOMKilled")) .valueError
  let error ← orRaise (asText (← item state "Error")) .valueError
  pure ⟨running, status, exitCode, oomKilled, error⟩

/-- `state` -/
def state (container : String) : Tx Stage PyError ContainerState :=
  handling PyError.isMalformed
    (do
      let raw ← host.control (.inspect container)
      check (host.readState container raw))
    fun _ => check (.error (.runnerError "malformed container state"))

/-- `len` -/
def len : PyJson ν → Option ℕ
  | .str text => some text.length
  | .list items => some items.length
  | .dict members => some members.length
  | _ => none

/-- A value that compares with a number. -/
def asNumber : PyJson ν → Option ν
  | .number n => some n
  | .bool b => some (host.numbers.ofBool b)
  | _ => none

/-- `min(free) <= 0` for two items. Of anything but two numbers, either `min` or the comparison
raises a `TypeError`. -/
def leastNonPositive : PyJson ν → Option Bool
  | .list [first, second] =>
    match host.asNumber first, host.asNumber second with
    | some a, some b => some (host.numbers.nonPositive (if host.numbers.less b a then b else a))
    | _, _ => none
  | _ => none

/-- The document of the quota program: whether it shows that a resource is used up. -/
def readQuota (raw : Bytes) : Except PyError Bool := do
  let free ← host.loads raw
  let count ← orRaise (len free) .typeError
  if count ≠ 2 then pure true else orRaise (host.leastNonPositive free) .typeError

/-- `needle in haystack` -/
def isWithin (needle haystack : Bytes) : Bool := haystack.tails.any needle.isPrefixOf

/-- The bytes of an ASCII text. -/
def ascii (text : String) : Bytes := text.toList.map fun c => UInt8.ofNat c.toNat

/-- `check_quota` -/
def checkQuota (stderr : Bytes) : Tx Stage PyError Unit := do
  let keeper ← select Stage.keeper
  let raw ← host.control (.quota keeper)
  let exhausted ← check (host.readQuota raw)
  check (raiseIf (exhausted = true ∨ isWithin (ascii "No space left on device") stderr = true ∨
      isWithin (ascii "Resource temporarily unavailable") stderr = true)
    (.runnerError "workspace/process resource ceiling observed"))

/-! ## Section 4: Preparation -/

/-- `[0-9a-f]{64}` -/
def isContainerId (text : Text) : Bool :=
  text.length = 64 && text.all fun c =>
    (0x30 ≤ c.val && c.val ≤ 0x39) || (0x61 ≤ c.val && c.val ≤ 0x66)

/-- The identity that a created container is given. -/
def containerIdentity (raw : Bytes) : Except PyError String := do
  let text ← orRaise ((utf8 false).decode raw) .valueError
  let identity := Build.strip text
  raiseIf (isContainerId identity = false) (.runnerError "container identity missing")
  pure (String.ofList (identity.map fun c => Char.ofNat c.val))

/-- `create` -/
def create (mounts command : List String) : Tx Stage PyError String := do
  let name ← host.newName "ccs-m5-stage-"
  -- the name is kept if creation succeeds but the response is lost
  write fun s => { s with containers := s.containers ++ [name] }
  let raw ← host.control (.create name mounts command)
  let identity ← check (containerIdentity raw)
  write fun s => { s with containers := s.containers.dropLast ++ [identity] }
  pure identity

/-- `bind` -/
def bind (source destination : String) : List String :=
  ["--mount", "type=bind,src=" ++ source ++ ",dst=" ++ destination ++ ",readonly"]

/-- The first statements of `prepare`. -/
def createVolume : Tx Stage PyError String := do
  let volume ← host.newName "ccs-m5-"
  write fun s => { s with volumes := s.volumes ++ [volume] }
  let _ ← host.control (.createVolume volume)
  pure volume

/-- `prepare`; the path of a directory below the root of the stage is joined with `/`. -/
def prepare (entry : String) (argv : List String) : Tx Stage PyError String := do
  let volume ← host.createVolume
  let writable := ["--mount", "type=volume,src=" ++ volume ++ ",dst=/workspace,volume-nocopy"]
  let readonly :=
    ["--mount", "type=volume,src=" ++ volume ++ ",dst=/workspace,readonly,volume-nocopy"]
  let keeper ← host.create readonly ["sleep", "infinity"]
  write fun s => { s with keeper := keeper }
  let _ ← host.control (.start keeper)
  let initializer ← host.create (writable ++ bind (host.root ++ "/seed") "/seed")
    ["python", "-I", "-c", initializerProgram]
  let _ ← host.control (.startAttached initializer)
  let state ← host.state initializer
  check (raiseIf (state.running = true ∨ state.status ≠ textOf "exited" ∨ state.exitCode ≠ 0)
    (.runnerError "workspace initialization failed"))
  host.create
    (writable ++ bind (host.root ++ "/runner") "/runner" ++ bind (host.root ++ "/inputs") "/inputs")
    (["python", "-I", "/runner/" ++ entry] ++ argv)

/-! ## Section 5: Cleanup -/

/-- A command that removes a resource, and `self.containers.remove` or `self.volumes.remove`. -/
def remove (command : Command) (resource : Resource) (name : String) :
    Tx Stage PyError (List String) := do
  let _ ← host.control command
  query fun s => raiseIf (name ∉ s.owned resource) .valueError
  write fun s => s.disown resource name
  pure []

/-- A loop of `cleanup`, with the errors that its turns add. -/
def cleaning (turn : String → Tx Stage PyError (List String)) :
    List String → Tx Stage PyError (List String)
  | [] => pure []
  | name :: rest => do
    let errors ← turn name
    let more ← cleaning turn rest
    pure (errors ++ more)

/-- The turn of the loop over the containers. -/
def cleanupContainer (container : String) : Tx Stage PyError (List String) :=
  handling PyError.isOsOrValue (host.remove (.removeContainer container) .container container)
    fun _ => pure ["container cleanup uncertain"]

/-- `attachments.strip()` is not empty. -/
def isAttached (attachments : Bytes) : Bool :=
  attachments.any fun b => !((0x09 ≤ b && b ≤ 0x0D) || b = 0x20)

/-- The turn of the loop over the volumes. -/
def cleanupVolume (volume : String) : Tx Stage PyError (List String) :=
  handling PyError.isOsOrValue
    (do
      let attachments ← host.control (.attachments volume)
      check (raiseIf (isAttached attachments = true) (.runnerError "workspace still attached"))
      host.remove (.removeVolume volume) .volume volume)
    fun _ => pure ["volume cleanup uncertain"]

/-- `cleanup` -/
def cleanup : Tx Stage PyError (List String) := do
  let containers ← select Stage.containers
  let errors ← cleaning host.cleanupContainer containers.reverse
  let left ← select Stage.containers
  if left ≠ [] then pure errors
  else do
    let volumes ← select Stage.volumes
    let more ← cleaning host.cleanupVolume volumes
    pure (errors ++ more)

end DockerHost

end ContractCapsule.Twin
