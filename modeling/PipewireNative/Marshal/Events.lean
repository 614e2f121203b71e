import PipewireNative.Marshal.Message
import PipewireNative.Pod.Display

/-!
The events of each interface, and what becomes of them.
-/

namespace PipewireNative.Marshal

open Lib Prog Wire
open Pod hiding Fault
open Frame (FrameFds OwnedFd)

/-- The importer of memory: what it answers. -/
structure Importer where
  addMemory : UInt32 → UInt32 → OwnedFd → UInt32 → Except (ErrorKind × String) Unit
  removeMemory : UInt32 → Except (ErrorKind × String) Unit

/-- The surroundings of a client: the bytes that can be reserved at once, the importer, and the log. -/
structure Env where
  heap : ℕ
  importer : Option Importer
  log : Log

/-- A call of the importer; without one nothing happens. -/
def Env.callImporter (env : Env) (notice : Notice)
    (call : Importer → Except (ErrorKind × String) Unit) : Handle Unit :=
  match env.importer with
  | some importer => do
    notify notice
    .ofExcept ((call importer).mapError fun e => .io e.1 e.2)
  | none => pure ()

/-! ### Core -/

namespace Core

inductive Events where
  | info (id cookie : Int32) (userName hostName version name : String) (changeMask : Int64)
      (props : List (String × String))
  | done (id seq : Int32)
  | ping (id seq : Int32)
  | error (id seq res : Int32) (message : String)
  | removeId (id : Int32)
  | boundId (id globalId : Int32)
  | addMem (id : Int32) (type : UInt32) (fd : Fd) (flags : Int32)
  | removeMem (id : Int32)
  | boundProps (id globalId : Int32) (props : List (String × String))

def variants : List (Variant Events) :=
  [⟨[.int, .int, .string, .string, .string, .string, .long, .props],
      fun (id, cookie, userName, hostName, version, name, changeMask, props, _) =>
        .info id cookie userName hostName version name changeMask props⟩,
    ⟨[.int, .int], fun (id, seq, _) => .done id seq⟩,
    ⟨[.int, .int], fun (id, seq, _) => .ping id seq⟩,
    ⟨[.int, .int, .int, .string], fun (id, seq, res, message, _) => .error id seq res message⟩,
    ⟨[.int], fun (id, _) => .removeId id⟩,
    ⟨[.int, .int], fun (id, globalId, _) => .boundId id globalId⟩,
    ⟨[.int, .id .number, .fd, .int], fun (id, type, fd, flags, _) => .addMem id type fd flags⟩,
    ⟨[.int], fun (id, _) => .removeMem id⟩,
    ⟨[.int, .int, .props], fun (id, globalId, props, _) => .boundProps id globalId props⟩]

/-- `add_mem_fd_index`. -/
def addMemFdIndex (value : Int64) : Result UInt32 :=
  match tryU32 value with
  | some index => .ok index
  | none => .error (.io .invalidData ("Core::AddMem has invalid fd index " ++ toString value))

def deliver (env : Env) : Events → Handle Unit
  | .info id cookie userName hostName version name mask props =>
    notify (.coreInfo ⟨id.toUInt32, cookie.toUInt32, userName, hostName, version, name,
      changeMask 0x1 mask, some (.newVec props)⟩)
  | .done id seq => notify (.coreDone id.toUInt32 seq.toUInt32)
  | .ping id seq => notify (.corePing id.toUInt32 seq.toUInt32)
  | .error id seq res message =>
    notify (.coreError id.toUInt32 seq.toUInt32 res.toUInt32 message)
  | .removeId id => notify (.coreRemoveId id.toUInt32)
  | .boundId id globalId => notify (.coreBoundId id.toUInt32 globalId.toUInt32)
  | .addMem id type fd flags => do
    let index ← .ofExcept (addMemFdIndex fd.value)
    let fd ← takeFrameFd index
    env.callImporter (.addMemory id.toUInt32 type fd flags.toUInt32) fun importer =>
      importer.addMemory id.toUInt32 type fd flags.toUInt32
  | .removeMem id =>
    env.callImporter (.removeMemory id.toUInt32) fun importer =>
      importer.removeMemory id.toUInt32
  | .boundProps id globalId props =>
    notify (.coreBoundProps id.toUInt32 globalId.toUInt32 (.newVec props))

end Core

/-! ### Client and registry -/

namespace Client

inductive Events where
  | info (id : Int32) (changeMask : Int64) (props : List (String × String))
  | permissions (index : Int32) (permissions : List (Int32 × Int32))

def variants : List (Variant Events) :=
  [⟨[.int, .long, .props], fun (id, changeMask, props, _) => .info id changeMask props⟩,
    ⟨[.int, .permissions], fun (index, permissions, _) => .permissions index permissions⟩]

def deliver : Events → Handle Unit
  | .info id mask props => notify (.clientInfo ⟨id.toUInt32, changeMask 0x1 mask, .newVec props⟩)
  | .permissions index permissions =>
    notify (.clientPermissions index.toUInt32
      (permissions.map fun p => ⟨p.1.toUInt32, p.2.toUInt32 &&& permissionBits⟩))

end Client

namespace Registry

inductive Events where
  | global (id permissions : Int32) (type : String) (version : Int32)
      (props : List (String × String))
  | globalRemove (id : Int32)

def variants : List (Variant Events) :=
  [⟨[.int, .int, .string, .int, .props],
      fun (id, permissions, type, version, props, _) => .global id permissions type version props⟩,
    ⟨[.int], fun (id, _) => .globalRemove id⟩]

def deliver : Events → Handle Unit
  | .global id permissions type version props =>
    notify (.registryGlobal id.toUInt32 (permissions.toUInt32 &&& permissionBits) type
      version.toUInt32 (.newVec props))
  | .globalRemove id => notify (.registryGlobalRemove id.toUInt32)

end Registry

/-! ### Node, port and device -/

/-- The fields of a `Param` event. -/
def paramFields : List Field := [.int, .id .paramType, .int, .int, .raw]

def param (v : Fields paramFields) : Param :=
  let (seq, id, index, next, param, _) := v
  ⟨Int32.toUInt32 seq, id, Int32.toUInt32 index, Int32.toUInt32 next, param⟩

namespace Node

inductive Events where
  | info (id maxInputPorts maxOutputPorts : Int32) (changeMask : Int64)
      (nInputPorts nOutputPorts : Int32) (state : NodeState) (error : Option String)
      (props : List (String × String)) (paramInfo : List (ParamType × Int32))
  | param (param : Param)

def variants : List (Variant Events) :=
  [⟨[.int, .int, .int, .long, .int, .int, .id .nodeState, .optionString, .props, .paramInfo],
      fun (id, maxInputPorts, maxOutputPorts, changeMask, nInputPorts, nOutputPorts, state, error,
          props, paramInfo, _) =>
        .info id maxInputPorts maxOutputPorts changeMask nInputPorts nOutputPorts state error props
          paramInfo⟩,
    ⟨paramFields, fun v => .param (Marshal.param v)⟩]

def deliver : Events → Handle Unit
  | .info id maxInputPorts maxOutputPorts mask nInputPorts nOutputPorts state error props params =>
    notify (.nodeInfo ⟨id.toUInt32, maxInputPorts.toUInt32, maxOutputPorts.toUInt32,
      changeMask 0x1f mask, nInputPorts.toUInt32, nOutputPorts.toUInt32, state, error,
      .newVec props, paramInfo params⟩)
  | .param param => notify (.nodeParam param)

end Node

namespace Port

inductive Events where
  | info (id direction : Int32) (changeMask : Int64) (props : List (String × String))
      (paramInfo : List (ParamType × Int32))
  | param (param : Param)

def variants : List (Variant Events) :=
  [⟨[.int, .int, .long, .props, .paramInfo],
      fun (id, direction, changeMask, props, paramInfo, _) =>
        .info id direction changeMask props paramInfo⟩,
    ⟨paramFields, fun v => .param (Marshal.param v)⟩]

def deliver : Events → Handle Unit
  | .info id direction mask props params => do
    -- PortDirection::try_from(info.direction as u32).unwrap()
    match PortDirection.tryFrom direction.toUInt32 with
    | some direction =>
      notify (.portInfo ⟨id.toUInt32, direction, changeMask 0x3 mask, .newVec props,
        paramInfo params⟩)
    | none => .fail .panic
  | .param param => notify (.portParam param)

end Port

namespace Device

inductive Events where
  | info (id : Int32) (changeMask : Int64) (props : List (String × String))
      (paramInfo : List (ParamType × Int32))
  | param (param : Param)

def variants : List (Variant Events) :=
  [⟨[.int, .long, .props, .paramInfo],
      fun (id, changeMask, props, paramInfo, _) => .info id changeMask props paramInfo⟩,
    ⟨paramFields, fun v => .param (Marshal.param v)⟩]

def deliver : Events → Handle Unit
  | .info id mask props params =>
    notify (.deviceInfo ⟨id.toUInt32, changeMask 0x3 mask, .newVec props, paramInfo params⟩)
  | .param param => notify (.deviceParam param)

end Device

/-! ### Link, module, factory and metadata -/

namespace Link

inductive Events where
  | info (id outputNodeId outputPortId inputNodeId inputPortId : Int32) (changeMask : Int64)
      (state : Int32) (error : Option String) (format : RawPod) (props : List (String × String))

def variants : List (Variant Events) :=
  [⟨[.int, .int, .int, .int, .int, .long, .int, .optionString, .raw, .props],
      fun (id, outputNodeId, outputPortId, inputNodeId, inputPortId, changeMask, state, error,
          format, props, _) =>
        .info id outputNodeId outputPortId inputNodeId inputPortId changeMask state error format
          props⟩]

def formatOf (format : RawPod) : Option RawPod :=
  match (PodTy.prim (E := enums) .unit).decode format.data with
  | .ok _ => some format
  | .error _ => none

def deliver : Events → Handle Unit
  | .info id outputNodeId outputPortId inputNodeId inputPortId mask state error format props => do
    -- LinkState::try_from(info.state as u32).unwrap()
    match LinkState.tryFrom state.toUInt32 with
    | some state =>
      notify (.linkInfo ⟨id.toUInt32, outputNodeId.toUInt32, outputPortId.toUInt32,
        inputNodeId.toUInt32, inputPortId.toUInt32, changeMask 0x1 mask, state, error,
        formatOf format, .newVec props⟩)
    | none => .fail .panic

end Link

namespace Module

inductive Events where
  | info (id : Int32) (name fileName : String) (args : Option String) (changeMask : Int64)
      (props : List (String × String))

def variants : List (Variant Events) :=
  [⟨[.int, .string, .string, .optionString, .long, .props],
      fun (id, name, fileName, args, changeMask, props, _) =>
        .info id name fileName args changeMask props⟩]

def deliver : Events → Handle Unit
  | .info id name fileName args mask props =>
    notify (.moduleInfo ⟨id.toUInt32, name, fileName, args, changeMask 0x1 mask, .newVec props⟩)

end Module

namespace Factory

inductive Events where
  | info (id : Int32) (name type : String) (version : Int32) (changeMask : Int64)
      (props : List (String × String))

def variants : List (Variant Events) :=
  [⟨[.int, .string, .string, .int, .long, .props],
      fun (id, name, type, version, changeMask, props, _) =>
        .info id name type version changeMask props⟩]

def deliver : Events → Handle Unit
  | .info id name type version mask props =>
    notify (.factoryInfo ⟨id.toUInt32, name, type, version.toUInt32, changeMask 0x1 mask,
      .newVec props⟩)

end Factory

namespace Metadata

inductive Events where
  | property (subject : Int32) (key type value : Option String)

def variants : List (Variant Events) :=
  [⟨[.int, .optionString, .optionString, .optionString],
      fun (subject, key, type, value, _) => .property subject key type value⟩]

def deliver : Events → Handle Unit
  | .property subject key type value =>
    notify (.metadataProperty subject.toUInt32 key type value)

end Metadata

/-! ### Profiler -/

namespace Profiler

inductive Events where
  | profile (pod : RawPod)

def variants : List (Variant Events) := [⟨[.raw], fun (pod, _) => .profile pod⟩]

def infoFields : List Field := [.long, .float, .float, .float, .int]

def sampleInfo (v : Fields infoFields) : SampleInfo :=
  let (counter, fast, medium, slow, xrunCount, _) := v
  ⟨counter, fast, medium, slow, Int32.toUInt32 xrunCount⟩

def clockFields : List Field :=
  [.int, .int, .string, .long, .fraction, .long, .long, .long, .double, .long, .int, .int, .long]

def driverClockSample (v : Fields clockFields) : DriverClockSample :=
  let (flags, id, name, nsec, rate, position, duration, delay, rateDiff, nextNsec, transportState,
    cycle, xrunDuration, _) := v
  ⟨⟨Int32.toUInt32 id, name, Int64.toUInt64 nsec, rate, Int64.toUInt64 position,
      Int64.toUInt64 duration, delay, rateDiff, Int64.toUInt64 nextNsec,
      Int64.toUInt64 xrunDuration⟩,
    Int32.toUInt32 flags, Int32.toUInt32 transportState, Int32.toUInt32 cycle⟩

def followerClockFields : List Field :=
  [.int, .string, .long, .fraction, .long, .long, .long, .double, .long, .long]

def clockSample (v : Fields followerClockFields) : ClockSample :=
  let (id, name, nsec, rate, position, duration, delay, rateDiff, nextNsec, xrunDuration, _) := v
  ⟨Int32.toUInt32 id, name, Int64.toUInt64 nsec, rate, Int64.toUInt64 position,
    Int64.toUInt64 duration, delay, rateDiff, Int64.toUInt64 nextNsec,
    Int64.toUInt64 xrunDuration⟩

def driverFields : List Field :=
  [.int, .string, .long, .long, .long, .long, .int, .fraction, .int]

def nodeSample (v : Fields driverFields) : NodeSample :=
  let (id, name, prevSignal, signal, awake, finish, status, latency, xrunCount, _) := v
  ⟨Int32.toUInt32 id, name, Int64.toUInt64 prevSignal, Int64.toUInt64 signal,
    Int64.toUInt64 awake, Int64.toUInt64 finish, Int32.toUInt32 status, latency,
    Int32.toUInt32 xrunCount⟩

def followerFields : List Field :=
  [.int, .string, .long, .long, .long, .long, .int, .fraction, .int, .bool]

def followerNodeSample (v : Fields followerFields) : FollowerNodeSample :=
  let (id, name, prevSignal, signal, awake, finish, status, latency, xrunCount, async, _) := v
  ⟨⟨Int32.toUInt32 id, name, Int64.toUInt64 prevSignal, Int64.toUInt64 signal,
      Int64.toUInt64 awake, Int64.toUInt64 finish, Int32.toUInt32 status, latency,
      Int32.toUInt32 xrunCount⟩, async⟩

structure Sections where
  info : Option SampleInfo
  clock : Option DriverClockSample
  driver : Option NodeSample
  followers : List FollowerNodeSample
  followerClocks : List ClockSample

section Log

-- whether a line about a section can be written to the log: `trace!` panics where it cannot
variable (shows : String × RawPod → Bool)

/-- A section, behind those that were read. -/
def readSection (s : Sections) (key : ProfilerKey) (data : RawPod) : Read Sections :=
  match key with
  | .start | .startDriver | .startFollower | .startCustom => pure s
  | .info => do
    let r ← decodeStruct unlimited infoFields data.data
    rejectIf (¬ shows ("Info", data)) .panic
    pure { s with info := some (sampleInfo r.1) }
  | .clock => do
    let r ← decodeStruct unlimited clockFields data.data
    rejectIf (¬ shows ("Clock", data)) .panic
    pure { s with clock := some (driverClockSample r.1) }
  | .driverBlock => do
    let r ← decodeStruct unlimited driverFields data.data
    rejectIf (¬ shows ("DriverBlock", data)) .panic
    pure { s with driver := some (nodeSample r.1) }
  | .followerBlock => do
    let r ← decodeStruct unlimited followerFields data.data
    rejectIf (¬ shows ("FollowerBlock", data)) .panic
    pure { s with followers := s.followers ++ [followerNodeSample r.1] }
  | .followerClock => do
    let r ← decodeStruct unlimited followerClockFields data.data
    rejectIf (¬ shows ("FollowerClock", data)) .panic
    pure { s with followerClocks := s.followerClocks ++ [clockSample r.1] }

def sampleOf (s : Sections) : Read ProfilerSample :=
  match s.info, s.clock, s.driver with
  | none, _, _ => .error (.invalid "Info section not found")
  | some _, none, _ => .error (.invalid "Clock section not found")
  | some _, some _, none => .error (.invalid "Driver section not found")
  | some info, some clock, some driver =>
    pure ⟨info, driver, clock, s.followers, s.followerClocks⟩

def popSample : Pop Inbox Unit := do
  let sections ← Parser.whileProperty (E := enums) .profiler (readSection shows)
    ⟨none, none, none, [], []⟩
  let sample ← .ofExcept (sampleOf sections)
  .modify fun s => (s.1, { s.2 with notices := s.2.notices ++ [.profile sample] })

def popObject : Pop Inbox Unit := do
  let _ ← Parser.popObject (E := enums) .profiler .number fun _ => popSample shows
  pure ()

def profileError : Pod.Fault → Fault
  | .error e => .io .invalidData
      ("Could not parse Profiler profile event as struct of SPA Objects: " ++ debugError e)
  | .panic => .panic

/-- `demarshal_profile_event`. -/
def deliver : Events → Handle Unit
  | .profile pod => do
    let _ ← ((Parser.popStruct (Parser.whileAvailable (popObject shows))).zoom
      (fun inbox => (.new pod.data, inbox)) (fun s _ => s.2)).mapErr profileError
    pure ()

end Log

end Profiler

/-! ### All of them -/

/-- The `demarshal` of an interface. -/
def demarshal (env : Env) (family : Family) (opcode : UInt8) (payload : List UInt8) :
    Handle Unit :=
  let room := reserves env.heap
  match family with
  | .core => decode room Core.variants opcode payload >>= Core.deliver env
  | .client => decode room Client.variants opcode payload >>= Client.deliver
  | .clientNode => decodeClientNodeEvent opcode payload >>= fun event => notify (.clientNode event)
  | .device => decode room Device.variants opcode payload >>= Device.deliver
  | .factory => decode room Factory.variants opcode payload >>= Factory.deliver
  | .link => decode room Link.variants opcode payload >>= Link.deliver
  | .metadata => decode room Metadata.variants opcode payload >>= Metadata.deliver
  | .module => decode room Module.variants opcode payload >>= Module.deliver
  | .node => decode room Node.variants opcode payload >>= Node.deliver
  | .port => decode room Port.variants opcode payload >>= Port.deliver
  | .profiler => decode room Profiler.variants opcode payload >>= Profiler.deliver env.log.shows
  | .registry => decode room Registry.variants opcode payload >>= Registry.deliver

end PipewireNative.Marshal
