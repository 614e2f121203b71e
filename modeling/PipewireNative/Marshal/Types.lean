import PipewireNative.Wire.Event

/-!
What the server tells a client: the kinds of objects, the numbers that name states and parameters,
and what the listeners of an object are given.
-/

namespace PipewireNative.Marshal

open Pod
open Frame (FrameFds OwnedFd)

/-! ### Objects -/

/-- The interfaces whose messages a client dispatches. -/
inductive Family where
  | core | client | clientNode | device | factory | link | metadata | module | node | port
  | profiler | registry
  deriving DecidableEq, Repr

/-! ### Enumerations -/

inductive ParamType where
  | invalid | propInfo | props | enumFormat | format | buffers | metaType | io | enumProfile | profile
  | enumPortConfig | portConfig | enumRoute | route | control | latency | processLatency | tag
  deriving DecidableEq, Repr

namespace ParamType

def all : List ParamType :=
  [invalid, propInfo, props, enumFormat, format, buffers, metaType, io, enumProfile, profile,
    enumPortConfig, portConfig, enumRoute, route, control, latency, processLatency, tag]

def into (t : ParamType) : UInt32 := .ofNat t.ctorIdx

def tryFrom (n : UInt32) : Option ParamType := all[n.toNat]?

end ParamType

inductive NodeState where
  | error | creating | suspended | idle | running
  deriving DecidableEq, Repr

namespace NodeState

def all : List NodeState := [error, creating, suspended, idle, running]

def into (t : NodeState) : UInt32 := .ofNat t.ctorIdx

def tryFrom (n : UInt32) : Option NodeState := all[n.toNat]?

end NodeState

inductive LinkState where
  | error | unlinked | init | negotiation | allocating | paused | active
  deriving DecidableEq, Repr

/-- `TryFrom<u32>`. -/
def LinkState.tryFrom (n : UInt32) : Option LinkState :=
  [error, unlinked, init, negotiation, allocating, paused, active][n.toNat]?

inductive PortDirection where
  | input | output
  deriving DecidableEq, Repr

/-- `TryFrom<u32>`. -/
def PortDirection.tryFrom (n : UInt32) : Option PortDirection := [input, output][n.toNat]?

inductive ProfilerKey where
  | start | startDriver | info | clock | driverBlock | startFollower | followerBlock
  | followerClock | startCustom
  deriving DecidableEq, Repr

namespace ProfilerKey

def into : ProfilerKey → UInt32
  | start => 0
  | startDriver => 0x10000
  | info => 0x10001
  | clock => 0x10002
  | driverBlock => 0x10003
  | startFollower => 0x20000
  | followerBlock => 0x20001
  | followerClock => 0x20002
  | startCustom => 0x1000000

def all : List ProfilerKey :=
  [start, startDriver, info, clock, driverBlock, startFollower, followerBlock, followerClock,
    startCustom]

def tryFrom (n : UInt32) : Option ProfilerKey := all.find? fun key => key.into = n

end ProfilerKey

inductive EnumName where
  | number | paramType | nodeState | profiler
  deriving DecidableEq, Repr

/-- Them, as the pod codec takes them. -/
def enums : Enums where
  Name := EnumName
  T
    | .number => UInt32
    | .paramType => ParamType
    | .nodeState => NodeState
    | .profiler => ProfilerKey
  into {n} := match n with
    | .number => fun x => x
    | .paramType => ParamType.into
    | .nodeState => NodeState.into
    | .profiler => ProfilerKey.into
  tryFrom {n} := match n with
    | .number => some
    | .paramType => ParamType.tryFrom
    | .nodeState => NodeState.tryFrom
    | .profiler => ProfilerKey.tryFrom

/-! ### What listeners are given -/

/-- `Properties`, by what is found under each key. -/
def Properties := String → Option String

/-- Of several values of a key the last one stays. -/
def Properties.newVec (pairs : List (String × String)) : Properties := fun key =>
  pairs.reverse.lookup key

/-- `from_bits_truncate` of a change mask, `change_mask as u32`. -/
def changeMask (all : UInt32) (mask : Int64) : UInt32 := mask.toUInt64.toUInt32 &&& all

/-- `PermissionBits::all()`. -/
def permissionBits : UInt32 := 0x1d8

structure Permission where
  id : UInt32
  permissions : UInt32

/-- `ParamInfoFlags`, all whose bits have names. -/
structure ParamInfoFlags where
  bits : UInt32
  known : bits &&& 0x7 = bits

def ParamInfoFlags.fromBits (bits : UInt32) : Option ParamInfoFlags :=
  if h : bits &&& 0x7 = bits then some ⟨bits, h⟩ else none

/-- The entries whose flags are valid; the others are left out with a warning. -/
def paramInfo (entries : List (ParamType × Int32)) : List (ParamType × ParamInfoFlags) :=
  entries.filterMap fun entry => (ParamInfoFlags.fromBits entry.2.toUInt32).map (entry.1, ·)

structure CoreInfo where
  id : UInt32
  cookie : UInt32
  userName : String
  hostName : String
  version : String
  name : String
  mask : UInt32
  props : Option Properties

structure ClientInfo where
  id : UInt32
  mask : UInt32
  props : Properties

structure NodeInfo where
  id : UInt32
  maxInputPorts : UInt32
  maxOutputPorts : UInt32
  mask : UInt32
  nInputPorts : UInt32
  nOutputPorts : UInt32
  state : NodeState
  error : Option String
  props : Properties
  params : List (ParamType × ParamInfoFlags)

structure PortInfo where
  id : UInt32
  direction : PortDirection
  mask : UInt32
  props : Properties
  params : List (ParamType × ParamInfoFlags)

structure DeviceInfo where
  id : UInt32
  mask : UInt32
  props : Properties
  params : List (ParamType × ParamInfoFlags)

structure LinkInfo where
  id : UInt32
  outputNodeId : UInt32
  outputPortId : UInt32
  inputNodeId : UInt32
  inputPortId : UInt32
  mask : UInt32
  state : LinkState
  error : Option String
  format : Option RawPod
  props : Properties

structure ModuleInfo where
  id : UInt32
  name : String
  fileName : String
  args : Option String
  mask : UInt32
  props : Properties

structure FactoryInfo where
  id : UInt32
  name : String
  type : String
  version : UInt32
  mask : UInt32
  props : Properties

/-- The result of an `enum_params` or a change of a parameter. -/
structure Param where
  seq : UInt32
  id : ParamType
  index : UInt32
  next : UInt32
  param : RawPod

structure SampleInfo where
  counter : Int64
  cpuLoadFast : Float32Bits
  cpuLoadMedium : Float32Bits
  cpuLoadSlow : Float32Bits
  xrunCount : UInt32

structure ClockSample where
  id : UInt32
  name : String
  nsec : UInt64
  rate : Fraction
  position : UInt64
  duration : UInt64
  delay : Int64
  rateDiff : Float64Bits
  nextNsec : UInt64
  xrunDuration : UInt64

structure DriverClockSample where
  clockSample : ClockSample
  flags : UInt32
  state : UInt32
  cycle : UInt32

structure NodeSample where
  id : UInt32
  name : String
  prevSignalTimeNs : UInt64
  signalTimeNs : UInt64
  awakeTimeNs : UInt64
  finishTimeNs : UInt64
  status : UInt32
  latency : Fraction
  xrunCount : UInt32

structure FollowerNodeSample where
  nodeSample : NodeSample
  async : Bool

structure ProfilerSample where
  info : SampleInfo
  driver : NodeSample
  driverClock : DriverClockSample
  followers : List FollowerNodeSample
  followerClocks : List ClockSample

/-- What a message makes known: a call of the listeners of the object, or of the importer of
memory. -/
inductive Notice where
  | coreInfo (info : CoreInfo)
  | coreDone (id seq : UInt32)
  | corePing (id seq : UInt32)
  | coreError (id seq res : UInt32) (message : String)
  | coreRemoveId (id : UInt32)
  | coreBoundId (id globalId : UInt32)
  | coreBoundProps (id globalId : UInt32) (props : Properties)
  | addMemory (id type : UInt32) (fd : OwnedFd) (flags : UInt32)
  | removeMemory (id : UInt32)
  | clientInfo (info : ClientInfo)
  | clientPermissions (index : UInt32) (permissions : List Permission)
  | registryGlobal (id permissions : UInt32) (type : String) (version : UInt32) (props : Properties)
  | registryGlobalRemove (id : UInt32)
  | nodeInfo (info : NodeInfo)
  | nodeParam (param : Param)
  | portInfo (info : PortInfo)
  | portParam (param : Param)
  | deviceInfo (info : DeviceInfo)
  | deviceParam (param : Param)
  | linkInfo (info : LinkInfo)
  | moduleInfo (info : ModuleInfo)
  | factoryInfo (info : FactoryInfo)
  | metadataProperty (subject : UInt32) (key type value : Option String)
  | profile (sample : ProfilerSample)
  | clientNode (event : Wire.Event)

end PipewireNative.Marshal
