import PipewireNative.Frame.Recv
import PipewireNative.Pod.Builder
import PipewireNative.Pod.Parser

/-!
The ClientNode messages: their numbers, the bounds on what a peer may repeat, the methods a client
calls and the events it gets, and how payloads are built and parsed.
-/

namespace PipewireNative.Wire

open Lib Prog Pod

/-! ### Errors -/

/-- The kinds of `std::io::Error` that the code makes, and all others. -/
inductive ErrorKind where
  | invalidInput
  | invalidData
  | unsupported
  | other
  deriving DecidableEq, Repr

inductive Fault where
  | io (kind : ErrorKind) (message : String)
  | panic
  deriving DecidableEq, Repr

abbrev Result (α : Type) := Except Fault α

/-- An error of the pod codec as it is shown. -/
def debugError : Pod.Error → String
  | .invalid message => "Invalid(\"" ++ message ++ "\")"
  | .noSpace => "NoSpace"

/-- `pod_error`, and panics as they are. -/
def podError : Pod.Fault → Fault
  | .error e => .io .invalidData ("ClientNode POD codec error: " ++ debugError e)
  | .panic => .panic

def invalidInput (message : String) : Fault := .io .invalidInput message

/-! ### Numbers -/

/-- `INVALID_ID`. -/
def invalidId : UInt32 := 0xffffffff

def spaIoBuffers : UInt32 := 1

def spaParamFormat : UInt32 := 4

def spaNodeBuffersFlagAlloc : UInt32 := 1

def nodeInfoChangeMask : UInt64 := 0x7

def portInfoChangeMask : UInt64 := 0xf

def nodeInfoChangeProps : UInt64 := 2

def nodeInfoChangeParams : UInt64 := 4

def initialEncodeCapacity : ℕ := 1024

def maxEncodeCapacity : ℕ := 16 * 1024 * 1024

namespace Opcode

def update : UInt8 := 2

def portUpdate : UInt8 := 3

def setActive : UInt8 := 4

def transport : UInt8 := 0

def command : UInt8 := 4

def portSetParam : UInt8 := 7

def portUseBuffers : UInt8 := 8

def portSetIo : UInt8 := 9

def setActivation : UInt8 := 10

end Opcode

structure Limits where
  maxParams : ℕ
  maxProperties : ℕ
  maxParamInfo : ℕ
  maxBuffers : ℕ
  maxMetas : ℕ
  maxDatas : ℕ
  maxPodBytes : ℕ
  deriving DecidableEq, Repr

/-- `Limits::default`. -/
def Limits.standard : Limits where
  maxParams := 64
  maxProperties := 256
  maxParamInfo := 64
  maxBuffers := 64
  maxMetas := 64
  maxDatas := 256
  maxPodBytes := 1024 * 1024

/-! ### Messages -/

inductive Direction where
  | input
  | output
  deriving DecidableEq, Repr

def Direction.code : Direction → UInt32
  | .input => 0
  | .output => 1

structure RegionRef where
  memoryId : UInt32
  offset : UInt32
  size : UInt32
  deriving DecidableEq, Repr

structure ParamInfo where
  id : UInt32
  flags : UInt32
  deriving DecidableEq, Repr

structure NodeInfo where
  maxInputPorts : UInt32
  maxOutputPorts : UInt32
  changeMask : UInt64
  flags : UInt64
  properties : List (String × String)
  params : List ParamInfo

structure PortInfo where
  changeMask : UInt64
  flags : UInt64
  rateNum : UInt32
  rateDenom : UInt32
  properties : List (String × String)
  params : List ParamInfo

structure Update where
  changeMask : UInt32
  params : List RawPod
  info : Option NodeInfo

structure PortUpdate where
  direction : Direction
  portId : UInt32
  changeMask : UInt32
  params : List RawPod
  info : Option PortInfo

structure SetActive where
  active : Bool

inductive Method where
  | update (value : Update)
  | portUpdate (value : PortUpdate)
  | setActive (value : SetActive)

def Method.opcode : Method → UInt8
  | .update _ => Opcode.update
  | .portUpdate _ => Opcode.portUpdate
  | .setActive _ => Opcode.setActive

structure MetaDescriptor where
  typeId : UInt32
  size : UInt32
  deriving DecidableEq, Repr

structure DataDescriptor where
  typeId : UInt32
  dataId : UInt32
  flags : UInt32
  mapOffset : UInt32
  maxSize : UInt32
  deriving DecidableEq, Repr

structure BufferDescriptor where
  metadata : RegionRef
  metas : List MetaDescriptor
  datas : List DataDescriptor
  deriving DecidableEq, Repr

structure Transport where
  triggerFd : Frame.OwnedFd
  completionFd : Frame.OwnedFd
  activation : RegionRef

structure PortSetParam where
  direction : Direction
  portId : UInt32
  paramId : UInt32
  flags : UInt32
  param : Option RawPod

structure PortUseBuffers where
  direction : Direction
  portId : UInt32
  mixId : Option UInt32
  flags : UInt32
  buffers : List BufferDescriptor

inductive PortSetIo where
  | set (direction : Direction) (portId : UInt32) (mixId : Option UInt32) (ioId : UInt32)
      (region : RegionRef)
  | clear (direction : Direction) (portId : UInt32) (mixId : Option UInt32) (ioId : UInt32)
  deriving DecidableEq, Repr

inductive SetActivation where
  | set (nodeId : UInt32) (signalFd : Frame.OwnedFd) (activation : RegionRef)
  | remove (nodeId : UInt32)

inductive Command where
  | suspend
  | pause
  | start
  deriving DecidableEq, Repr

def Command.code : Command → UInt32
  | .suspend => 0
  | .pause => 1
  | .start => 2

inductive Event where
  | transport (value : Transport)
  | portSetParam (value : PortSetParam)
  | portUseBuffers (value : PortUseBuffers)
  | portSetIo (value : PortSetIo)
  | setActivation (value : SetActivation)
  | command (value : Command)

/-! ### Pushing and popping -/

/-- What a closure of the pod parser does that changes nothing but the parser. -/
abbrev Parse (α : Type) := Pop Unit α

/-- `push_int(value as i32)`. -/
def pushInt (value : UInt32) : Build := Builder.pushPrim (E := .plain) .int value.toInt32

/-- `push_int(value.len() as i32)`. -/
def pushCount (n : ℕ) : Build := Builder.pushPrim (E := .plain) .int (Int32.ofNat n)

/-- `push_long(value as i64)`. -/
def pushLong (value : UInt64) : Build := Builder.pushPrim (E := .plain) .long value.toInt64

/-- `push_id(Id(value))`. -/
def pushId (value : UInt32) : Build := Builder.pushPrim (E := .plain) (.id ()) value

def pushFd (value : Int32) : Build := Builder.pushPrim (E := .plain) .fd ⟨value.toInt64⟩

def pushBool (value : Bool) : Build := Builder.pushPrim (E := .plain) .bool value

def pushNone : Build := Builder.pushPrim (E := .plain) .unit ()

def pushString (value : String) : Build := Builder.pushPod (E := .plain) .string value

def pushRaw (value : RawPod) : Build := Builder.pushPod (E := .plain) .raw value

/-- A push for each of some values, in order. -/
def pushEach {α : Type} (push : α → Build) : List α → Build
  | [] => pure ()
  | v :: vs => do
    push v
    pushEach push vs

def popI32 : Parse Int32 := Parser.popPrim (E := .plain) .int

/-- `pop_int()? as u32`. -/
def popInt : Parse UInt32 := do
  let value ← popI32
  pure value.toUInt32

/-- `pop_long()? as u64`. -/
def popLong : Parse UInt64 := do
  let value ← Parser.popPrim (E := .plain) .long
  pure (Int64.toUInt64 value)

/-- `pop_id::<u32>()?.0`. -/
def popId : Parse UInt32 := Parser.popPrim (E := .plain) (.id ())

/-- `pop_fd()?.0`. -/
def popFd : Parse Int64 := do
  let value ← Parser.popPrim (E := .plain) .fd
  pure (Fd.value value)

def popBool : Parse Bool := Parser.popPrim (E := .plain) .bool

def popString : Parse String := Parser.popPod (E := .plain) .string

/-- So many pops, one behind the other. -/
def popEach {α : Type} (pop : Parse α) : ℕ → Parse (List α)
  | 0 => pure []
  | n + 1 => do
    let v ← pop
    let vs ← popEach pop n
    pure (v :: vs)

/-- `direction`. -/
def directionOf (value : Int32) : Read Direction :=
  if value = 0 then pure .input
  else if value = 1 then pure .output
  else .error (.invalid ("invalid SPA direction " ++ toString value))

def popDirection : Parse Direction := do
  let value ← popI32
  .ofExcept (directionOf value)

/-- `count`. -/
def countOf (value : Int32) (max : ℕ) (name : String) : Read ℕ := do
  rejectIf (value < 0) (.invalid ("negative " ++ name ++ " count"))
  let n := value.toNatClampNeg
  rejectIf (max < n) (.invalid (name ++ s!" count {n} exceeds limit {max}"))
  pure n

def popCount (max : ℕ) (name : String) : Parse ℕ := do
  let value ← popI32
  .ofExcept (countOf value max name)

/-- `i32::MAX`. -/
def i32Max : ℕ := 2 ^ 31 - 1

def ensureCount (value max : ℕ) (name : String) : Result Unit :=
  rejectIf (max < value ∨ i32Max < value) (invalidInput (name ++ s!" count {value} exceeds limit {max}"))

/-! ### Payloads -/

/-- The loop of `encode_payload`, from a capacity on. -/
def encodeFrom (build : Build) (capacity : ℕ) (hpos : 0 < capacity) : Result (List UInt8) :=
  match Builder.run (Builder.pushStruct build) (List.replicate capacity 0) with
  | .ok bytes => .ok bytes
  | .error (.error .noSpace) =>
    if capacity < maxEncodeCapacity then
      encodeFrom build (min (min (2 * capacity) (usizeBound - 1)) maxEncodeCapacity) (by
        unfold usizeBound maxEncodeCapacity
        omega)
    else .error (invalidInput s!"ClientNode payload exceeds {maxEncodeCapacity} byte limit")
  | .error f => .error (podError f)
termination_by maxEncodeCapacity - capacity
decreasing_by
  unfold usizeBound maxEncodeCapacity at *
  omega

def encodePayload (build : Build) : Result (List UInt8) :=
  encodeFrom build initialEncodeCapacity (by decide)

/-- What is parsed, and nothing behind it. -/
def parseAll {α : Type} (parse : Parse α) : Parse α := do
  let value ← parse
  let q ← Parser.here
  .failIf (q.available ≠ 0) (.invalid s!"{q.available} trailing bytes in ClientNode struct")
  pure value

def parsePayload {α : Type} (payload : List UInt8) (parse : Parse α) : Result α :=
  match (Parser.popStruct (parseAll parse) (.new payload, ())).1 with
  | .error f => .error (podError f)
  | .ok (value, size) =>
    if size ≠ payload.length then
      .error (.io .invalidData "trailing POD after ClientNode message struct")
    else .ok value

end PipewireNative.Wire
