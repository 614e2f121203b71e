import PipewireNative.Wire.Types

/-!
The events of a ClientNode, encoded by the server and decoded by the client. Descriptors travel
beside the payload, in a table that belongs to the frame; the payload refers to them by their
indices.
-/

namespace PipewireNative.Frame

open Lib

namespace FrameFds

/-- `FrameFds::get`. -/
def get (fds : FrameFds) (index : UInt32) : Except FrameError OwnedFd :=
  match fds[index.toNat]? with
  | none => .error (.invalidFdIndex index.toNat fds.length)
  | some none => .error (.fdAlreadyTaken index.toNat)
  | some (some fd) => .ok fd

/-- `FrameFds::take`. -/
def take (index : UInt32) : Prog FrameFds FrameError OwnedFd := do
  let fds ← .get
  let fd ← .ofExcept (get fds index)
  .modify fun fds => fds.set index.toNat none
  pure fd

end FrameFds

def FrameError.display : FrameError → String
  | .invalidFdIndex index count =>
    "InvalidFdIndex \x7b index: " ++ toString index ++ ", count: " ++ toString count ++ " \x7d"
  | .fdAlreadyTaken index => "FdAlreadyTaken \x7b index: " ++ toString index ++ " \x7d"
  | _ => ""

end PipewireNative.Frame

namespace PipewireNative.Wire

open Lib Lib.Word Prog Pod
open Frame (FrameFds FrameError OwnedFd)

/-! ### Checks -/

def optionalId (value : UInt32) : Option UInt32 := if value ≠ invalidId then some value else none

def wireId (value : Option UInt32) : UInt32 := value.getD invalidId

/-- `is_clear_region`. -/
def RegionRef.IsClear (region : RegionRef) : Prop :=
  region.memoryId = invalidId ∧ region.offset = 0 ∧ region.size = 0

instance (region : RegionRef) : Decidable region.IsClear :=
  inferInstanceAs (Decidable (_ ∧ _ ∧ _))

/-- The region that stands for none. -/
def clearRegion : RegionRef := ⟨invalidId, 0, 0⟩

def rejectPartialClear (region : RegionRef) : Read Unit := do
  rejectIf (region.memoryId = invalidId ∨ region.size = 0)
    (.invalid "invalid partial region-clear sentinel")
  rejectIf (2 ^ 32 ≤ region.offset.toNat + region.size.toNat)
    (.invalid "region range overflows u32")

def validateData (data : DataDescriptor) : Read Unit := do
  rejectIf (data.maxSize = 0) (.invalid "data descriptor has zero max_size")
  rejectIf (2 ^ 32 ≤ data.mapOffset.toNat + data.maxSize.toNat)
    (.invalid "data mapping range overflows u32")

/-- `ObjectType::Format as u32`. -/
def formatObject : ℕ := ObjectType.format.toNat

def validateFormatObject (bytes : List UInt8) : Read Unit := do
  rejectIf (bytes.length < 16) (.invalid "SPA_PARAM_Format payload is not a Format object")
  let type ← u32At bytes 8
  rejectIf (type.toNat ≠ formatObject) (.invalid "SPA_PARAM_Format payload is not a Format object")

/-- `u32::try_from` of an `i64`. -/
def tryU32 (value : Int64) : Option UInt32 :=
  if 0 ≤ value.toInt ∧ value.toInt < 2 ^ 32 then some (.ofNat value.toInt.toNat) else none

/-- The message for an index that is none. -/
def negativeIndex (value : Int64) : String := "negative frame FD index " ++ toString value

def fdIndex (value : Int64) : Result UInt32 :=
  match tryU32 value with
  | some index => .ok index
  | none => .error (.io .invalidData (negativeIndex value))

def podFdIndex (value : Int64) : Read UInt32 :=
  match tryU32 value with
  | some index => .ok index
  | none => .error (.invalid (negativeIndex value))

/-! ### Descriptors -/

/-- An error of the table of descriptors. -/
def tableError (e : FrameError) : Fault := .io .invalidData e.display

/-- The indices one by one, with those that came before. -/
def checkIndices (fds : FrameFds) (seen : List UInt32) : List UInt32 → Result Unit
  | [] => .ok ()
  | index :: rest => do
    rejectIf (index ∈ seen)
      (.io .invalidData s!"descriptor index {index} is referenced more than once")
    let _ ← (fds.get index).mapError tableError
    checkIndices fds (seen ++ [index]) rest

/-- `require_fds`. -/
def requireFds (indices : List UInt32) : Prog FrameFds Fault Unit := do
  let fds ← .get
  .failIf (fds.length ≠ indices.length) (.io .invalidData
    s!"ClientNode event references {indices.length} descriptors but frame carries {fds.length}")
  .ofExcept (checkIndices fds [] indices)

def takeFd (index : UInt32) : Prog FrameFds Fault OwnedFd :=
  (Frame.FrameFds.take index).mapErr tableError

/-! ### Decoding -/

def popRegion : Parse RegionRef := do
  let memoryId ← popInt
  let offset ← popInt
  let size ← popInt
  pure ⟨memoryId, offset, size⟩

/-- A region that is not cleared, not even in part. -/
def popWholeRegion : Parse RegionRef := do
  let region ← popRegion
  .ofExcept (rejectPartialClear region)
  pure region

def popTransport : Parse (UInt32 × UInt32 × RegionRef) := do
  let fd ← popFd
  let trigger ← .ofExcept (podFdIndex fd)
  let fd ← popFd
  let completion ← .ofExcept (podFdIndex fd)
  let activation ← popWholeRegion
  pure (trigger, completion, activation)

/-- A parameter, or that it is cleared. -/
def popFormat : Parse (Option RawPod) := do
  let pod ← Parser.popRawPod
  match pod.type with
  | .none => pure none
  | .object => do
    .ofExcept (validateFormatObject pod.data)
    let param ← .ofExcept (RawPod.wrap pod.data)
    pure (some param)
  | type => .fail (.invalid ("port parameter must be Object or None, got " ++ type.name))

def popPortSetParam (limits : Limits) : Parse Event := do
  let direction ← popDirection
  let portId ← popInt
  let paramId ← popId
  .failIf (paramId ≠ spaParamFormat)
    (.invalid s!"unsupported first-cycle port parameter {paramId}")
  let flags ← popInt
  let param ← popFormat
  .failIf (∃ pod ∈ param, limits.maxPodBytes < pod.size)
    (.invalid "port parameter exceeds configured byte limit")
  pure (.portSetParam ⟨direction, portId, paramId, flags, param⟩)

def popMeta : Parse MetaDescriptor := do
  let typeId ← popId
  let size ← popInt
  pure ⟨typeId, size⟩

def popData : Parse DataDescriptor := do
  let typeId ← popId
  let dataId ← popInt
  let flags ← popInt
  let mapOffset ← popInt
  let maxSize ← popInt
  let data := ⟨typeId, dataId, flags, mapOffset, maxSize⟩
  .ofExcept (validateData data)
  pure data

def popBuffer (limits : Limits) : Parse BufferDescriptor := do
  let metadata ← popWholeRegion
  let nMetas ← popCount limits.maxMetas "metas"
  let metas ← popEach popMeta nMetas
  let nDatas ← popCount limits.maxDatas "datas"
  let datas ← popEach popData nDatas
  pure ⟨metadata, metas, datas⟩

def popPortUseBuffers (limits : Limits) : Parse Event := do
  let direction ← popDirection
  let portId ← popInt
  let mixId ← popInt
  let flags ← popInt
  .failIf (flags &&& spaNodeBuffersFlagAlloc ≠ 0)
    (.invalid "client-allocated buffers are outside the first-cycle surface")
  let nBuffers ← popCount limits.maxBuffers "buffers"
  let buffers ← popEach (popBuffer limits) nBuffers
  pure (.portUseBuffers ⟨direction, portId, optionalId mixId, flags, buffers⟩)

def popPortSetIo : Parse Event := do
  let direction ← popDirection
  let portId ← popInt
  let mixId ← popInt
  let ioId ← popId
  .failIf (ioId ≠ spaIoBuffers) (.invalid s!"unsupported first-cycle port IO {ioId}")
  let region ← popRegion
  if region.IsClear then pure (.portSetIo (.clear direction portId (optionalId mixId) ioId))
  else do
    .ofExcept (rejectPartialClear region)
    pure (.portSetIo (.set direction portId (optionalId mixId) ioId region))

def popSetActivation : Parse (UInt32 × Int64 × RegionRef) := do
  let nodeId ← popInt
  let fd ← popFd
  let activation ← popRegion
  pure (nodeId, fd, activation)

/-- The message for a pod that is no command. -/
def notACommand : Pod.Fault := .invalid "command is not an exact SPA Node command object"

def decodeCommand (bytes : List UInt8) : Read Command := do
  rejectIf (bytes.length ≠ 16) notACommand
  let size ← u32At bytes 0
  rejectIf (size ≠ 8) notACommand
  let type ← u32At bytes 4
  rejectIf (type.toNat ≠ PodType.object.toNat) notACommand
  let object ← u32At bytes 8
  rejectIf (object ≠ 0x30002) notACommand
  let id ← u32At bytes 12
  if id = 0 then pure .suspend
  else if id = 1 then pure .pause
  else if id = 2 then pure .start
  else .error (.invalid s!"unsupported node command {id}")

def popCommand : Parse Event := do
  let pod ← Parser.popRawPod
  let command ← .ofExcept (decodeCommand pod.data)
  pure (.command command)

/-- The descriptor of `SetActivation`. -/
def takeSignal (nodeId index : UInt32) (activation : RegionRef) : Prog FrameFds Fault Event := do
  requireFds [index]
  let signalFd ← takeFd index
  pure (.setActivation (.set nodeId signalFd activation))

/-- `SetActivation` behind its payload. -/
def takeActivation (nodeId : UInt32) (fd : Int64) (activation : RegionRef) :
    Prog FrameFds Fault Event :=
  if fd = -1 ∧ activation.IsClear then do
    requireFds []
    pure (.setActivation (.remove nodeId))
  else do
    .ofExcept ((rejectPartialClear activation).mapError podError)
    let index ← .ofExcept (fdIndex fd)
    takeSignal nodeId index activation

/-- `Transport` behind its payload. -/
def takeTransport (trigger completion : UInt32) (activation : RegionRef) :
    Prog FrameFds Fault Event := do
  requireFds [trigger, completion]
  let triggerFd ← takeFd trigger
  let completionFd ← takeFd completion
  pure (.transport ⟨triggerFd, completionFd, activation⟩)

/-- An event whose frame carries no descriptors. -/
def decodePlain (payload : List UInt8) (parse : Parse Event) : Prog FrameFds Fault Event := do
  requireFds []
  .ofExcept (parsePayload payload parse)

def decodeEvent (opcode : UInt8) (payload : List UInt8) (limits : Limits) :
    Prog FrameFds Fault Event :=
  if opcode = Opcode.transport then do
    let r ← .ofExcept (parsePayload payload popTransport)
    takeTransport r.1 r.2.1 r.2.2
  else if opcode = Opcode.portSetParam then decodePlain payload (popPortSetParam limits)
  else if opcode = Opcode.portUseBuffers then decodePlain payload (popPortUseBuffers limits)
  else if opcode = Opcode.portSetIo then decodePlain payload popPortSetIo
  else if opcode = Opcode.setActivation then do
    let r ← .ofExcept (parsePayload payload popSetActivation)
    takeActivation r.1 r.2.1 r.2.2
  else if opcode = Opcode.command then decodePlain payload popCommand
  else .fail (.io .unsupported s!"unknown ClientNode event opcode {opcode}")

/-! ### Encoding -/

/-- `i32::try_from` of a `u32`. -/
def tryI32 (value : UInt32) (message : String) : Result Int32 := do
  rejectIf (i32Max < value.toNat) (invalidInput message)
  pure value.toInt32

def pushRegion (region : RegionRef) : Build := do
  pushInt region.memoryId
  pushInt region.offset
  pushInt region.size

/-- What is pushed for `Transport`. -/
def pushTransport (trigger completion : Int32) (activation : RegionRef) : Build := do
  pushFd trigger
  pushFd completion
  pushRegion activation

def encodeTransport (triggerIndex completionIndex : UInt32) (activation : RegionRef) :
    Result (List UInt8) := do
  (rejectPartialClear activation).mapError podError
  let trigger ← tryI32 triggerIndex "transport trigger FD index exceeds i32"
  let completion ← tryI32 completionIndex "transport completion FD index exceeds i32"
  encodePayload (pushTransport trigger completion activation)

/-- A parameter, or that there is none. -/
def pushParam : Option RawPod → Build
  | some param => pushRaw param
  | none => pushNone

/-- What is pushed for `PortSetParam`. -/
def pushPortSetParam (value : PortSetParam) : Build := do
  pushInt value.direction.code
  pushInt value.portId
  pushId value.paramId
  pushInt value.flags
  pushParam value.param

/-- The check of a parameter that is set. -/
def checkParam : Option RawPod → Result Unit
  | some param => (validateFormatObject param.data).mapError podError
  | none => .ok ()

def encodePortSetParam (value : PortSetParam) : Result (List UInt8) := do
  rejectIf (value.paramId ≠ spaParamFormat)
    (invalidInput "only SPA_PARAM_Format is in the first-cycle surface")
  checkParam value.param
  encodePayload (pushPortSetParam value)

def pushMeta (value : MetaDescriptor) : Build := do
  pushId value.typeId
  pushInt value.size

def pushData (data : DataDescriptor) : Build := do
  pushId data.typeId
  pushInt data.dataId
  pushInt data.flags
  pushInt data.mapOffset
  pushInt data.maxSize

def pushBuffer (buffer : BufferDescriptor) : Build := do
  pushRegion buffer.metadata
  pushCount buffer.metas.length
  pushEach pushMeta buffer.metas
  pushCount buffer.datas.length
  pushEach pushData buffer.datas

/-- What is pushed for `PortUseBuffers`. -/
def pushPortUseBuffers (value : PortUseBuffers) : Build := do
  pushInt value.direction.code
  pushInt value.portId
  pushInt (wireId value.mixId)
  pushInt value.flags
  pushCount value.buffers.length
  pushEach pushBuffer value.buffers

/-- One check for each of some values, in order. -/
def checkEach {α : Type} (check : α → Result Unit) : List α → Result Unit
  | [] => .ok ()
  | v :: vs => do
    check v
    checkEach check vs

def validateBuffer (limits : Limits) (buffer : BufferDescriptor) : Result Unit := do
  (rejectPartialClear buffer.metadata).mapError podError
  ensureCount buffer.metas.length limits.maxMetas "metas"
  ensureCount buffer.datas.length limits.maxDatas "datas"
  checkEach (fun data => (validateData data).mapError podError) buffer.datas

def validatePortUseBuffers (value : PortUseBuffers) (limits : Limits) : Result Unit := do
  rejectIf (value.flags &&& spaNodeBuffersFlagAlloc ≠ 0)
    (invalidInput "client-allocated buffers are outside the first-cycle surface")
  ensureCount value.buffers.length limits.maxBuffers "buffers"
  checkEach (validateBuffer limits) value.buffers

def encodePortUseBuffers (value : PortUseBuffers) : Result (List UInt8) := do
  validatePortUseBuffers value .standard
  encodePayload (pushPortUseBuffers value)

/-- What is pushed for `PortSetIo`. -/
def pushPortSetIo (direction : Direction) (portId : UInt32) (mixId : Option UInt32)
    (ioId : UInt32) (region : RegionRef) : Build := do
  pushInt direction.code
  pushInt portId
  pushInt (wireId mixId)
  pushId ioId
  pushRegion region

/-- The check of a region that is not the one that stands for none. -/
def checkRegion (region : RegionRef) : Result Unit :=
  if region.IsClear then .ok () else (rejectPartialClear region).mapError podError

/-- `encode_port_set_io` of a mapping, or of the region that stands for none. -/
def encodeIo (direction : Direction) (portId : UInt32) (mixId : Option UInt32) (ioId : UInt32)
    (region : RegionRef) : Result (List UInt8) := do
  rejectIf (ioId ≠ spaIoBuffers) (invalidInput "only SPA_IO_Buffers is in the first-cycle surface")
  checkRegion region
  encodePayload (pushPortSetIo direction portId mixId ioId region)

def encodePortSetIo : PortSetIo → Result (List UInt8)
  | .set direction portId mixId ioId region => encodeIo direction portId mixId ioId region
  | .clear direction portId mixId ioId => encodeIo direction portId mixId ioId clearRegion

/-- What is pushed for `SetActivation`. -/
def pushSetActivation (nodeId : UInt32) (fd : Int32) (region : RegionRef) : Build := do
  pushInt nodeId
  pushFd fd
  pushRegion region

def encodeSetActivation (nodeId : UInt32) : Option (UInt32 × RegionRef) → Result (List UInt8)
  | some (fd, region) => do
    (rejectPartialClear region).mapError podError
    let fd ← tryI32 fd "activation FD index exceeds i32"
    encodePayload (pushSetActivation nodeId fd region)
  | none => encodePayload (pushSetActivation nodeId (-1) clearRegion)

/-- The bytes of a command. -/
def commandBytes (command : Command) : List UInt8 :=
  word 8 ++ (word PodType.object.toNat ++ (word 0x30002 ++ word command.code.toNat))

def commandPod (command : Command) : Result RawPod :=
  (RawPod.wrap (commandBytes command)).mapError podError

def encodeCommand (command : Command) : Result (List UInt8) := do
  let pod ← commandPod command
  encodePayload (pushRaw pod)

end PipewireNative.Wire
