import PipewireNative.Wire.Types

/-!
The methods of a ClientNode, encoded by the client and decoded by the server.
-/

namespace PipewireNative.Wire

open Lib Prog Pod

/-! ### Encoding -/

/-- What is pushed for one property. -/
def pushPair (pair : String × String) : Build := do
  pushString pair.1
  pushString pair.2

def pushParamInfo (param : ParamInfo) : Build := do
  pushId param.id
  pushInt param.flags

def pushInfoTail (properties : List (String × String)) (params : List ParamInfo) : Build := do
  pushCount properties.length
  pushEach pushPair properties
  pushCount params.length
  pushEach pushParamInfo params

namespace NodeInfo

variable (info : NodeInfo)

/-- The changes that are written. -/
def written : UInt64 := info.changeMask &&& nodeInfoChangeMask

/-- The properties that are written. -/
def writtenProperties : List (String × String) :=
  if info.written &&& nodeInfoChangeProps ≠ 0 then info.properties else []

/-- The parameters that are written. -/
def writtenParams : List ParamInfo :=
  if info.written &&& nodeInfoChangeParams ≠ 0 then info.params else []

end NodeInfo

def pushNodeInfo (info : NodeInfo) : Build := do
  pushInt info.maxInputPorts
  pushInt info.maxOutputPorts
  pushLong info.written
  pushLong info.flags
  pushInfoTail info.writtenProperties info.writtenParams

def pushPortInfo (info : PortInfo) : Build := do
  pushLong (info.changeMask &&& portInfoChangeMask)
  pushLong info.flags
  pushInt info.rateNum
  pushInt info.rateDenom
  pushInfoTail info.properties info.params

/-- Information, or that there is none. -/
def pushOptional {α : Type} (push : α → Build) : Option α → Build
  | some info => Builder.pushStruct (push info)
  | none => pushNone

def pushUpdate (value : Update) : Build := do
  pushInt value.changeMask
  pushCount value.params.length
  pushEach pushRaw value.params
  pushOptional pushNodeInfo value.info

def pushPortUpdate (value : PortUpdate) : Build := do
  pushInt value.direction.code
  pushInt value.portId
  pushInt value.changeMask
  pushCount value.params.length
  pushEach pushRaw value.params
  pushOptional pushPortInfo value.info

/-- What is pushed for a method. -/
def Method.push : Method → Build
  | .update value => pushUpdate value
  | .portUpdate value => pushPortUpdate value
  | .setActive value => pushBool value.active

/-- `usize::from(flag) * n`. -/
def countIf (flag : Bool) (n : ℕ) : ℕ := flag.toNat * n

/-- The checks that methods with parameters have in common. -/
def validateCounts (params : List RawPod) (propertyCount paramInfoCount : ℕ) (limits : Limits) :
    Result Unit := do
  ensureCount params.length limits.maxParams "params"
  ensureCount propertyCount limits.maxProperties "properties"
  ensureCount paramInfoCount limits.maxParamInfo "param info"
  rejectIf (∃ pod ∈ params, limits.maxPodBytes < pod.size)
    (invalidInput "parameter POD exceeds configured byte limit")

def validateMethod (value : Method) (limits : Limits) : Result Unit :=
  match value with
  | .update value =>
    validateCounts value.params
      (value.info.elim 0 fun info =>
        countIf (info.changeMask &&& nodeInfoChangeProps != 0) info.properties.length)
      (value.info.elim 0 fun info =>
        countIf (info.changeMask &&& nodeInfoChangeParams != 0) info.params.length) limits
  | .portUpdate value =>
    validateCounts value.params (value.info.elim 0 fun info => info.properties.length)
      (value.info.elim 0 fun info => info.params.length) limits
  | .setActive _ => .ok ()

def encodeMethodWithLimits (value : Method) (limits : Limits) : Result (List UInt8) := do
  validateMethod value limits
  encodePayload value.push

def encodeMethod (value : Method) : Result (List UInt8) := encodeMethodWithLimits value .standard

/-! ### Decoding -/

def popPair : Parse (String × String) := do
  let key ← popString
  let value ← popString
  pure (key, value)

def popParamInfo : Parse ParamInfo := do
  let id ← popId
  let flags ← popInt
  pure ⟨id, flags⟩

def popInfoTail (limits : Limits) : Parse (List (String × String) × List ParamInfo) := do
  let nProperties ← popCount limits.maxProperties "properties"
  let properties ← popEach popPair nProperties
  let nParams ← popCount limits.maxParamInfo "param info"
  let params ← popEach popParamInfo nParams
  pure (properties, params)

def popNodeInfo (limits : Limits) : Parse NodeInfo := do
  let maxInputPorts ← popInt
  let maxOutputPorts ← popInt
  let changeMask ← popLong
  let flags ← popLong
  let tail ← popInfoTail limits
  let q ← Parser.here
  .failIf (q.available ≠ 0) (.invalid "trailing node info fields")
  pure ⟨maxInputPorts, maxOutputPorts, changeMask &&& nodeInfoChangeMask, flags, tail.1, tail.2⟩

def popPortInfo (limits : Limits) : Parse PortInfo := do
  let changeMask ← popLong
  let flags ← popLong
  let rateNum ← popInt
  let rateDenom ← popInt
  let tail ← popInfoTail limits
  let q ← Parser.here
  .failIf (q.available ≠ 0) (.invalid "trailing port info fields")
  pure ⟨changeMask &&& portInfoChangeMask, flags, rateNum, rateDenom, tail.1, tail.2⟩

/-- What `pop_optional_node_info` and `pop_optional_port_info` have in common: a pod of its own,
whose struct is parsed by another parser. -/
def popOptional {α : Type} (name : String) (pop : Parse α) : Parse (Option α) := do
  let pod ← Parser.popRawPod
  match pod.type with
  | .none => pure none
  | .struct => do
    let r ← Parser.nested pod.data (Parser.popStruct pop)
    pure (some r.1)
  | type => .fail (.invalid (name ++ " info must be Struct or None, got " ++ type.name))

def popOptionalNodeInfo (limits : Limits) : Parse (Option NodeInfo) :=
  popOptional "node" (popNodeInfo limits)

def popOptionalPortInfo (limits : Limits) : Parse (Option PortInfo) :=
  popOptional "port" (popPortInfo limits)

/-- One of the pods of `pop_pods`. -/
def popParam (maxBytes : ℕ) : Parse RawPod := do
  let pod ← Parser.popRawPod
  .failIf (maxBytes < pod.size) (.invalid "parameter POD exceeds configured byte limit")
  .ofExcept (RawPod.wrap pod.data)

def popPods (count maxBytes : ℕ) : Parse (List RawPod) := popEach (popParam maxBytes) count

def popUpdate (limits : Limits) : Parse Method := do
  let changeMask ← popInt
  let count ← popCount limits.maxParams "params"
  let params ← popPods count limits.maxPodBytes
  let info ← popOptionalNodeInfo limits
  pure (.update ⟨changeMask, params, info⟩)

def popPortUpdate (limits : Limits) : Parse Method := do
  let direction ← popDirection
  let portId ← popInt
  let changeMask ← popInt
  let count ← popCount limits.maxParams "params"
  let params ← popPods count limits.maxPodBytes
  let info ← popOptionalPortInfo limits
  pure (.portUpdate ⟨direction, portId, changeMask, params, info⟩)

def popSetActive : Parse Method := do
  let active ← popBool
  pure (.setActive ⟨active⟩)

def decodeMethod (opcode : UInt8) (payload : List UInt8) (limits : Limits) : Result Method :=
  if opcode = Opcode.update then parsePayload payload (popUpdate limits)
  else if opcode = Opcode.portUpdate then parsePayload payload (popPortUpdate limits)
  else if opcode = Opcode.setActive then parsePayload payload popSetActive
  else .error (.io .unsupported s!"unknown ClientNode method opcode {opcode}")

end PipewireNative.Wire
