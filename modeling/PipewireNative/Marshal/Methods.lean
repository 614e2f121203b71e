import PipewireNative.Marshal.Types
import PipewireNative.Pod.Fill
import PipewireNative.Wire.Bytes

/-!
What a client asks the server for: the methods of the interfaces, and how they are encoded.
-/

namespace PipewireNative.Marshal

open Lib Prog Wire
open Pod hiding Fault

/-! ### Arguments -/

/-- `Vec<SpaId<ParamType>>`: a vector has at most `isize::MAX` bytes. -/
structure ParamIds where
  ids : List ParamType
  bound : 4 * ids.length < Frame.isizeBound

inductive Arg where
  | int (value : Int32)
  | string (value : String)
  | optionString (value : Option String)
  | unit
  | number (value : UInt32)
  | paramType (value : ParamType)
  | paramIds (value : ParamIds)
  | raw (value : RawPod)
  | props (value : List (String × String))
  | permissions (value : List (Int32 × Int32))

/-- The pairs behind their number. -/
def pushPairs (k v : PodTy enums) (data : List (k.Val × v.Val)) : Build := do
  pushCount data.length
  pushEach (fun item => do
    Builder.pushPod k item.1
    Builder.pushPod v item.2) data

/-- `PairList::encode`. -/
def encodePairList (k v : PodTy enums) (data : List (k.Val × v.Val)) : Write ℕ :=
  Builder.encode (Builder.pushStruct (pushPairs k v data))

/-- `push_pod`, of a field. -/
def Arg.push : Arg → Build
  | .int value => Builder.pushPod (E := enums) (.prim .int) value
  | .string value => Builder.pushPod (E := enums) .string value
  | .optionString value => Builder.pushPod (E := enums) (.option .string) value
  | .unit => Builder.pushPod (E := enums) (.prim .unit) ()
  | .number value => Builder.pushPod (E := enums) (.prim (.id .number)) value
  | .paramType value => Builder.pushPod (E := enums) (.prim (.id .paramType)) value
  | .paramIds value => Builder.pushPod (E := enums) (.array (.id .paramType)) value.ids
  | .raw value => Builder.pushPod (E := enums) .raw value
  | .props value => Builder.pushWith (encodePairList .string .string value)
  | .permissions value => Builder.pushWith (encodePairList (.prim .int) (.prim .int) value)

/-- The `encode` that is derived for a struct of these fields. -/
def encodeStruct (args : List Arg) : Write ℕ := Builder.encode (Builder.pushStruct (pushEach Arg.push args))

/-! ### Methods -/

inductive CoreMethod where
  | hello (version : Int32)
  | sync (id seq : Int32)
  | pong (id seq : Int32)
  | error (id seq res : Int32) (message : String)
  | getRegistry (version newId : Int32)
  | createObject (factoryName type : String) (version : Int32) (props : List (String × String))
      (newId : Int32)
  | destroy (id : Int32)

def CoreMethod.args : CoreMethod → List Arg
  | .hello version => [.int version]
  | .sync id seq => [.int id, .int seq]
  | .pong id seq => [.int id, .int seq]
  | .error id seq res message => [.int id, .int seq, .int res, .string message]
  | .getRegistry version newId => [.int version, .int newId]
  | .createObject factoryName type version props newId =>
    [.string factoryName, .string type, .int version, .props props, .int newId]
  | .destroy id => [.int id]

inductive ClientMethod where
  | error (id res : Int32) (message : String)
  | updateProperties (props : List (String × String))
  | getPermissions (index num : Int32)
  | updatePermissions (permissions : List (Int32 × Int32))

def ClientMethod.args : ClientMethod → List Arg
  | .error id res message => [.int id, .int res, .string message]
  | .updateProperties props => [.props props]
  | .getPermissions index num => [.int index, .int num]
  | .updatePermissions permissions => [.permissions permissions]

inductive RegistryMethod where
  | bind (id : Int32) (type : String) (version newId : Int32)
  | destroy (id : Int32)

def RegistryMethod.args : RegistryMethod → List Arg
  | .bind id type version newId => [.int id, .string type, .int version, .int newId]
  | .destroy id => [.int id]

/-- `SubscribeParams`, the same for devices, nodes and ports. -/
def subscribeParams (ids : ParamIds) : List Arg := [.paramIds ids]

/-- `EnumParams`, the same for devices, nodes and ports. -/
def enumParams (seq : Int32) (id : UInt32) (index num : Int32) (filter : RawPod) : List Arg :=
  [.int seq, .number id, .int index, .int num, .raw filter]

/-- `SetParam`, the same for devices and nodes. -/
def setParam (id : ParamType) (flags : Int32) (param : RawPod) : List Arg :=
  [.paramType id, .int flags, .raw param]

inductive DeviceMethod where
  | subscribeParams (ids : ParamIds)
  | enumParams (seq : Int32) (id : UInt32) (index num : Int32) (filter : RawPod)
  | setParam (id : ParamType) (flags : Int32) (param : RawPod)

def DeviceMethod.args : DeviceMethod → List Arg
  | .subscribeParams ids => Marshal.subscribeParams ids
  | .enumParams seq id index num filter => Marshal.enumParams seq id index num filter
  | .setParam id flags param => Marshal.setParam id flags param

inductive NodeMethod where
  | subscribeParams (ids : ParamIds)
  | enumParams (seq : Int32) (id : UInt32) (index num : Int32) (filter : RawPod)
  | setParam (id : ParamType) (flags : Int32) (param : RawPod)
  | sendCommand (command : RawPod)

def NodeMethod.args : NodeMethod → List Arg
  | .subscribeParams ids => Marshal.subscribeParams ids
  | .enumParams seq id index num filter => Marshal.enumParams seq id index num filter
  | .setParam id flags param => Marshal.setParam id flags param
  | .sendCommand command => [.raw command]

inductive PortMethod where
  | subscribeParams (ids : ParamIds)
  | enumParams (seq : Int32) (id : UInt32) (index num : Int32) (filter : RawPod)

def PortMethod.args : PortMethod → List Arg
  | .subscribeParams ids => Marshal.subscribeParams ids
  | .enumParams seq id index num filter => Marshal.enumParams seq id index num filter

inductive MetadataMethod where
  | setProperty (subject : Int32) (key type value : Option String)
  | clear

def MetadataMethod.args : MetadataMethod → List Arg
  | .setProperty subject key type value =>
    [.int subject, .optionString key, .optionString type, .optionString value]
  | .clear => [.unit]

/-- The error of the codec of the ClientNode, as the error of a pod. -/
def outgoingError : Fault → Pod.Fault
  | .io _ message => .invalid message
  | .panic => .panic

/-- `Outgoing::encode`. -/
def encodeOutgoing (method : Method) : Write ℕ := do
  let payload ← .ofExcept ((encodeMethod method).mapError outgoingError)
  let data ← .get
  .failIf (data.length < payload.length) .noSpace
  .modify fun data => payload ++ data.drop payload.length
  pure payload.length

/-- What is sent to the server. -/
inductive Marshallable where
  | core (method : CoreMethod)
  | client (method : ClientMethod)
  | registry (method : RegistryMethod)
  | device (method : DeviceMethod)
  | node (method : NodeMethod)
  | port (method : PortMethod)
  | metadata (method : MetadataMethod)
  | clientNode (method : Method)

namespace Marshallable

/-- The opcodes that are derived count the variants from 1. -/
def opcode : Marshallable → UInt8
  | .core method => .ofNat (method.ctorIdx + 1)
  | .client method => .ofNat (method.ctorIdx + 1)
  | .registry method => .ofNat (method.ctorIdx + 1)
  | .device method => .ofNat (method.ctorIdx + 1)
  | .node method => .ofNat (method.ctorIdx + 1)
  | .port method => .ofNat (method.ctorIdx + 1)
  | .metadata method => .ofNat (method.ctorIdx + 1)
  | .clientNode method => method.opcode

def encode : Marshallable → Write ℕ
  | .core method => encodeStruct method.args
  | .client method => encodeStruct method.args
  | .registry method => encodeStruct method.args
  | .device method => encodeStruct method.args
  | .node method => encodeStruct method.args
  | .port method => encodeStruct method.args
  | .metadata method => encodeStruct method.args
  | .clientNode method => encodeOutgoing method

end Marshallable

/-! ### The footer -/

structure ClientFooter where
  payloads : List Int64

/-- One payload of a footer: its opcode, and a struct of the generation. -/
def pushFooterPayload (generation : Int64) : Build := do
  pushId 0
  Builder.pushWith (Builder.encode (Builder.pushStruct (Builder.pushPrim (E := .plain) .long generation)))

def ClientFooter.encode (footer : ClientFooter) : Write ℕ :=
  Builder.encode (Builder.pushStruct (pushEach pushFooterPayload footer.payloads))

def ClientFooter.bytes (footer : ClientFooter) : List UInt8 :=
  payloadOf (footer.payloads.flatMap fun generation =>
    idBytes 0 ++ payloadOf (bytesOf (.prim .long) generation))

/-! ### How encoding ends -/

/-- An encoding writes these bytes into some buffer, and nothing behind them. -/
def Encodes (encode : Write ℕ) (bytes : List UInt8) : Prop :=
  ∃ data, encode data = (.ok bytes.length, bytes ++ data.drop bytes.length)

/-- Pushing does not panic with less room than this. -/
def ClearBelow (n : ℕ) (l : Layout) : Prop := ∀ len room, room < n → ¬ l.Cramped len room

lemma ClearBelow.append {n : ℕ} {l m : Layout} (hl : ClearBelow n l) (hm : ClearBelow n m) :
    ClearBelow n (l.append m) := by
  rintro len room h (hcramped | ⟨-, hcramped⟩)
  · exact hl len room h hcramped
  · exact hm len _ (Nat.lt_of_le_of_lt (Nat.sub_le _ _) h) hcramped

def pairBytes (k v : PodTy enums) (data : List (k.Val × v.Val)) : List UInt8 :=
  countBytes data.length ++ data.flatMap fun item => k.plainBytes item.1 ++ v.plainBytes item.2

lemma pushPairs_writes {k v : PodTy enums} (hk : k.Simple) (hv : v.Simple)
    (data : List (k.Val × v.Val)) : Writes (pushPairs k v data) (pairBytes k v data) := by
  refine (pushCount_writes data.length).bind (pushEach_writes (fun item => ?_) data)
  exact (Writes.pod hk item.1).bind (Writes.pod hv item.2)

/-- A field is laid out, and pushing it does not panic with so little room. -/
def Lies (m : Build) : Prop := ∃ l, Lays m l ∧ ClearBelow (2 ^ 32) l

lemma lies_pairList {k v : PodTy enums} (hk : k.Simple) (hv : v.Simple)
    (data : List (k.Val × v.Val)) : Lies (Builder.pushWith (encodePairList k v data)) :=
  ⟨_, Lays.fill (pushPairs_writes hk hv data).fills, fun _ _ _ => id⟩

lemma lies_pod {t : PodTy enums} (v : t.Val) (h : ∀ room < 2 ^ 32, ¬ t.Overflow v room) :
    Lies (Builder.pushPod t v) :=
  ⟨_, .pod t v, fun _ room hroom => h room hroom⟩

lemma lies_simple {t : PodTy enums} (ht : t.Simple) (v : t.Val) : Lies (Builder.pushPod t v) :=
  lies_pod v fun room _ => ht.not_overflow v room

/-- The elements of a vector are counted, and there is no room for so many that a `u32` does not
count their bytes. -/
lemma ParamIds.not_overflow (value : ParamIds) {room : ℕ} (h : room < 2 ^ 32) :
    ¬ (PodTy.array (E := enums) (.id .paramType)).Overflow value.ids room := by
  have hbound := value.bound
  change ¬ (usizeBound ≤ Pod.frame (8 + 4 * value.ids.length) ∨
    Pod.frame (8 + 4 * value.ids.length) ≤ room ∧ 2 ^ 32 ≤ 8 + 4 * value.ids.length % 2 ^ 32)
  have hpad : pad8 (8 + 4 * value.ids.length) < 8 := by
    unfold pad8
    split_ifs <;> omega
  unfold Pod.frame usizeBound
  unfold Frame.isizeBound at hbound
  omega

lemma Arg.push_lies (arg : Arg) : Lies arg.push := by
  cases arg with
  | int value => exact lies_simple (t := .prim .int) trivial value
  | string value => exact lies_simple (t := .string) trivial value
  | optionString value =>
    refine lies_pod (t := .option .string) value fun _ _ => ?_
    cases value <;> exact id
  | unit => exact lies_simple (t := .prim .unit) trivial ()
  | number value => exact lies_simple (t := .prim (.id .number)) trivial value
  | paramType value => exact lies_simple (t := .prim (.id .paramType)) trivial value
  | paramIds value =>
    exact lies_pod (t := .array (.id .paramType)) value.ids fun _ => value.not_overflow
  | raw value => exact lies_simple (t := .raw) trivial value
  | props value => exact lies_pairList (k := .string) (v := .string) trivial trivial value
  | permissions value => exact lies_pairList (k := .prim .int) (v := .prim .int) trivial trivial value

lemma lies_pushEach (args : List Arg) : Lies (pushEach Arg.push args) := by
  induction args with
  | nil => exact ⟨.nil, .pure, fun _ _ _ => id⟩
  | cons arg args ih =>
    obtain ⟨l, hl, hclear⟩ := arg.push_lies
    obtain ⟨m, hm, hclear'⟩ := ih
    exact ⟨l.append m, hl.bind hm, hclear.append hclear'⟩

/-- How an encoding comes out well. -/
def Encoded (encode : Write ℕ) (data : List UInt8) (n : ℕ) (data' : List UInt8) : Prop :=
  ∃ bytes, Encodes encode bytes ∧ n = bytes.length ∧ n ≤ data.length ∧
    data' = bytes ++ data.drop bytes.length

lemma encodeStruct_ends (args : List Arg) {data : List UInt8} (h : data.length < 2 ^ 32) :
    (encodeStruct args).Ends data (Encoded (encodeStruct args) data)
      (fun f data' => f = .noSpace ∧ data'.length = data.length) := by
  obtain ⟨l, hl, hclear⟩ := lies_pushEach args
  refine (hl.struct.encode_ends data).runs.mono ?_ ?_
  · rintro n data' ⟨hrun, hfit, rfl, rfl⟩
    have hle := l.struct.size_le hfit
    have hlen := l.struct.image_length hle
    refine ⟨l.struct.image data, ⟨data, ?_⟩, hlen.symm, hle, by rw [hlen]⟩
    rw [hlen]
    exact hrun
  · rintro f data' ⟨-, ⟨rfl, -, hlen⟩ | ⟨-, hcramped⟩⟩
    · exact ⟨rfl, hlen⟩
    · refine absurd hcramped ?_
      simp only [Layout.struct, Layout.headed]
      split_ifs with hroom
      · exact hclear _ _ (Nat.lt_of_le_of_lt (Nat.sub_le _ _) h)
      · exact fun h => hroom h.1

/-- How an encoding does not come out well: there is no space, or the codec of the ClientNode
reports an error or panics. -/
def Marshallable.Refused (object : Marshallable) (data : List UInt8) (f : Pod.Fault)
    (data' : List UInt8) : Prop :=
  data'.length = data.length ∧ (f = .noSpace ∨
    ∃ method e, object = .clientNode method ∧ encodeMethod method = .error e ∧ f = outgoingError e)

lemma encodeOutgoing_ends (method : Method) (data : List UInt8) :
    (encodeOutgoing method).Ends data (Encoded (encodeOutgoing method) data)
      ((Marshallable.clientNode method).Refused data) := by
  cases hencode : encodeMethod method with
  | error e =>
    unfold encodeOutgoing
    rw [ends_bind, ends_ofExcept, hencode]
    exact ⟨rfl, .inr ⟨method, e, rfl, hencode, rfl⟩⟩
  | ok payload =>
    have hpayload : (encodeMethod method).mapError outgoingError = .ok payload := by
      rw [hencode]
      rfl
    by_cases h : data.length < payload.length
    · have hrun : encodeOutgoing method data = (.error .noSpace, data) := by
        unfold encodeOutgoing
        rw [ofExcept_bind hpayload, get_bind, failIf_bind_of h]
      rw [ends_of_run hrun]
      exact ⟨rfl, .inl rfl⟩
    · have hrun : encodeOutgoing method data =
          (.ok payload.length, payload ++ data.drop payload.length) := by
        unfold encodeOutgoing
        rw [ofExcept_bind hpayload, get_bind, failIf_bind h, modify_bind]
        rfl
      rw [ends_of_run hrun]
      exact ⟨payload, ⟨data, hrun⟩, rfl, Nat.le_of_not_lt h, rfl⟩

theorem Marshallable.encode_ends (object : Marshallable) {data : List UInt8}
    (h : data.length < 2 ^ 32) :
    object.encode.Ends data (Encoded object.encode data) (object.Refused data) := by
  have hstruct (args : List Arg) : (encodeStruct args).Ends data (Encoded (encodeStruct args) data)
      (object.Refused data) :=
    (encodeStruct_ends args h).mono (fun _ _ => id) fun _ _ h => ⟨h.2, .inl h.1⟩
  cases object with
  | clientNode method => exact encodeOutgoing_ends method data
  | _ method => exact hstruct method.args

lemma ClientFooter.encode_fills (footer : ClientFooter) : Fills footer.encode footer.bytes := by
  refine (pushEach_writes (fun generation => ?_) footer.payloads).fills
  have hlong := pushPrim_writes .long generation
  refine (pushId_writes 0).bind (.fill hlong.fills ?_)
  have hlen : (payloadOf (bytesOf (.prim .long) generation)).length = 24 := by
    rw [length_payloadOf]
    rfl
  exact congrArg (· % 8) hlen

end PipewireNative.Marshal
