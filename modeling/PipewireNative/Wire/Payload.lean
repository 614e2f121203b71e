import PipewireNative.Wire.Bytes

/-!
The bytes of the methods, and what comes of pushing them into a buffer: the payload if it fits, and
a panic where the buffer ends in the header of the information that ends the payload.
-/

namespace PipewireNative.Wire

open Lib Lib.Word Prog Pod

/-! ### The bytes of methods -/

def pairBytes (pair : String × String) : List UInt8 := stringBytes pair.1 ++ stringBytes pair.2

def paramInfoBytes (param : ParamInfo) : List UInt8 := idBytes param.id ++ intBytes param.flags

def infoTailBytes (properties : List (String × String)) (params : List ParamInfo) : List UInt8 :=
  countBytes properties.length ++ (properties.flatMap pairBytes ++
    (countBytes params.length ++ params.flatMap paramInfoBytes))

def nodeInfoBytes (info : NodeInfo) : List UInt8 :=
  intBytes info.maxInputPorts ++ (intBytes info.maxOutputPorts ++ (longBytes info.written ++
    (longBytes info.flags ++ infoTailBytes info.writtenProperties info.writtenParams)))

def portInfoBytes (info : PortInfo) : List UInt8 :=
  longBytes (info.changeMask &&& portInfoChangeMask) ++ (longBytes info.flags ++
    (intBytes info.rateNum ++ (intBytes info.rateDenom ++
      infoTailBytes info.properties info.params)))

def paramsBytes (params : List RawPod) : List UInt8 :=
  countBytes params.length ++ params.flatMap RawPod.data

/-- Information as a struct, or that there is none. -/
def optionalBytes {α : Type} (bytes : α → List UInt8) : Option α → List UInt8
  | some info => payloadOf (bytes info)
  | none => noneBytes

namespace Method

def headBytes : Method → List UInt8
  | update value => intBytes value.changeMask ++ paramsBytes value.params
  | portUpdate value => intBytes value.direction.code ++ (intBytes value.portId ++
      (intBytes value.changeMask ++ paramsBytes value.params))
  | setActive value => boolBytes value.active

/-- The information that ends the payload. -/
def infoBytes : Method → List UInt8
  | update value => optionalBytes nodeInfoBytes value.info
  | portUpdate value => optionalBytes portInfoBytes value.info
  | setActive _ => []

/-- There is information. -/
def HasInfo : Method → Prop
  | update value => value.info.isSome
  | portUpdate value => value.info.isSome
  | setActive _ => False

instance : DecidablePred HasInfo
  | update value => inferInstanceAs (Decidable (value.info.isSome = true))
  | portUpdate value => inferInstanceAs (Decidable (value.info.isSome = true))
  | setActive _ => inferInstanceAs (Decidable False)

/-- The whole encoding. -/
def encoding (m : Method) : List UInt8 := payloadOf (m.headBytes ++ m.infoBytes)

/-- A buffer that ends in the header of the information. -/
def Tight (m : Method) (capacity : ℕ) : Prop :=
  m.HasInfo ∧ 8 + m.headBytes.length ≤ capacity ∧ capacity < 16 + m.headBytes.length

instance (m : Method) (capacity : ℕ) : Decidable (m.Tight capacity) :=
  inferInstanceAs (Decidable (_ ∧ _ ∧ _))

end Method

/-! ### They are what is pushed -/

lemma pushPair_writes (pair : String × String) : Writes (pushPair pair) (pairBytes pair) :=
  (pushString_writes pair.1).bind (pushString_writes pair.2)

lemma pushParamInfo_writes (param : ParamInfo) :
    Writes (pushParamInfo param) (paramInfoBytes param) :=
  (pushId_writes param.id).bind (pushInt_writes param.flags)

lemma pushInfoTail_writes (properties : List (String × String)) (params : List ParamInfo) :
    Writes (pushInfoTail properties params) (infoTailBytes properties params) :=
  (pushCount_writes _).bind ((pushEach_writes pushPair_writes properties).bind
    ((pushCount_writes _).bind (pushEach_writes pushParamInfo_writes params)))

lemma pushNodeInfo_writes (info : NodeInfo) : Writes (pushNodeInfo info) (nodeInfoBytes info) :=
  (pushInt_writes _).bind ((pushInt_writes _).bind ((pushLong_writes _).bind
    ((pushLong_writes _).bind (pushInfoTail_writes _ _))))

lemma pushPortInfo_writes (info : PortInfo) : Writes (pushPortInfo info) (portInfoBytes info) :=
  (pushLong_writes _).bind ((pushLong_writes _).bind ((pushInt_writes _).bind
    ((pushInt_writes _).bind (pushInfoTail_writes _ _))))

lemma pushParams_writes (params : List RawPod) :
    Writes (pushCount params.length >>= fun _ => pushEach pushRaw params) (paramsBytes params) :=
  (pushCount_writes _).bind (pushEach_writes pushRaw_writes params)

lemma run_optional {α : Type} {head : Build} {bytes : List UInt8} {push : α → Build}
    {info : α → List UInt8} (hhead : Writes head bytes) (hpush : ∀ i, Writes (push i) (info i))
    (i : Option α) (data : List UInt8) :
    Builder.run (Builder.pushStruct (head >>= fun _ => pushOptional push i)) data =
      if i.isSome ∧ 8 + bytes.length ≤ data.length ∧ data.length < 16 + bytes.length then
        .error .panic
      else if (payloadOf (bytes ++ optionalBytes info i)).length ≤ data.length then
        .ok (payloadOf (bytes ++ optionalBytes info i))
      else .error .noSpace := by
  cases i with
  | none =>
    have hrun := (hhead.bind pushNone_writes).run_struct data
    simp only [Option.isSome_none, Bool.false_eq_true, false_and, if_false]
    rw [length_payloadOf]
    exact hrun
  | some i =>
    have hrun := hhead.run_struct_tail (hpush i) data
    have hlen : (bytes ++ optionalBytes info (some i)).length =
        8 + bytes.length + (info i).length := by
      rw [List.length_append, optionalBytes, length_payloadOf]
      omega
    simp only [Option.isSome_some, true_and]
    rw [length_payloadOf, hlen, payloadOf, hlen,
      (by omega : 8 + (8 + bytes.length + (info i).length) =
        16 + bytes.length + (info i).length)]
    exact hrun

namespace Method

/-- **One attempt of the encoder.** -/
theorem run_push (m : Method) (data : List UInt8) :
    Builder.run (Builder.pushStruct m.push) data =
      if m.Tight data.length then .error .panic
      else if m.encoding.length ≤ data.length then .ok m.encoding
      else .error .noSpace := by
  cases m with
  | update value =>
    have hpush : (update value).push = (pushInt value.changeMask >>= fun _ =>
        pushCount value.params.length >>= fun _ => pushEach pushRaw value.params) >>= fun _ =>
          pushOptional pushNodeInfo value.info := by
      simp only [bind_assoc]
      rfl
    rw [hpush]
    exact run_optional ((pushInt_writes _).bind (pushParams_writes _)) pushNodeInfo_writes _ data
  | portUpdate value =>
    have hpush : (portUpdate value).push = (pushInt value.direction.code >>= fun _ =>
        pushInt value.portId >>= fun _ => pushInt value.changeMask >>= fun _ =>
        pushCount value.params.length >>= fun _ => pushEach pushRaw value.params) >>= fun _ =>
          pushOptional pushPortInfo value.info := by
      simp only [bind_assoc]
      rfl
    rw [hpush]
    exact run_optional ((pushInt_writes _).bind ((pushInt_writes _).bind ((pushInt_writes _).bind
      (pushParams_writes _)))) pushPortInfo_writes _ data
  | setActive value =>
    have hrun := (pushBool_writes value.active).run_struct data
    have htight : ¬ (setActive value).Tight data.length := fun h => h.1
    have hencoding : (setActive value).encoding = payloadOf (boolBytes value.active) := by
      simp only [encoding, headBytes, infoBytes, List.append_nil]
    rw [if_neg htight, hencoding, length_payloadOf]
    exact hrun

lemma length_encoding (m : Method) :
    m.encoding.length = 8 + m.headBytes.length + m.infoBytes.length := by
  rw [encoding, length_payloadOf, List.length_append, Nat.add_assoc]

lemma HasInfo.lt_length {m : Method} (h : m.HasInfo) : 16 + m.headBytes.length ≤ m.encoding.length := by
  have hinfo : 8 ≤ m.infoBytes.length := by
    cases m with
    | update _ | portUpdate _ =>
      obtain ⟨info, hinfo⟩ := Option.isSome_iff_exists.1 h
      simp only [infoBytes, hinfo, optionalBytes, length_payloadOf]
      omega
    | setActive value => exact h.elim
  rw [length_encoding]
  omega

end Method

end PipewireNative.Wire
