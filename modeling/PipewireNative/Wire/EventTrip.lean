import PipewireNative.Wire.Fds
import PipewireNative.Wire.Grow

/-!
Events that the server encoded, decoded by the client with the descriptors they refer to.
-/

namespace PipewireNative.Wire

open Lib Prog Pod
open Frame (FrameFds OwnedFd)

/-! ### What the server encodes -/

/-- The arguments of the event encoders. -/
inductive Sent where
  | transport (trigger completion : UInt32) (activation : RegionRef)
  | portSetParam (value : PortSetParam)
  | portUseBuffers (value : PortUseBuffers)
  | portSetIo (value : PortSetIo)
  | setActivation (nodeId : UInt32) (value : Option (UInt32 × RegionRef))
  | command (value : Command)

namespace Sent

def encode : Sent → Result (List UInt8)
  | transport trigger completion activation => encodeTransport trigger completion activation
  | portSetParam value => encodePortSetParam value
  | portUseBuffers value => encodePortUseBuffers value
  | portSetIo value => encodePortSetIo value
  | setActivation nodeId value => encodeSetActivation nodeId value
  | command value => encodeCommand value

def opcode : Sent → UInt8
  | transport .. => Opcode.transport
  | portSetParam _ => Opcode.portSetParam
  | portUseBuffers _ => Opcode.portUseBuffers
  | portSetIo _ => Opcode.portSetIo
  | setActivation .. => Opcode.setActivation
  | command _ => Opcode.command

/-- The descriptors that are referred to. -/
def references : Sent → List UInt32
  | transport trigger completion _ => [trigger, completion]
  | setActivation _ (some (fd, _)) => [fd]
  | _ => []

/-- What was encoded, as an event with descriptors of the table. -/
def event (fds : FrameFds) : Sent → Option Event
  | transport trigger completion activation => do
    let triggerFd ← fds[trigger.toNat]?.join
    let completionFd ← fds[completion.toNat]?.join
    some (.transport ⟨triggerFd, completionFd, activation⟩)
  | portSetParam value => some (.portSetParam value)
  | portUseBuffers value => some (.portUseBuffers value)
  | portSetIo value => some (.portSetIo value)
  | setActivation nodeId (some (fd, activation)) => do
    let signalFd ← fds[fd.toNat]?.join
    some (.setActivation (.set nodeId signalFd activation))
  | setActivation nodeId none => some (.setActivation (.remove nodeId))
  | command value => some (.command value)

/-- The decoder tells the value from others, and accepts it: an id is not the one that stands for
none, a mapping is not the region that stands for none, and a parameter is an object that is not too
long. -/
def Kept : Sent → Prop
  | portSetParam value =>
    ∀ pod ∈ value.param, pod.type = .object ∧ pod.size ≤ Limits.standard.maxPodBytes
  | portUseBuffers value => value.mixId ≠ some invalidId
  | portSetIo (.set _ _ mixId _ region) => mixId ≠ some invalidId ∧ ¬ region.IsClear
  | portSetIo (.clear _ _ mixId _) => mixId ≠ some invalidId
  | _ => True

end Sent

/-- The descriptors in the table are those of some indices. -/
def Holds (fds : FrameFds) (indices : List UInt32) : Prop :=
  ∀ n, (∃ fd, fds[n]? = some (some fd)) ↔ ∃ i ∈ indices, i.toNat = n

lemma Holds.required_iff {fds : FrameFds} {indices : List UInt32} (h : Holds fds indices) :
    Required fds indices ↔ fds.length = indices.length ∧ indices.Nodup :=
  ⟨fun hr => ⟨hr.length, hr.nodup⟩, fun hr => ⟨hr.1, hr.2, fun i hi => (h i.toNat).2 ⟨i, hi, rfl⟩⟩⟩

/-! ### The bytes of events -/

def regionBytes (region : RegionRef) : List UInt8 :=
  intBytes region.memoryId ++ (intBytes region.offset ++ intBytes region.size)

def metaBytes (value : MetaDescriptor) : List UInt8 := idBytes value.typeId ++ intBytes value.size

def dataBytes (data : DataDescriptor) : List UInt8 :=
  idBytes data.typeId ++ (intBytes data.dataId ++ (intBytes data.flags ++
    (intBytes data.mapOffset ++ intBytes data.maxSize)))

def bufferBytes (buffer : BufferDescriptor) : List UInt8 :=
  regionBytes buffer.metadata ++ (countBytes buffer.metas.length ++
    (buffer.metas.flatMap metaBytes ++ (countBytes buffer.datas.length ++
      buffer.datas.flatMap dataBytes)))

/-- A parameter, or that there is none. -/
def paramBytes : Option RawPod → List UInt8
  | some param => param.data
  | none => noneBytes

lemma pushRegion_writes (region : RegionRef) : Writes (pushRegion region) (regionBytes region) :=
  (pushInt_writes _).bind ((pushInt_writes _).bind (pushInt_writes _))

lemma pushMeta_writes (value : MetaDescriptor) : Writes (pushMeta value) (metaBytes value) :=
  (pushId_writes _).bind (pushInt_writes _)

lemma pushData_writes (data : DataDescriptor) : Writes (pushData data) (dataBytes data) :=
  (pushId_writes _).bind ((pushInt_writes _).bind ((pushInt_writes _).bind
    ((pushInt_writes _).bind (pushInt_writes _))))

lemma pushBuffer_writes (buffer : BufferDescriptor) :
    Writes (pushBuffer buffer) (bufferBytes buffer) :=
  (pushRegion_writes _).bind ((pushCount_writes _).bind ((pushEach_writes pushMeta_writes _).bind
    ((pushCount_writes _).bind (pushEach_writes pushData_writes _))))

lemma pushParam_writes (param : Option RawPod) : Writes (pushParam param) (paramBytes param) := by
  cases param with
  | none => exact pushNone_writes
  | some pod => exact pushRaw_writes pod

lemma encodePayload_eq_ok {build : Build} {bytes payload : List UInt8} (h : Writes build bytes)
    (hpayload : encodePayload build = .ok payload) :
    payload = payloadOf bytes ∧ bytes.length % 8 = 0 ∧ bytes.length < 2 ^ 32 := by
  obtain ⟨last, -, hlast, hrun⟩ := run_of_encodeFrom hpayload
  rw [h.run_struct, List.length_replicate] at hrun
  split_ifs at hrun with hle
  refine ⟨(Except.ok.inj hrun).symm, h.1, ?_⟩
  unfold initialEncodeCapacity maxEncodeCapacity at hlast
  omega

/-- The buffer grows until it is long enough for the payload, if it can become so. -/
lemma encodeFrom_of_le {build : Build} {bytes : List UInt8} (h : Writes build bytes)
    (hle : 8 + bytes.length ≤ maxEncodeCapacity) {capacity : ℕ} {hpos : 0 < capacity} :
    encodeFrom build capacity hpos = .ok (payloadOf bytes) := by
  induction capacity, hpos using encodeFrom.induct build with
  | case1 capacity hpos out hrun =>
    rw [encodeFrom, hrun]
    rw [h.run_struct] at hrun
    split_ifs at hrun
    exact congrArg _ (Except.ok.inj hrun).symm
  | case2 capacity hpos hrun hlt ih =>
    rw [encodeFrom, hrun]
    simp only [if_pos hlt]
    exact ih
  | case3 capacity hpos hrun hlt =>
    rw [h.run_struct, List.length_replicate, if_pos (by omega)] at hrun
    cases hrun
  | case4 capacity hpos f hne hrun =>
    rw [h.run_struct] at hrun
    split_ifs at hrun
    exact (hne (Except.error.inj hrun).symm).elim

lemma encodePayload_of_le {build : Build} {bytes : List UInt8} (h : Writes build bytes)
    (hle : 8 + bytes.length ≤ maxEncodeCapacity) : encodePayload build = .ok (payloadOf bytes) :=
  encodeFrom_of_le h hle

lemma parsePayload_of_writes {α : Type} {build : Build} {parse : Parse α}
    {bytes payload : List UInt8} {a : α} (hpayload : encodePayload build = .ok payload)
    (hwrites : Writes build bytes) (hreads : Reads parse bytes a) :
    parsePayload payload parse = .ok a := by
  obtain ⟨rfl, hmod, hlen⟩ := encodePayload_eq_ok hwrites hpayload
  exact parsePayload_of_reads hreads hmod hlen

/-! ### Reading regions and descriptors -/

lemma popRegion_reads (region : RegionRef) : Reads popRegion (regionBytes region) region :=
  (popInt_reads _).bind ((popInt_reads _).bind ((popInt_reads _).map _))

lemma popWholeRegion_reads {region : RegionRef} (h : rejectPartialClear region = .ok ()) :
    Reads popWholeRegion (regionBytes region) region :=
  (popRegion_reads region).bind_nil ((Reads.ofExcept h).map _)

lemma popMeta_reads (value : MetaDescriptor) : Reads popMeta (metaBytes value) value :=
  (popId_reads _).bind ((popInt_reads _).map _)

lemma popData_reads {data : DataDescriptor} (h : validateData data = .ok ()) :
    Reads popData (dataBytes data) data :=
  (popId_reads _).bind ((popInt_reads _).bind ((popInt_reads _).bind ((popInt_reads _).bind
    ((popInt_reads _).bind_nil ((Reads.ofExcept h).map _)))))

lemma checkEach_eq_ok {α : Type} {check : α → Result Unit} {vs : List α} :
    checkEach check vs = .ok () ↔ ∀ v ∈ vs, check v = .ok () := by
  induction vs with
  | nil => simp [checkEach]
  | cons v vs ih =>
    unfold checkEach
    simp only [except_bind_eq_ok, ih, List.forall_mem_cons]
    exact ⟨fun ⟨_, h⟩ => h, fun h => ⟨(), h⟩⟩

lemma popBuffer_reads {limits : Limits} {buffer : BufferDescriptor}
    (h : validateBuffer limits buffer = .ok ()) :
    Reads (popBuffer limits) (bufferBytes buffer) buffer := by
  obtain ⟨⟨⟩, hregion, h⟩ := except_bind_eq_ok.1 h
  obtain ⟨⟨⟩, hmetas, h⟩ := except_bind_eq_ok.1 h
  obtain ⟨⟨⟩, hdatas, h⟩ := except_bind_eq_ok.1 h
  obtain ⟨hmetas, hmetas'⟩ := ensureCount_eq_ok.1 hmetas
  obtain ⟨hdatas, hdatas'⟩ := ensureCount_eq_ok.1 hdatas
  have hdata : ∀ data ∈ buffer.datas, Reads popData (dataBytes data) data := fun data hmem =>
    popData_reads (mapError_eq_ok.1 (checkEach_eq_ok.1 h data hmem))
  exact (popWholeRegion_reads (mapError_eq_ok.1 hregion)).bind
    ((popCount_reads hmetas hmetas').bind
      ((popEach_reads fun value _ => popMeta_reads value).bind
        ((popCount_reads hdatas hdatas').bind ((popEach_reads hdata).map _))))

/-! ### Indices -/

lemma toInt_toInt32 {x : UInt32} (h : x.toNat < 2 ^ 31) : x.toInt32.toInt = x.toNat := by
  change x.toBitVec.toInt = _
  rw [BitVec.toInt_eq_toNat_of_lt (by simp only [UInt32.toNat_toBitVec]; omega)]
  rfl

lemma tryI32_eq_ok {x : UInt32} {message : String} {y : Int32} (h : tryI32 x message = .ok y) :
    y = x.toInt32 ∧ x.toNat < 2 ^ 31 := by
  obtain ⟨⟨⟩, hlt, hy⟩ := except_bind_eq_ok.1 h
  have hle := rejectIf_eq_ok.1 hlt
  unfold i32Max at hle
  exact ⟨(Except.ok.inj hy).symm, by omega⟩

lemma tryU32_toInt64 {x : UInt32} (h : x.toNat < 2 ^ 31) :
    tryU32 x.toInt32.toInt64 = some x := by
  have hint : x.toInt32.toInt64.toInt = x.toNat := by
    rw [Int32.toInt_toInt64, toInt_toInt32 h]
  unfold tryU32
  rw [hint, if_pos (by omega), Int.toNat_natCast, UInt32.ofNat_toNat]

lemma toInt64_ne_neg_one {x : UInt32} (h : x.toNat < 2 ^ 31) : x.toInt32.toInt64 ≠ -1 := by
  intro heq
  have htry := tryU32_toInt64 h
  rw [heq] at htry
  cases htry

lemma popIndex_reads {x : UInt32} (h : x.toNat < 2 ^ 31) {α : Type} {f : UInt32 → Parse α}
    {bytes : List UInt8} {a : α} (hf : Reads (f x) bytes a) :
    Reads (popFd >>= fun fd => .ofExcept (podFdIndex fd) >>= f) (fdBytes x.toInt32 ++ bytes) a := by
  refine (popFd_reads x.toInt32).bind ((Reads.ofExcept ?_).nil_bind hf)
  rw [podFdIndex, tryU32_toInt64 h]

/-! ### The events one by one -/

section Events

variable {payload : List UInt8} {fds : FrameFds}

lemma decodePlain_eq_ok {parse : Parse Event} {event : Event} :
    (decodePlain payload parse fds).1 = .ok event ↔
      Required fds [] ∧ parsePayload payload parse = .ok event := by
  unfold decodePlain
  rcases requireFds_run fds [] with ⟨hrequired, hrun⟩ | ⟨hnot, e, hrun⟩
  · rw [bind_ok hrun]
    exact (and_iff_right hrequired).symm
  · rw [bind_error hrun]
    simp [hnot]

lemma decode_transport {trigger completion : UInt32} {activation : RegionRef}
    (h : encodeTransport trigger completion activation = .ok payload) :
    decodeEvent Opcode.transport payload .standard fds =
      takeTransport trigger completion activation fds := by
  obtain ⟨⟨⟩, hregion, h⟩ := except_bind_eq_ok.1 h
  obtain ⟨_, htrigger, h⟩ := except_bind_eq_ok.1 h
  obtain ⟨_, hcompletion, h⟩ := except_bind_eq_ok.1 h
  obtain ⟨rfl, hlt⟩ := tryI32_eq_ok htrigger
  obtain ⟨rfl, hlt'⟩ := tryI32_eq_ok hcompletion
  have hparse : parsePayload payload popTransport = .ok (trigger, completion, activation) :=
    parsePayload_of_writes h
      ((pushFd_writes _).bind ((pushFd_writes _).bind (pushRegion_writes activation)))
      (popIndex_reads hlt (popIndex_reads hlt'
        ((popWholeRegion_reads (mapError_eq_ok.1 hregion)).map _)))
  rw [decodeEvent, if_pos rfl, ofExcept_bind hparse]

lemma popPortUseBuffers_reads {value : PortUseBuffers} {limits : Limits}
    (h : validatePortUseBuffers value limits = .ok ()) :
    Reads (popPortUseBuffers limits) (intBytes value.direction.code ++ (intBytes value.portId ++
      (intBytes (wireId value.mixId) ++ (intBytes value.flags ++ (countBytes value.buffers.length ++
        value.buffers.flatMap bufferBytes)))))
      (.portUseBuffers { value with mixId := optionalId (wireId value.mixId) }) := by
  obtain ⟨⟨⟩, hflags, h⟩ := except_bind_eq_ok.1 h
  obtain ⟨⟨⟩, hcount, h⟩ := except_bind_eq_ok.1 h
  obtain ⟨hcount, hcount'⟩ := ensureCount_eq_ok.1 hcount
  have hbuffers : ∀ b ∈ value.buffers, Reads (popBuffer limits) (bufferBytes b) b :=
    fun b hb => popBuffer_reads (checkEach_eq_ok.1 h b hb)
  exact (popDirection_reads _).bind ((popInt_reads _).bind ((popInt_reads _).bind
    ((popInt_reads _).bind ((Reads.failIf (rejectIf_eq_ok.1 hflags)).nil_bind
      ((popCount_reads hcount hcount').bind ((popEach_reads hbuffers).map _))))))

lemma optionalId_wireId (id : Option UInt32) : optionalId (wireId id) = id ↔ id ≠ some invalidId := by
  cases id with
  | none => simp [optionalId, wireId]
  | some id =>
    by_cases h : id = invalidId
    · simp [optionalId, wireId, h]
    · simp [optionalId, wireId, h]

lemma decode_portUseBuffers {value : PortUseBuffers}
    (h : encodePortUseBuffers value = .ok payload) :
    (decodeEvent Opcode.portUseBuffers payload .standard fds).1 = .ok (.portUseBuffers value) ↔
      Required fds [] ∧ value.mixId ≠ some invalidId := by
  obtain ⟨⟨⟩, hvalid, h⟩ := except_bind_eq_ok.1 h
  have hparse := parsePayload_of_writes h ((pushInt_writes _).bind ((pushInt_writes _).bind
    ((pushInt_writes _).bind ((pushInt_writes _).bind ((pushCount_writes _).bind
      (pushEach_writes pushBuffer_writes value.buffers)))))) (popPortUseBuffers_reads hvalid)
  have hevent : Event.portUseBuffers { value with mixId := optionalId (wireId value.mixId) } =
      .portUseBuffers value ↔ optionalId (wireId value.mixId) = value.mixId := by
    obtain ⟨direction, portId, mixId, flags, buffers⟩ := value
    simp
  rw [decodeEvent, if_neg (by decide), if_neg (by decide), if_pos rfl, decodePlain_eq_ok, hparse,
    Except.ok.injEq, hevent, optionalId_wireId]

lemma parse_encodeIo {direction : Direction} {portId : UInt32} {mixId : Option UInt32}
    {ioId : UInt32} {region : RegionRef}
    (h : encodeIo direction portId mixId ioId region = .ok payload) :
    parsePayload payload popPortSetIo = .ok (.portSetIo (if region.IsClear then
      .clear direction portId (optionalId (wireId mixId)) ioId
      else .set direction portId (optionalId (wireId mixId)) ioId region)) := by
  obtain ⟨⟨⟩, hio, h⟩ := except_bind_eq_ok.1 h
  obtain ⟨⟨⟩, hregion, h⟩ := except_bind_eq_ok.1 h
  have hlast : Reads (if region.IsClear
      then pure (.portSetIo (.clear direction portId (optionalId (wireId mixId)) ioId))
      else .ofExcept (rejectPartialClear region) >>= fun _ =>
        pure (.portSetIo (.set direction portId (optionalId (wireId mixId)) ioId region)) :
      Parse Event) [] (.portSetIo (if region.IsClear then
        .clear direction portId (optionalId (wireId mixId)) ioId
        else .set direction portId (optionalId (wireId mixId)) ioId region)) := by
    unfold checkRegion at hregion
    split_ifs at hregion ⊢ with hclear
    · exact .pure _
    · exact (Reads.ofExcept (mapError_eq_ok.1 hregion)).map _
  exact parsePayload_of_writes h ((pushInt_writes _).bind ((pushInt_writes _).bind
    ((pushInt_writes _).bind ((pushId_writes _).bind (pushRegion_writes region)))))
    ((popDirection_reads _).bind ((popInt_reads _).bind ((popInt_reads _).bind
      ((popId_reads _).bind ((Reads.failIf (rejectIf_eq_ok.1 hio)).nil_bind
        ((popRegion_reads region).bind_nil hlast))))))

lemma decode_portSetIo {value : PortSetIo} (h : encodePortSetIo value = .ok payload) :
    (decodeEvent Opcode.portSetIo payload .standard fds).1 = .ok (.portSetIo value) ↔
      Required fds [] ∧ (Sent.portSetIo value).Kept := by
  rw [decodeEvent, if_neg (by decide), if_neg (by decide), if_neg (by decide), if_pos rfl,
    decodePlain_eq_ok]
  refine and_congr_right fun _ => ?_
  cases value with
  | set direction portId mixId ioId region =>
    rw [parse_encodeIo h]
    by_cases hclear : region.IsClear
    · simp [Sent.Kept, hclear]
    · simp [Sent.Kept, hclear, optionalId_wireId]
  | clear direction portId mixId ioId =>
    have hclear : clearRegion.IsClear := ⟨rfl, rfl, rfl⟩
    rw [parse_encodeIo h]
    simp [Sent.Kept, hclear, optionalId_wireId]

lemma decode_setActivation {nodeId : UInt32} {value : Option (UInt32 × RegionRef)}
    (h : encodeSetActivation nodeId value = .ok payload) :
    decodeEvent Opcode.setActivation payload .standard fds =
      match value with
      | some (index, activation) => takeSignal nodeId index activation fds
      | none => (requireFds [] >>= fun _ => pure (.setActivation (.remove nodeId)) :
          Prog FrameFds Fault Event) fds := by
  have hparse : ∀ {fd : Int32} {region : RegionRef},
      encodePayload (pushSetActivation nodeId fd region) = .ok payload →
      parsePayload payload popSetActivation = .ok (nodeId, fd.toInt64, region) := by
    intro fd region h
    exact parsePayload_of_writes h
      ((pushInt_writes _).bind ((pushFd_writes _).bind (pushRegion_writes region)))
      ((popInt_reads _).bind ((popFd_reads _).bind ((popRegion_reads region).map _)))
  have hdecode : ∀ {fd : Int32} {region : RegionRef},
      encodePayload (pushSetActivation nodeId fd region) = .ok payload →
      decodeEvent Opcode.setActivation payload .standard fds =
        takeActivation nodeId fd.toInt64 region fds := by
    intro fd region h
    rw [decodeEvent, if_neg (by decide), if_neg (by decide), if_neg (by decide),
      if_neg (by decide), if_pos rfl, ofExcept_bind (hparse h)]
  cases value with
  | none =>
    have hclear : (-1 : Int32).toInt64 = -1 ∧ clearRegion.IsClear := ⟨by decide, rfl, rfl, rfl⟩
    rw [hdecode h, takeActivation, if_pos hclear]
  | some value =>
    obtain ⟨index, activation⟩ := value
    obtain ⟨⟨⟩, hregion, h⟩ := except_bind_eq_ok.1 h
    obtain ⟨_, hindex, h⟩ := except_bind_eq_ok.1 h
    obtain ⟨rfl, hlt⟩ := tryI32_eq_ok hindex
    have hfd : fdIndex index.toInt32.toInt64 = .ok index := by
      rw [fdIndex, tryU32_toInt64 hlt]
    rw [hdecode h, takeActivation, if_neg fun hc => toInt64_ne_neg_one hlt hc.1,
      ofExcept_bind hregion, ofExcept_bind hfd]

lemma popFormat_gives : Gives popFormat fun param =>
    (∀ pod ∈ param, pod.type = .object) ∧ checkParam param = .ok () := by
  refine gives_bind fun pod => ?_
  split
  · exact gives_pure ⟨fun _ h => absurd h (Option.not_mem_none _), rfl⟩
  · rename_i htype
    have hwrap := pod.wrap_data []
    rw [List.append_nil] at hwrap
    refine gives_ofExcept_bind fun _ hformat => gives_ofExcept_bind fun param hparam => ?_
    obtain rfl : pod = param := Except.ok.inj (hwrap.symm.trans hparam)
    exact gives_pure ⟨fun pod hpod => by rwa [← Option.mem_some.1 hpod], mapError_eq_ok.2 hformat⟩
  · exact gives_fail

lemma popPortSetParam_sound (limits : Limits) : Gives (popPortSetParam limits) fun event =>
    ∃ value, event = .portSetParam value ∧ value.paramId = spaParamFormat ∧
      checkParam value.param = .ok () ∧
        ∀ pod ∈ value.param, pod.type = .object ∧ pod.size ≤ limits.maxPodBytes := by
  refine gives_bind fun direction => gives_bind fun portId => gives_bind fun paramId =>
    gives_failIf fun hid => gives_bind fun flags => popFormat_gives.bind fun param hparam =>
      gives_failIf fun hsize => gives_pure ⟨_, rfl, not_not.1 hid, hparam.2, fun pod hpod => ?_⟩
  refine ⟨hparam.1 pod hpod, ?_⟩
  by_contra hlarge
  exact hsize ⟨pod, hpod, Nat.lt_of_not_le hlarge⟩

lemma popFormat_reads {param : Option RawPod} (htype : ∀ pod ∈ param, pod.type = .object)
    (hcheck : checkParam param = .ok ()) : Reads popFormat (paramBytes param) param := by
  cases param with
  | none => exact (Reads.popRawPod (.of 0 .none [] [] (by decide) rfl rfl)).bind_nil (.pure none)
  | some pod =>
    have hwrap := pod.wrap_data []
    rw [List.append_nil] at hwrap
    refine (Reads.popRawPod pod).bind_nil ?_
    rw [htype pod rfl]
    exact (Reads.ofExcept (mapError_eq_ok.1 hcheck)).nil_bind ((Reads.ofExcept hwrap).map some)

lemma decode_portSetParam {value : PortSetParam} (h : encodePortSetParam value = .ok payload) :
    (decodeEvent Opcode.portSetParam payload .standard fds).1 = .ok (.portSetParam value) ↔
      Required fds [] ∧ (Sent.portSetParam value).Kept := by
  obtain ⟨⟨⟩, hid, h⟩ := except_bind_eq_ok.1 h
  obtain ⟨⟨⟩, hcheck, h⟩ := except_bind_eq_ok.1 h
  rw [decodeEvent, if_neg (by decide), if_pos rfl, decodePlain_eq_ok]
  refine and_congr_right fun _ => ⟨fun hparse => ?_, fun hkept => ?_⟩
  · obtain ⟨_, hvalue, -, -, hkept⟩ := (popPortSetParam_sound .standard).payload hparse
    cases hvalue
    exact hkept
  · have hsize : ¬ ∃ pod ∈ value.param, Limits.standard.maxPodBytes < pod.size := by
      rintro ⟨pod, hpod, hlt⟩
      exact Nat.not_le_of_lt hlt (hkept pod hpod).2
    exact parsePayload_of_writes h ((pushInt_writes _).bind ((pushInt_writes _).bind
      ((pushId_writes _).bind ((pushInt_writes _).bind (pushParam_writes value.param)))))
      ((popDirection_reads _).bind ((popInt_reads _).bind ((popId_reads _).bind
        ((Reads.failIf (rejectIf_eq_ok.1 hid)).nil_bind ((popInt_reads _).bind
          ((popFormat_reads (fun pod hpod => (hkept pod hpod).1) hcheck).bind_nil
            ((Reads.failIf hsize).map _)))))))

/-- The pod of a command. -/
def commandRaw (command : Command) : RawPod :=
  .of 8 .object (word 0x30002 ++ word command.code.toNat) [] (by decide) rfl rfl

lemma decode_command {command : Command} (h : encodeCommand command = .ok payload) :
    (decodeEvent Opcode.command payload .standard fds).1 = .ok (.command command) ↔
      Required fds [] := by
  have hpod : commandPod command = .ok (commandRaw command) := by
    have hwrap := (commandRaw command).wrap_data []
    exact mapError_eq_ok.2 hwrap
  have hdecode : decodeCommand (commandRaw command).data = .ok command := by
    cases command <;> rfl
  rw [encodeCommand, hpod, except_ok_bind] at h
  have hparse : parsePayload payload popCommand = .ok (.command command) :=
    parsePayload_of_writes h (pushRaw_writes _)
      ((Reads.popRawPod _).bind_nil ((Reads.ofExcept hdecode).map _))
  rw [decodeEvent, if_neg (by decide), if_neg (by decide), if_neg (by decide), if_neg (by decide),
    if_neg (by decide), if_pos rfl, decodePlain_eq_ok]
  exact and_iff_left hparse

end Events

/-! ### All of them -/

/-- A program that needs descriptors of the table comes back with an event exactly when it finds
them. -/
lemma event_iff {fds : FrameFds} {run : Result Event × FrameFds} {indices : List UInt32}
    {event : Option Event} (hok : ∀ e, run.1 = .ok e → Required fds indices)
    (hrequired : Required fds indices → ∃ e, event = some e ∧ run.1 = .ok e) :
    (∃ e, event = some e ∧ run.1 = .ok e) ↔ Required fds indices :=
  ⟨fun ⟨e, _, he⟩ => hok e he, hrequired⟩

lemma takeTransport_iff (fds : FrameFds) (trigger completion : UInt32) (activation : RegionRef) :
    (∃ event, (Sent.transport trigger completion activation).event fds = some event ∧
        (takeTransport trigger completion activation fds).1 = .ok event) ↔
      Required fds [trigger, completion] := by
  refine event_iff (fun event hok => ?_) fun hrequired => ?_
  · have hends := takeTransport_ends fds trigger completion activation
    exact (hends.run_ok (Prod.ext hok rfl)).required
  · obtain ⟨fd, fd', hfd, hfd', hrun⟩ := takeTransport_run hrequired activation
    refine ⟨.transport ⟨fd, fd', activation⟩, ?_, by rw [hrun]⟩
    simp [Sent.event, hfd, hfd']

lemma takeSignal_iff (fds : FrameFds) (nodeId index : UInt32) (activation : RegionRef) :
    (∃ event, (Sent.setActivation nodeId (some (index, activation))).event fds = some event ∧
        (takeSignal nodeId index activation fds).1 = .ok event) ↔ Required fds [index] := by
  refine event_iff (fun event hok => ?_) fun hrequired => ?_
  · have hends := takeSignal_ends fds nodeId index activation
    exact (hends.run_ok (Prod.ext hok rfl)).required
  · obtain ⟨fd, hfd, hrun⟩ := takeSignal_run hrequired nodeId activation
    refine ⟨.setActivation (.set nodeId fd activation), ?_, by rw [hrun]⟩
    simp [Sent.event, hfd]

lemma removeSignal_iff (fds : FrameFds) (nodeId : UInt32) :
    (∃ event, (Sent.setActivation nodeId none).event fds = some event ∧
        ((requireFds [] >>= fun _ => pure (.setActivation (.remove nodeId)) :
          Prog FrameFds Fault Event) fds).1 = .ok event) ↔ Required fds [] := by
  rcases requireFds_run fds [] with ⟨hrequired, hrun⟩ | ⟨hnot, e, hrun⟩
  · rw [bind_ok hrun]
    exact event_iff (fun _ _ => hrequired) fun _ => ⟨_, rfl, rfl⟩
  · rw [bind_error hrun]
    exact event_iff (fun _ hok => nomatch hok) fun hrequired => absurd hrequired hnot

/-- What is encoded comes back exactly when the table is as required and the value is kept. -/
lemma Sent.returns_iff {v : Sent} {payload : List UInt8} {fds : FrameFds}
    (h : v.encode = .ok payload) :
    (∃ event, v.event fds = some event ∧
        (decodeEvent v.opcode payload .standard fds).1 = .ok event) ↔
      Required fds v.references ∧ v.Kept := by
  have hplain : ∀ {event : Event} {run : Result Event},
      (∃ e, some event = some e ∧ run = .ok e) ↔ run = .ok event := by
    intro event run
    simp
  cases v with
  | transport trigger completion activation =>
    rw [opcode, decode_transport h, takeTransport_iff]
    exact (and_iff_left trivial).symm
  | portSetParam value => exact hplain.trans (decode_portSetParam h)
  | portUseBuffers value => exact hplain.trans (decode_portUseBuffers h)
  | portSetIo value => exact hplain.trans (decode_portSetIo h)
  | setActivation nodeId value =>
    rw [opcode, decode_setActivation h]
    cases value with
    | none => exact (removeSignal_iff fds nodeId).trans (and_iff_left trivial).symm
    | some value => exact (takeSignal_iff fds nodeId _ _).trans (and_iff_left trivial).symm
  | command value => exact hplain.trans ((decode_command h).trans (and_iff_left trivial).symm)

/-- **Events are decoded as they were encoded** exactly when they are kept, no descriptor is
referred to twice, and the table has no entry that was taken before. -/
theorem Sent.decodeEvent_iff (v : Sent) (payload : List UInt8) (fds : FrameFds)
    (h : v.encode = .ok payload) (hfds : Holds fds v.references) :
    (∃ event, v.event fds = some event ∧
        (decodeEvent v.opcode payload .standard fds).1 = .ok event) ↔
      (fds.length = v.references.length ∧ v.references.Nodup) ∧ v.Kept := by
  rw [← hfds.required_iff]
  exact v.returns_iff h

/-- The mapping of an I/O area for the mix whose id stands for none. -/
def mixIo : PortSetIo := .set .input 0 (some invalidId) spaIoBuffers ⟨0, 0, 8⟩

/-- The mix is lost on the way. -/
theorem decodeEvent_mixIo : ∃ payload, encodePortSetIo mixIo = .ok payload ∧
    (decodeEvent Opcode.portSetIo payload .standard []).1 =
      .ok (.portSetIo (.set .input 0 none spaIoBuffers ⟨0, 0, 8⟩)) := by
  have hio : encodePortSetIo mixIo =
      encodePayload (pushPortSetIo .input 0 (some invalidId) spaIoBuffers ⟨0, 0, 8⟩) := by
    have hcheck : checkRegion ⟨0, 0, 8⟩ = .ok () := by decide
    rw [mixIo, encodePortSetIo, encodeIo, rejectIf_bind (by simp), hcheck, except_ok_bind]
  have hencode := hio.trans (encodePayload_of_le ((pushInt_writes _).bind ((pushInt_writes _).bind
    ((pushInt_writes _).bind ((pushId_writes _).bind (pushRegion_writes _))))) (by decide))
  have hparse := @parse_encodeIo _ _ _ (some invalidId) _ _ hencode
  refine ⟨_, hencode, ?_⟩
  rw [decodeEvent, if_neg (by decide), if_neg (by decide), if_neg (by decide), if_pos rfl,
    decodePlain_eq_ok]
  exact ⟨⟨rfl, List.nodup_nil, fun _ h => absurd h List.not_mem_nil⟩, hparse⟩

def twoFds : FrameFds := [some ⟨20, by decide⟩, some ⟨21, by decide⟩]

/-- A transport, which refers to two descriptors, the second one first. -/
theorem decodeEvent_transport : ∃ payload, encodeTransport 1 0 ⟨3, 4096, 2048⟩ = .ok payload ∧
    (decodeEvent Opcode.transport payload .standard twoFds).1 =
      .ok (.transport ⟨⟨21, by decide⟩, ⟨20, by decide⟩, ⟨3, 4096, 2048⟩⟩) := by
  have hencode : encodeTransport 1 0 ⟨3, 4096, 2048⟩ = .ok _ :=
    encodePayload_of_le ((pushFd_writes 1).bind ((pushFd_writes 0).bind (pushRegion_writes _)))
      (by decide)
  have hholds : Holds twoFds (Sent.transport 1 0 ⟨3, 4096, 2048⟩).references := by
    rintro (_ | _ | n) <;> simp [twoFds, Sent.references]
  obtain ⟨_, hevent, hok⟩ := (Sent.decodeEvent_iff (.transport 1 0 ⟨3, 4096, 2048⟩) _ _ hencode
    hholds).2 ⟨⟨rfl, by decide⟩, trivial⟩
  cases hevent
  exact ⟨_, hencode, hok⟩

end PipewireNative.Wire
