import PipewireNative.Wire.EventTrip
import Mathlib.Algebra.Group.Action.Defs
import Mathlib.Algebra.Order.BigOperators.Group.List
import Mathlib.Algebra.Order.Ring.Nat

/-!
Events that were decoded, encoded again. A payload need not be what the server would have written;
the values that are read from it are values the encoders accept, and their payloads are short enough
for the largest buffer.
-/

namespace PipewireNative.Wire

open Lib Prog Pod
open Frame (FrameFds OwnedFd)

/-! ### Values that are read -/

lemma countOf_eq_ok {value : Int32} {max n : ℕ} {name : String}
    (h : countOf value max name = .ok n) : n ≤ max ∧ n ≤ i32Max := by
  obtain ⟨_, -, h⟩ := except_bind_eq_ok.1 h
  obtain ⟨_, hle, h⟩ := except_bind_eq_ok.1 h
  obtain rfl := Except.ok.inj h
  refine ⟨Nat.not_lt.1 (rejectIf_eq_ok.1 hle), ?_⟩
  have hlt := value.toInt_lt
  rw [← Int32.toNat_toInt]
  unfold i32Max
  omega

lemma popCount_gives (max : ℕ) (name : String) :
    Gives (popCount max name) fun n => ensureCount n max name = .ok () :=
  gives_bind fun _ => gives_ofExcept fun _ h => ensureCount_eq_ok.2 (countOf_eq_ok h)

lemma popEach_gives {α : Type} {pop : Parse α} {P : α → Prop} (h : Gives pop P) (n : ℕ) :
    Gives (popEach pop n) fun vs => vs.length = n ∧ ∀ v ∈ vs, P v := by
  induction n with
  | zero => exact gives_pure ⟨rfl, fun _ hv => absurd hv List.not_mem_nil⟩
  | succ n ih =>
    refine h.bind fun v hv => ih.bind fun vs hvs => gives_pure ⟨?_, ?_⟩
    · rw [List.length_cons, hvs.1]
    · exact List.forall_mem_cons.2 ⟨hv, hvs.2⟩

lemma popWholeRegion_gives :
    Gives popWholeRegion fun region => rejectPartialClear region = .ok () :=
  gives_bind fun _ => gives_ofExcept_bind fun _ h => gives_pure h

lemma popTransport_gives : Gives popTransport fun r => rejectPartialClear r.2.2 = .ok () :=
  gives_bind fun _ => gives_bind fun _ => gives_bind fun _ => gives_bind fun _ =>
    popWholeRegion_gives.bind fun _ h => gives_pure h

lemma popMeta_gives : Gives popMeta fun _ => True :=
  gives_bind fun _ => gives_bind fun _ => gives_pure trivial

lemma popData_gives : Gives popData fun data => validateData data = .ok () :=
  gives_bind fun _ => gives_bind fun _ => gives_bind fun _ => gives_bind fun _ =>
    gives_bind fun _ => gives_ofExcept_bind fun _ h => gives_pure h

lemma popBuffer_gives (limits : Limits) :
    Gives (popBuffer limits) fun buffer => validateBuffer limits buffer = .ok () := by
  refine popWholeRegion_gives.bind fun region hregion => (popCount_gives _ _).bind fun n hn =>
    (popEach_gives popMeta_gives n).bind fun metas hmetas =>
      (popCount_gives _ _).bind fun m hm =>
        (popEach_gives popData_gives m).bind fun datas hdatas => gives_pure ?_
  obtain ⟨rfl, -⟩ := hmetas
  obtain ⟨rfl, hdatas⟩ := hdatas
  unfold validateBuffer
  rw [mapError_eq_ok.2 hregion, except_ok_bind, hn, except_ok_bind, hm, except_ok_bind]
  exact checkEach_eq_ok.2 fun data hdata => mapError_eq_ok.2 (hdatas data hdata)

lemma optionalId_ne (id : UInt32) : optionalId id ≠ some invalidId := by
  unfold optionalId
  split_ifs with h
  · exact fun heq => h (Option.some.inj heq)
  · exact Option.some_ne_none _ ∘ Eq.symm

lemma popPortUseBuffers_sound (limits : Limits) : Gives (popPortUseBuffers limits) fun event =>
    ∃ value, event = .portUseBuffers value ∧ validatePortUseBuffers value limits = .ok () ∧
      value.mixId ≠ some invalidId := by
  refine gives_bind fun direction => gives_bind fun portId => gives_bind fun mixId =>
    gives_bind fun flags => gives_failIf fun hflags => (popCount_gives _ _).bind fun n hn =>
      (popEach_gives (popBuffer_gives limits) n).bind fun buffers hbuffers =>
        gives_pure ⟨_, rfl, ?_, optionalId_ne mixId⟩
  obtain ⟨rfl, hbuffers⟩ := hbuffers
  unfold validatePortUseBuffers
  rw [rejectIf_bind hflags, hn, except_ok_bind]
  exact checkEach_eq_ok.2 hbuffers

lemma popPortSetIo_sound : Gives popPortSetIo fun event =>
    ∃ direction portId mixId region, mixId ≠ some invalidId ∧
      (event = .portSetIo (.clear direction portId mixId spaIoBuffers) ∨
        event = .portSetIo (.set direction portId mixId spaIoBuffers region) ∧
          ¬ region.IsClear ∧ rejectPartialClear region = .ok ()) := by
  refine gives_bind fun direction => gives_bind fun portId => gives_bind fun mixId =>
    gives_bind fun ioId => gives_failIf fun hio => gives_bind fun region => ?_
  obtain rfl : ioId = spaIoBuffers := not_not.1 hio
  split_ifs with hclear
  · exact gives_pure ⟨_, _, _, region, optionalId_ne mixId, .inl rfl⟩
  · exact gives_ofExcept_bind fun _ hregion =>
      gives_pure ⟨_, _, _, _, optionalId_ne mixId, .inr ⟨rfl, hclear, hregion⟩⟩

lemma popCommand_sound : Gives popCommand fun event => ∃ value, event = .command value :=
  gives_bind fun _ => gives_bind fun _ => gives_pure ⟨_, rfl⟩

/-! ### How long their payloads are -/

section Lengths

lemma length_primBytes (p : Prim .plain) (v : p.Val) :
    (bytesOf (.prim p) v).length = frame p.podSize :=
  PodTy.Simple.length_plainBytes (t := .prim p) trivial v

@[simp] lemma length_intBytes (value : UInt32) : (intBytes value).length = 16 :=
  length_primBytes .int _

@[simp] lemma length_countBytes (n : ℕ) : (countBytes n).length = 16 := length_primBytes .int _

@[simp] lemma length_idBytes (value : UInt32) : (idBytes value).length = 16 :=
  length_primBytes (.id ()) _

@[simp] lemma length_fdBytes (value : Int32) : (fdBytes value).length = 16 :=
  length_primBytes .fd _

@[simp] lemma length_regionBytes (region : RegionRef) : (regionBytes region).length = 48 := by
  simp [regionBytes]

lemma length_flatMap_le {α : Type} {bytes : α → List UInt8} {vs : List α} {k n : ℕ}
    (hbytes : ∀ v ∈ vs, (bytes v).length ≤ k) (hn : vs.length ≤ n) :
    (vs.flatMap bytes).length ≤ n * k := by
  rw [List.length_flatMap]
  calc (vs.map fun v => (bytes v).length).sum
      ≤ (vs.map fun v => (bytes v).length).length • k :=
        List.sum_le_card_nsmul _ _ fun l hl => by
          obtain ⟨v, hv, rfl⟩ := List.mem_map.1 hl
          exact hbytes v hv
    _ ≤ n * k := by
        rw [List.length_map, smul_eq_mul]
        exact Nat.mul_le_mul_right k hn

lemma length_bufferBytes_le {buffer : BufferDescriptor}
    (h : validateBuffer .standard buffer = .ok ()) : (bufferBytes buffer).length ≤ 22608 := by
  obtain ⟨⟨⟩, -, h⟩ := except_bind_eq_ok.1 h
  obtain ⟨⟨⟩, hmetas, h⟩ := except_bind_eq_ok.1 h
  obtain ⟨⟨⟩, hdatas, -⟩ := except_bind_eq_ok.1 h
  have hmeta : (buffer.metas.flatMap metaBytes).length ≤ 64 * 32 :=
    length_flatMap_le (fun v _ => by simp [metaBytes]) (ensureCount_eq_ok.1 hmetas).1
  have hdata : (buffer.datas.flatMap dataBytes).length ≤ 256 * 80 :=
    length_flatMap_le (fun v _ => by simp [dataBytes]) (ensureCount_eq_ok.1 hdatas).1
  simp only [bufferBytes, List.length_append, length_regionBytes, length_countBytes]
  omega

lemma length_buffers_le {value : PortUseBuffers}
    (h : validatePortUseBuffers value .standard = .ok ()) :
    (value.buffers.flatMap bufferBytes).length ≤ 64 * 22608 := by
  obtain ⟨⟨⟩, -, h⟩ := except_bind_eq_ok.1 h
  obtain ⟨⟨⟩, hcount, h⟩ := except_bind_eq_ok.1 h
  exact length_flatMap_le (fun v hv => length_bufferBytes_le (checkEach_eq_ok.1 h v hv))
    (ensureCount_eq_ok.1 hcount).1

lemma length_paramBytes_le {param : Option RawPod}
    (h : ∀ pod ∈ param, pod.size ≤ Limits.standard.maxPodBytes) :
    (paramBytes param).length ≤ Limits.standard.maxPodBytes := by
  cases param with
  | none => decide
  | some pod => exact h pod rfl

end Lengths

/-! ### Encoders that accept them -/

lemma tryI32_of_lt {x : UInt32} {message : String} (h : x.toNat < 2 ^ 31) :
    tryI32 x message = .ok x.toInt32 := by
  unfold tryI32
  rw [rejectIf_bind (by unfold i32Max; omega)]
  rfl

lemma exists_encodeTransport {trigger completion : UInt32} {activation : RegionRef}
    (hregion : rejectPartialClear activation = .ok ()) (htrigger : trigger.toNat < 2 ^ 31)
    (hcompletion : completion.toNat < 2 ^ 31) :
    ∃ bytes, encodeTransport trigger completion activation = .ok bytes := by
  unfold encodeTransport
  rw [mapError_eq_ok.2 hregion, except_ok_bind, tryI32_of_lt htrigger, except_ok_bind,
    tryI32_of_lt hcompletion, except_ok_bind]
  exact ⟨_, encodePayload_of_le
    ((pushFd_writes _).bind ((pushFd_writes _).bind (pushRegion_writes activation)))
    (by simp [maxEncodeCapacity])⟩

lemma exists_encodePayload_setActivation (nodeId : UInt32) (fd : Int32) (region : RegionRef) :
    ∃ bytes, encodePayload (pushSetActivation nodeId fd region) = .ok bytes :=
  ⟨_, encodePayload_of_le
    ((pushInt_writes _).bind ((pushFd_writes _).bind (pushRegion_writes region)))
    (by simp [maxEncodeCapacity])⟩

lemma exists_encodeSetActivation {nodeId index : UInt32} {activation : RegionRef}
    (hregion : rejectPartialClear activation = .ok ()) (hindex : index.toNat < 2 ^ 31) :
    ∃ bytes, encodeSetActivation nodeId (some (index, activation)) = .ok bytes := by
  unfold encodeSetActivation
  simp only []
  rw [mapError_eq_ok.2 hregion, except_ok_bind, tryI32_of_lt hindex, except_ok_bind]
  exact exists_encodePayload_setActivation _ _ _

lemma exists_encodePortSetParam {value : PortSetParam} (hid : value.paramId = spaParamFormat)
    (hcheck : checkParam value.param = .ok ())
    (hsize : ∀ pod ∈ value.param, pod.size ≤ Limits.standard.maxPodBytes) :
    ∃ bytes, encodePortSetParam value = .ok bytes := by
  have hlen := length_paramBytes_le hsize
  unfold encodePortSetParam
  rw [rejectIf_bind (not_not.2 hid), hcheck, except_ok_bind]
  refine ⟨_, encodePayload_of_le ((pushInt_writes _).bind ((pushInt_writes _).bind
    ((pushId_writes _).bind ((pushInt_writes _).bind (pushParam_writes value.param))))) ?_⟩
  simp only [List.length_append, length_intBytes, length_idBytes]
  simp only [Limits.standard] at hlen
  unfold maxEncodeCapacity
  omega

lemma exists_encodePortUseBuffers {value : PortUseBuffers}
    (h : validatePortUseBuffers value .standard = .ok ()) :
    ∃ bytes, encodePortUseBuffers value = .ok bytes := by
  have hlen := length_buffers_le h
  unfold encodePortUseBuffers
  rw [h, except_ok_bind]
  refine ⟨_, encodePayload_of_le ((pushInt_writes _).bind ((pushInt_writes _).bind
    ((pushInt_writes _).bind ((pushInt_writes _).bind ((pushCount_writes _).bind
      (pushEach_writes pushBuffer_writes value.buffers)))))) ?_⟩
  simp only [List.length_append, length_intBytes, length_countBytes]
  unfold maxEncodeCapacity
  omega

lemma exists_encodeIo {direction : Direction} {portId : UInt32} {mixId : Option UInt32}
    {region : RegionRef} (h : checkRegion region = .ok ()) :
    ∃ bytes, encodeIo direction portId mixId spaIoBuffers region = .ok bytes := by
  unfold encodeIo
  rw [rejectIf_bind (not_not.2 rfl), h, except_ok_bind]
  exact ⟨_, encodePayload_of_le ((pushInt_writes _).bind ((pushInt_writes _).bind
    ((pushInt_writes _).bind ((pushId_writes _).bind (pushRegion_writes region)))))
    (by simp [maxEncodeCapacity])⟩

lemma exists_encodeCommand (command : Command) : ∃ bytes, encodeCommand command = .ok bytes := by
  have hpod : commandPod command = .ok (commandRaw command) :=
    mapError_eq_ok.2 ((commandRaw command).wrap_data [])
  unfold encodeCommand
  rw [hpod, except_ok_bind]
  exact ⟨_, encodePayload_of_le (pushRaw_writes _) (by cases command <;> decide)⟩

/-! ### Encoded again -/

/-- What the server has to encode for an event, with the indices of its descriptors. -/
def Event.sent : Event → List UInt32 → Option Sent
  | .transport value, [trigger, completion] =>
    some (.transport trigger completion value.activation)
  | .portSetParam value, [] => some (.portSetParam value)
  | .portUseBuffers value, [] => some (.portUseBuffers value)
  | .portSetIo value, [] => some (.portSetIo value)
  | .setActivation (.set nodeId _ activation), [index] =>
    some (.setActivation nodeId (some (index, activation)))
  | .setActivation (.remove nodeId), [] => some (.setActivation nodeId none)
  | .command value, [] => some (.command value)
  | _, _ => none

/-- An event that came with the descriptors of some indices is encoded with the same indices, and
what comes out is decoded to the same event and leaves the same table. -/
def Repeats (opcode : UInt8) (indices : List UInt32) (fds : FrameFds) (event : Event)
    (fds' : FrameFds) : Prop :=
  ∃ v bytes, event.sent indices = some v ∧ v.opcode = opcode ∧ v.encode = .ok bytes ∧
    decodeEvent opcode bytes .standard fds = (.ok event, fds')

section Repeats

variable {opcode : UInt8} {payload : List UInt8} {fds fds' : FrameFds} {event : Event}

lemma Required.toNat_lt {indices : List UInt32} (h : Required fds indices) {i : UInt32}
    (hi : i ∈ indices) : i.toNat < indices.length := by
  obtain ⟨_, hfd⟩ := h.present i hi
  rw [← h.length]
  exact (List.getElem?_eq_some_iff.1 hfd).1

lemma repeats_transport {trigger completion : UInt32} {activation : RegionRef}
    (hregion : rejectPartialClear activation = .ok ())
    (h : takeTransport trigger completion activation fds = (.ok event, fds')) :
    Repeats Opcode.transport [trigger, completion] fds event fds' := by
  have hrequired := ((takeTransport_ends fds trigger completion activation).run_ok h).required
  have htrigger := hrequired.toNat_lt (i := trigger) (by simp)
  have hcompletion := hrequired.toNat_lt (i := completion) (by simp)
  rw [List.length_cons, List.length_singleton] at htrigger hcompletion
  obtain ⟨bytes, hbytes⟩ : ∃ bytes, encodeTransport trigger completion activation = .ok bytes :=
    exists_encodeTransport hregion (by omega) (by omega)
  obtain ⟨fd, fd', -, -, hrun⟩ := takeTransport_run hrequired activation
  refine ⟨.transport trigger completion activation, bytes, ?_, rfl, hbytes,
    (decode_transport hbytes).trans h⟩
  obtain ⟨hevent, -⟩ := Prod.ext_iff.1 (hrun.symm.trans h)
  cases hevent
  rfl

lemma repeats_signal {nodeId index : UInt32} {activation : RegionRef}
    (hregion : rejectPartialClear activation = .ok ())
    (h : takeSignal nodeId index activation fds = (.ok event, fds')) :
    Repeats Opcode.setActivation [index] fds event fds' := by
  have hrequired := ((takeSignal_ends fds nodeId index activation).run_ok h).required
  have hindex := hrequired.toNat_lt (i := index) (by simp)
  rw [List.length_singleton] at hindex
  obtain ⟨bytes, hbytes⟩ : ∃ bytes, encodeSetActivation nodeId (some (index, activation)) = .ok bytes :=
    exists_encodeSetActivation hregion (by omega)
  obtain ⟨fd, -, hrun⟩ := takeSignal_run hrequired nodeId activation
  refine ⟨.setActivation nodeId (some (index, activation)), bytes, ?_, rfl, hbytes,
    (decode_setActivation hbytes).trans h⟩
  obtain ⟨hevent, -⟩ := Prod.ext_iff.1 (hrun.symm.trans h)
  cases hevent
  rfl

lemma Event.sent_nil {v : Sent} (h : event.sent [] = some v) :
    v.references = [] ∧ v.event fds = some event := by
  match event with
  | .portSetParam _ | .portUseBuffers _ | .portSetIo _ | .setActivation (.remove _) | .command _ =>
    cases h
    exact ⟨rfl, rfl⟩
  | .transport _ | .setActivation (.set ..) => cases h

lemma repeats_plain {v : Sent} (hsent : event.sent [] = some v) (hopcode : v.opcode = opcode)
    (hkept : v.Kept) (hencode : ∃ bytes, v.encode = .ok bytes) (htook : Took fds [] event fds') :
    Repeats opcode [] fds event fds' := by
  obtain ⟨bytes, hbytes⟩ := hencode
  obtain ⟨hreferences, hevent⟩ : v.references = [] ∧ v.event fds = some event := Event.sent_nil hsent
  obtain ⟨event', hevent', hrun⟩ := (v.returns_iff hbytes).2
    ⟨hreferences ▸ htook.required, hkept⟩
  cases hevent.symm.trans hevent'
  subst hopcode
  refine ⟨v, bytes, hsent, rfl, hbytes, Prod.ext hrun ?_⟩
  have hagain := (decodeEvent_took v.opcode bytes .standard fds).run_ok (Prod.ext hrun rfl)
  have hnone : referred v.opcode bytes = [] := by
    have hlength := hagain.required.length
    rw [htook.required.length] at hlength
    exact List.length_eq_zero_iff.1 hlength.symm
  exact (hagain.left.trans (congrArg (without fds) hnone)).trans htook.left.symm

lemma repeats_activation {nodeId : UInt32} {fd : Int64} {activation : RegionRef}
    (h : takeActivation nodeId fd activation fds = (.ok event, fds')) :
    Repeats Opcode.setActivation
      (if fd = -1 ∧ activation.IsClear then [] else (tryU32 fd).toList) fds event fds' := by
  have htook := (takeActivation_ends fds nodeId fd activation).run_ok h
  unfold takeActivation at h
  split_ifs at h htook ⊢ with hclear
  · obtain ⟨_, _, -, hevent⟩ := bind_eq_ok.1 h
    cases hevent
    exact repeats_plain rfl rfl trivial (exists_encodePayload_setActivation _ _ _) htook
  · obtain ⟨_, hregion, h⟩ := ofExcept_bind_eq_ok.1 h
    obtain ⟨index, hindex, h⟩ := ofExcept_bind_eq_ok.1 h
    unfold fdIndex at hindex
    split at hindex
    · rename_i htry
      cases hindex
      rw [htry]
      exact repeats_signal (mapError_eq_ok.1 hregion) h
    · cases hindex

end Repeats

lemma decodePlain_parsed {payload : List UInt8} {parse : Parse Event} {P : Event → Prop}
    (hgives : Gives parse P) {fds fds' : FrameFds} {event : Event}
    (h : decodePlain payload parse fds = (.ok event, fds')) : P event :=
  hgives.payload (decodePlain_eq_ok.1 (congrArg Prod.fst h)).2

/-- **Events that are decoded are encoded again**, with the indices their payload refers to, and
come back: whatever the payload, its event is one that the server can send. -/
theorem decodeEvent_repeats (opcode : UInt8) (payload : List UInt8) (fds fds' : FrameFds)
    (event : Event) (h : decodeEvent opcode payload .standard fds = (.ok event, fds')) :
    Repeats opcode (referred opcode payload) fds event fds' := by
  have htook := (decodeEvent_took opcode payload .standard fds).run_ok h
  unfold decodeEvent at h
  by_cases htransport : opcode = Opcode.transport
  · subst htransport
    rw [if_pos rfl] at h
    obtain ⟨r, hparse, h⟩ := ofExcept_bind_eq_ok.1 h
    rw [referred_transport hparse]
    exact repeats_transport (popTransport_gives.payload hparse) h
  rw [if_neg htransport] at h
  by_cases hactivation : opcode = Opcode.setActivation
  · subst hactivation
    rw [if_neg (by decide), if_neg (by decide), if_neg (by decide), if_pos rfl] at h
    obtain ⟨r, hparse, h⟩ := ofExcept_bind_eq_ok.1 h
    rw [referred_setActivation hparse]
    exact repeats_activation h
  have hnone : referred opcode payload = [] := (if_neg htransport).trans (if_neg hactivation)
  rw [hnone] at htook ⊢
  split_ifs at h with hparam hbuffers hio hcommand
  · obtain ⟨value, rfl, hid, hcheck, hkept⟩ := decodePlain_parsed (popPortSetParam_sound _) h
    exact repeats_plain rfl hparam.symm hkept
      (exists_encodePortSetParam hid hcheck fun pod hpod => (hkept pod hpod).2) htook
  · obtain ⟨value, rfl, hvalid, hmix⟩ := decodePlain_parsed (popPortUseBuffers_sound _) h
    exact repeats_plain rfl hbuffers.symm hmix (exists_encodePortUseBuffers hvalid) htook
  · obtain ⟨direction, portId, mixId, region, hmix, rfl | ⟨rfl, hclear, hregion⟩⟩ :=
      decodePlain_parsed popPortSetIo_sound h
    · exact repeats_plain rfl hio.symm hmix (exists_encodeIo (by decide)) htook
    · refine repeats_plain rfl hio.symm ⟨hmix, hclear⟩ (exists_encodeIo ?_) htook
      unfold checkRegion
      rw [if_neg hclear]
      exact mapError_eq_ok.2 hregion
  · obtain ⟨value, rfl⟩ := decodePlain_parsed popCommand_sound h
    exact repeats_plain rfl hcommand.symm trivial (exists_encodeCommand value) htook
  · cases h

/-- A parameter that is cleared by a pod with a body, which the server never writes. -/
def clearedParam : List UInt8 :=
  payloadOf (intBytes 0 ++ (intBytes 0 ++ (idBytes spaParamFormat ++ (intBytes 0 ++
    [4, 0, 0, 0, 1, 0, 0, 0, 7, 7, 7, 7, 0, 0, 0, 0]))))

theorem decodeEvent_repeats_clearedParam :
    decodeEvent Opcode.portSetParam clearedParam .standard [] =
        (.ok (.portSetParam ⟨.input, 0, spaParamFormat, 0, none⟩), []) ∧
      Repeats Opcode.portSetParam [] [] (.portSetParam ⟨.input, 0, spaParamFormat, 0, none⟩) [] :=
  ⟨rfl, decodeEvent_repeats Opcode.portSetParam clearedParam [] [] _ rfl⟩

end PipewireNative.Wire
