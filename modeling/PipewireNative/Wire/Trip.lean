import PipewireNative.Wire.Grow

/-!
Methods are decoded as they were encoded, up to what the encoder leaves out.
-/

namespace PipewireNative.Wire

open Lib Lib.Word Prog Pod

/-! ### What is left out -/

/-- The low three bits of the change mask, and the lists whose changes are in it. -/
def NodeInfo.normal (info : NodeInfo) : NodeInfo :=
  { info with
    changeMask := info.changeMask &&& 7
    properties := if info.changeMask &&& 2 ≠ 0 then info.properties else []
    params := if info.changeMask &&& 4 ≠ 0 then info.params else [] }

/-- The low four bits of the change mask. -/
def PortInfo.normal (info : PortInfo) : PortInfo :=
  { info with changeMask := info.changeMask &&& 15 }

def Method.normal : Method → Method
  | .update value => .update { value with info := value.info.map NodeInfo.normal }
  | .portUpdate value => .portUpdate { value with info := value.info.map PortInfo.normal }
  | .setActive value => .setActive value

lemma and_mask_and (x mask bit : UInt64) (h : mask &&& bit = bit) : x &&& mask &&& bit = x &&& bit := by
  rw [UInt64.and_assoc, h]

lemma NodeInfo.written_and_props (info : NodeInfo) :
    info.written &&& nodeInfoChangeProps = info.changeMask &&& nodeInfoChangeProps :=
  and_mask_and _ _ _ (by decide)

lemma NodeInfo.written_and_params (info : NodeInfo) :
    info.written &&& nodeInfoChangeParams = info.changeMask &&& nodeInfoChangeParams :=
  and_mask_and _ _ _ (by decide)

lemma NodeInfo.normal_eq (info : NodeInfo) : (⟨info.maxInputPorts, info.maxOutputPorts,
    info.written &&& nodeInfoChangeMask, info.flags, info.writtenProperties,
    info.writtenParams⟩ : NodeInfo) = info.normal := by
  have hmask : info.written &&& nodeInfoChangeMask = info.changeMask &&& 7 :=
    and_mask_and _ _ _ (by decide)
  unfold writtenProperties writtenParams
  rw [hmask, info.written_and_props, info.written_and_params]
  rfl

lemma PortInfo.normal_eq (info : PortInfo) : (⟨info.changeMask &&& portInfoChangeMask &&&
    portInfoChangeMask, info.flags, info.rateNum, info.rateDenom, info.properties,
    info.params⟩ : PortInfo) = info.normal := by
  rw [and_mask_and _ _ _ (by decide)]
  rfl

/-! ### What is in bounds -/

/-- Lists that the encoder accepts and the decoder too. -/
structure InBounds (limits : Limits) (properties : List (String × String))
    (params : List ParamInfo) : Prop where
  properties : properties.length ≤ limits.maxProperties ∧ properties.length ≤ i32Max
  params : params.length ≤ limits.maxParamInfo ∧ params.length ≤ i32Max

/-- Parameters that the encoder accepts and the decoder too. -/
structure ParamsInBounds (limits : Limits) (params : List RawPod) : Prop where
  count : params.length ≤ limits.maxParams ∧ params.length ≤ i32Max
  sizes : ∀ pod ∈ params, pod.size ≤ limits.maxPodBytes

lemma validateCounts_eq_ok {params : List RawPod} {m n : ℕ} {limits : Limits} {u : Unit}
    (h : validateCounts params m n limits = .ok u) : ParamsInBounds limits params ∧
      (m ≤ limits.maxProperties ∧ m ≤ i32Max) ∧ n ≤ limits.maxParamInfo ∧ n ≤ i32Max := by
  unfold validateCounts at h
  obtain ⟨_, hcount, h⟩ := except_bind_eq_ok.1 h
  obtain ⟨_, hproperties, h⟩ := except_bind_eq_ok.1 h
  obtain ⟨_, hinfo, h⟩ := except_bind_eq_ok.1 h
  refine ⟨⟨ensureCount_eq_ok.1 hcount, ?_⟩, ensureCount_eq_ok.1 hproperties,
    ensureCount_eq_ok.1 hinfo⟩
  intro pod hpod
  by_contra hlarge
  exact rejectIf_eq_ok.1 h ⟨pod, hpod, Nat.lt_of_not_le hlarge⟩

/-! ### Reading it back -/

lemma popPair_reads {pair : String × String} (h : (pairBytes pair).length < 2 ^ 32) :
    Reads popPair (pairBytes pair) pair := by
  rw [pairBytes, List.length_append] at h
  exact (popString_reads (by omega)).bind ((popString_reads (by omega)).map (Prod.mk pair.1))

lemma popParamInfo_reads (param : ParamInfo) : Reads popParamInfo (paramInfoBytes param) param :=
  (popId_reads param.id).bind ((popInt_reads param.flags).map (ParamInfo.mk param.id))

lemma popInfoTail_reads {limits : Limits} {properties : List (String × String)}
    {params : List ParamInfo} (h : InBounds limits properties params)
    (hlen : (infoTailBytes properties params).length < 2 ^ 32) :
    Reads (popInfoTail limits) (infoTailBytes properties params) (properties, params) := by
  have hpairs : ∀ pair ∈ properties, Reads popPair (pairBytes pair) pair := by
    intro pair hpair
    refine popPair_reads ?_
    have hle := length_le_flatMap pairBytes hpair
    simp only [infoTailBytes, List.length_append] at hlen
    omega
  exact (popCount_reads h.properties.1 h.properties.2).bind ((popEach_reads hpairs).bind
    ((popCount_reads h.params.1 h.params.2).bind
      ((popEach_reads fun param _ => popParamInfo_reads param).map (Prod.mk properties))))

lemma popNodeInfo_reads {limits : Limits} {info : NodeInfo}
    (h : InBounds limits info.writtenProperties info.writtenParams)
    (hlen : (nodeInfoBytes info).length < 2 ^ 32) :
    ReadsEnd (popNodeInfo limits) (nodeInfoBytes info) info.normal := by
  have htail := popInfoTail_reads h (by
    simp only [nodeInfoBytes, List.length_append] at hlen
    omega)
  unfold popNodeInfo nodeInfoBytes
  rw [← info.normal_eq, ← List.append_nil (infoTailBytes _ _)]
  refine .bind (popInt_reads _) (.bind (popInt_reads _) (.bind (popLong_reads _)
    (.bind (popLong_reads _) (.bind htail ?_))))
  exact .finished _ _

lemma popPortInfo_reads {limits : Limits} {info : PortInfo}
    (h : InBounds limits info.properties info.params)
    (hlen : (portInfoBytes info).length < 2 ^ 32) :
    ReadsEnd (popPortInfo limits) (portInfoBytes info) info.normal := by
  have htail := popInfoTail_reads h (by
    simp only [portInfoBytes, List.length_append] at hlen
    omega)
  unfold popPortInfo portInfoBytes
  rw [← info.normal_eq, ← List.append_nil (infoTailBytes _ _)]
  refine .bind (popLong_reads _) (.bind (popLong_reads _) (.bind (popInt_reads _)
    (.bind (popInt_reads _) (.bind htail ?_))))
  exact .finished _ _

lemma popOptional_reads {α : Type} {name : String} {pop : Parse α} {bytes : α → List UInt8}
    {normal : α → α} {info : Option α} (h : ∀ i, info = some i → ReadsEnd pop (bytes i) (normal i))
    (hmod : ∀ i, (bytes i).length % 8 = 0) (hlen : (optionalBytes bytes info).length < 2 ^ 32) :
    Reads (popOptional name pop) (optionalBytes bytes info) (info.map normal) := by
  cases info with
  | none =>
    have hraw := Reads.popRawPod (ω := Unit)
      (.of 0 .none [] [] (by decide) rfl rfl)
    intro pre post w hpre
    exact bind_ok (hraw pre post w hpre)
  | some i =>
    have hbody := h i rfl
    rw [optionalBytes, length_payloadOf] at hlen
    have hpadding : ([] : List UInt8).length = pad8 (bytes i).length :=
      (pad8_eq_zero (hmod i)).symm
    have hraw := Reads.popRawPod (ω := Unit)
      (.of (bytes i).length .struct (bytes i) [] (by omega) rfl hpadding)
    have husize : (payloadOf (bytes i)).length < usizeBound := by
      rw [length_payloadOf]
      unfold usizeBound
      omega
    have hall := (Reads.popStruct (hbody.all (by
      unfold usizeBound
      omega)) rfl (by omega) hpadding).all husize
    intro pre post w hpre
    exact (bind_ok (hraw pre post w hpre)).trans (bind_ok (Reads.nested hall _ w))

lemma popParam_reads {pod : RawPod} {maxBytes : ℕ} (h : pod.size ≤ maxBytes) :
    Reads (popParam maxBytes) pod.data pod := by
  have hwrap : RawPod.wrap pod.data = .ok pod := by
    have h := pod.wrap_data []
    rwa [List.append_nil] at h
  intro pre post w hpre
  unfold popParam
  rw [bind_ok (Reads.popRawPod pod pre post w hpre), failIf_bind (Nat.not_lt.2 h), hwrap]
  rfl

lemma popPods_reads {limits : Limits} {params : List RawPod} (h : ParamsInBounds limits params) :
    Reads (popPods params.length limits.maxPodBytes) (params.flatMap RawPod.data) params :=
  popEach_reads fun pod hpod => popParam_reads (h.sizes pod hpod)

/-! ### Methods -/

lemma encodeMethodWithLimits_eq_ok {m : Method} {limits : Limits} {payload : List UInt8}
    (h : encodeMethodWithLimits m limits = .ok payload) :
    validateMethod m limits = .ok () ∧ payload = m.encoding ∧
      m.encoding.length ≤ maxEncodeCapacity := by
  obtain ⟨⟨⟩, hvalid, hpayload⟩ := except_bind_eq_ok.1 h
  refine ⟨hvalid, ?_⟩
  rcases m.encodePayload_push with ⟨-, hpanic⟩ | ⟨-, hok⟩
  · cases hpanic.symm.trans hpayload
  · rw [hok] at hpayload
    split_ifs at hpayload with hle
    exact ⟨(Except.ok.inj hpayload).symm, hle⟩

lemma optionalBytes_mod_eight {α : Type} {bytes : α → List UInt8}
    (hmod : ∀ i, (bytes i).length % 8 = 0) (info : Option α) :
    (optionalBytes bytes info).length % 8 = 0 := by
  cases info with
  | none => exact pushNone_writes.1
  | some i =>
    have h := hmod i
    rw [optionalBytes, length_payloadOf]
    omega

lemma countIf_decide {c : Prop} [Decidable c] {α : Type} (vs : List α) :
    countIf (decide c) vs.length = (if c then vs else []).length := by
  unfold countIf
  split_ifs with h
  · simp [h]
  · simp [h]

lemma NodeInfo.inBounds {info : NodeInfo} {limits : Limits}
    (hproperties : countIf (info.changeMask &&& nodeInfoChangeProps != 0) info.properties.length ≤
        limits.maxProperties ∧
      countIf (info.changeMask &&& nodeInfoChangeProps != 0) info.properties.length ≤ i32Max)
    (hparams : countIf (info.changeMask &&& nodeInfoChangeParams != 0) info.params.length ≤
        limits.maxParamInfo ∧
      countIf (info.changeMask &&& nodeInfoChangeParams != 0) info.params.length ≤ i32Max) :
    InBounds limits info.writtenProperties info.writtenParams := by
  have hflag : ∀ x : UInt64, (x != 0) = decide (x ≠ 0) := by
    intro x
    by_cases h : x = 0
    · simp [h]
    · simp [h]
  rw [hflag, countIf_decide] at hproperties hparams
  unfold writtenProperties writtenParams
  rw [info.written_and_props, info.written_and_params]
  exact ⟨hproperties, hparams⟩

lemma popUpdate_reads {value : Update} {limits : Limits}
    (hvalid : validateMethod (.update value) limits = .ok ())
    (hlen : (optionalBytes nodeInfoBytes value.info).length < 2 ^ 32) :
    Reads (popUpdate limits) ((Method.update value).headBytes ++ (Method.update value).infoBytes)
      (Method.update value).normal := by
  obtain ⟨hparams, hproperties, hinfo⟩ := validateCounts_eq_ok hvalid
  have hoptional : Reads (popOptionalNodeInfo limits) (optionalBytes nodeInfoBytes value.info)
      (value.info.map NodeInfo.normal) := by
    refine popOptional_reads ?_ (fun i => (pushNodeInfo_writes i).1) hlen
    intro i hi
    simp only [hi, Option.elim_some, optionalBytes, length_payloadOf] at hproperties hinfo hlen
    exact popNodeInfo_reads (NodeInfo.inBounds hproperties hinfo) (by omega)
  simp only [Method.headBytes, Method.infoBytes, paramsBytes, List.append_assoc]
  exact (popInt_reads _).bind ((popCount_reads hparams.count.1 hparams.count.2).bind
    ((popPods_reads hparams).bind (hoptional.map _)))

lemma popPortUpdate_reads {value : PortUpdate} {limits : Limits}
    (hvalid : validateMethod (.portUpdate value) limits = .ok ())
    (hlen : (optionalBytes portInfoBytes value.info).length < 2 ^ 32) :
    Reads (popPortUpdate limits)
      ((Method.portUpdate value).headBytes ++ (Method.portUpdate value).infoBytes)
      (Method.portUpdate value).normal := by
  obtain ⟨hparams, hproperties, hinfo⟩ := validateCounts_eq_ok hvalid
  have hoptional : Reads (popOptionalPortInfo limits) (optionalBytes portInfoBytes value.info)
      (value.info.map PortInfo.normal) := by
    refine popOptional_reads ?_ (fun i => (pushPortInfo_writes i).1) hlen
    intro i hi
    simp only [hi, Option.elim_some, optionalBytes, length_payloadOf] at hproperties hinfo hlen
    exact popPortInfo_reads ⟨hproperties, hinfo⟩ (by omega)
  simp only [Method.headBytes, Method.infoBytes, paramsBytes, List.append_assoc]
  exact (popDirection_reads _).bind ((popInt_reads _).bind ((popInt_reads _).bind
    ((popCount_reads hparams.count.1 hparams.count.2).bind
      ((popPods_reads hparams).bind (hoptional.map _)))))

lemma Method.infoBytes_mod_eight (m : Method) : m.infoBytes.length % 8 = 0 := by
  cases m with
  | update value => exact optionalBytes_mod_eight (fun i => (pushNodeInfo_writes i).1) value.info
  | portUpdate value =>
    exact optionalBytes_mod_eight (fun i => (pushPortInfo_writes i).1) value.info
  | setActive value => rfl

lemma decodeMethod_update (payload : List UInt8) (limits : Limits) :
    decodeMethod Opcode.update payload limits = parsePayload payload (popUpdate limits) := if_pos rfl

lemma decodeMethod_portUpdate (payload : List UInt8) (limits : Limits) :
    decodeMethod Opcode.portUpdate payload limits = parsePayload payload (popPortUpdate limits) := by
  rw [decodeMethod, if_neg (by decide), if_pos rfl]

lemma decodeMethod_setActive (payload : List UInt8) (limits : Limits) :
    decodeMethod Opcode.setActive payload limits = parsePayload payload popSetActive := by
  rw [decodeMethod, if_neg (by decide), if_neg (by decide), if_pos rfl]

/-- **A method is decoded as it was encoded**, up to what the encoder leaves out. -/
theorem decodeMethod_encodeMethodWithLimits (m : Method) (limits : Limits) (payload : List UInt8)
    (h : encodeMethodWithLimits m limits = .ok payload) :
    decodeMethod m.opcode payload limits = .ok m.normal := by
  obtain ⟨hvalid, rfl, hle⟩ := encodeMethodWithLimits_eq_ok h
  have hmod : (m.headBytes ++ m.infoBytes).length % 8 = 0 := by
    have hhead := m.headBytes_mod_eight
    have hinfo := m.infoBytes_mod_eight
    rw [List.length_append]
    omega
  rw [m.length_encoding] at hle
  unfold maxEncodeCapacity at hle
  have hlen : (m.headBytes ++ m.infoBytes).length < 2 ^ 32 := by
    rw [List.length_append]
    omega
  cases m with
  | update value =>
    rw [Method.opcode, decodeMethod_update]
    exact parsePayload_of_reads (popUpdate_reads hvalid (by
      change (Method.update value).infoBytes.length < 2 ^ 32
      omega)) hmod hlen
  | portUpdate value =>
    rw [Method.opcode, decodeMethod_portUpdate]
    exact parsePayload_of_reads (popPortUpdate_reads hvalid (by
      change (Method.portUpdate value).infoBytes.length < 2 ^ 32
      omega)) hmod hlen
  | setActive value =>
    have hread : Reads popSetActive (boolBytes value.active) (.setActive value) :=
      (popBool_reads value.active).map fun active => Method.setActive ⟨active⟩
    rw [Method.opcode, decodeMethod_setActive]
    refine parsePayload_of_reads ?_ hmod hlen
    rw [Method.headBytes, Method.infoBytes, List.append_nil]
    exact hread

/-- The list of parameters is left out, and the bits of the mask that are none. -/
theorem decodeMethod_namedUpdate : ∃ payload,
    encodeMethodWithLimits namedUpdate .standard = .ok payload ∧
      decodeMethod Opcode.update payload .standard =
        .ok (.update ⟨3, [zeroParam 16 (by decide) (by decide)],
          some ⟨0, 1, 3, 0, [("node.name", "tone")], []⟩⟩) := by
  have hvalid : validateMethod namedUpdate .standard = .ok () := by decide +kernel
  have hencode : encodeMethodWithLimits namedUpdate .standard = .ok namedUpdate.encoding := by
    rw [encodeMethodWithLimits, hvalid, except_ok_bind]
    rcases namedUpdate.encodePayload_push with ⟨h, -⟩ | ⟨-, h⟩
    · exact absurd h namedUpdate_not_cramped
    · exact h.trans (if_pos (by decide +kernel))
  refine ⟨_, hencode, (decodeMethod_encodeMethodWithLimits _ _ _ hencode).trans ?_⟩
  have hmask : (251 : UInt64) &&& 7 = 3 ∧ ¬ (251 : UInt64) &&& 2 = 0 ∧ (251 : UInt64) &&& 4 = 0 := by
    decide
  simpa [namedUpdate, Method.normal, NodeInfo.normal] using hmask

end PipewireNative.Wire
