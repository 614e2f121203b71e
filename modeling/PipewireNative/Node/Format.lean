import PipewireNative.Marshal.Types
import PipewireNative.Node.Config
import PipewireNative.Pod.Properties

/-!
The format that a port is given: an object pod, of whose properties six are read. A property that is
none of them is skipped when the code knows its key, and makes the format malformed otherwise.
-/

namespace PipewireNative.Node

open Lib Lib.Word Prog
open Pod (Enums Loops PodTy Pop PropertyFlags RawPod RawProperty Read Safe)
open Marshal (ParamType)

/-! ### Enumerations -/

/-- The variants of an enumeration, counted up from where their numbers are set. -/
def numbered {α : Type} (groups : List (ℕ × List α)) : List (α × UInt32) :=
  groups.flatMap fun group => group.2.mapIdx fun i a => (a, .ofNat (group.1 + i))

/-- `Into<u32>`. -/
def number {α : Type} [DecidableEq α] (table : List (α × UInt32)) (a : α) : UInt32 :=
  (table.lookup a).getD 0

/-- `TryFrom<u32>`. -/
def variant? {α : Type} (table : List (α × UInt32)) (n : UInt32) : Option α :=
  (table.find? fun entry => entry.2 = n).map Prod.fst

inductive MediaType where
  | unknown | audio | video | image | binary | stream | application
  deriving DecidableEq, Repr

def MediaType.table : List (MediaType × UInt32) :=
  numbered [(0, [unknown, audio, video, image, binary, stream, application])]

inductive MediaSubtype where
  | unknown | raw | dsp | iec958 | dsd
  | startAudio | mp3 | aac | vorbis | wma | ra | sbc | adpcm | g723 | g726 | g729 | amr | gsm | alac
  | flac | ape | opus
  | startVideo | h264 | mjpg | dv | mpegts | h263 | mpeg1 | mpeg2 | mpeg4 | xvid | vc1 | vp8 | vp9
  | bayer | h265
  | startImage | jpeg
  | startBinary
  | startStream | midi
  | startApplication | control
  deriving DecidableEq, Repr

def MediaSubtype.table : List (MediaSubtype × UInt32) :=
  numbered [(0, [unknown, raw, dsp, iec958, dsd]),
    (0x10000, [startAudio, mp3, aac, vorbis, wma, ra, sbc, adpcm, g723, g726, g729, amr, gsm, alac,
      flac, ape, opus]),
    (0x20000, [startVideo, h264, mjpg, dv, mpegts, h263, mpeg1, mpeg2, mpeg4, xvid, vc1, vp8, vp9,
      bayer, h265]),
    (0x30000, [startImage, jpeg]), (0x40000, [startBinary]), (0x50000, [startStream, midi]),
    (0x60000, [startApplication, control])]

inductive Format where
  | start | mediaType | mediaSubtype
  | startAudio | audioFormat | audioFlags | audioRate | audioChannels | audioPosition
  | audioIec958Codec | audioBitorder | audioInterleave | audioBitrate | audioBlockAlign
  | audioAacStreamFormat | audioWmaProfile | audioAmrBandMode
  | startVideo | videoFormat | videoModifier | videoSize | videoFramerate | videoMaxFramerate
  | videoViews | videoInterlaceMode | videoPixelAspectRatio | videoMultiviewMode
  | videoMultiviewFlags | videoChromaSite | videoColorRange | videoColorMatrix
  | videoTransferFunction | videoColorPrimaries | videoProfile | videoLevel
  | videoH264StreamFormat | videoH264Alignment | videoH265StreamFormat | videoH265Alignment
  | startImage
  | startBinary
  | startStream
  | startApplication | controlTypes
  deriving DecidableEq, Repr

def Format.table : List (Format × UInt32) :=
  numbered [(0, [start, mediaType, mediaSubtype]),
    (0x10000, [startAudio, audioFormat, audioFlags, audioRate, audioChannels, audioPosition,
      audioIec958Codec, audioBitorder, audioInterleave, audioBitrate, audioBlockAlign,
      audioAacStreamFormat, audioWmaProfile, audioAmrBandMode]),
    (0x20000, [startVideo, videoFormat, videoModifier, videoSize, videoFramerate, videoMaxFramerate,
      videoViews, videoInterlaceMode, videoPixelAspectRatio, videoMultiviewMode,
      videoMultiviewFlags, videoChromaSite, videoColorRange, videoColorMatrix,
      videoTransferFunction, videoColorPrimaries, videoProfile, videoLevel, videoH264StreamFormat,
      videoH264Alignment, videoH265StreamFormat, videoH265Alignment]),
    (0x30000, [startImage]), (0x40000, [startBinary]), (0x50000, [startStream]),
    (0x60000, [startApplication, controlTypes])]

inductive FormatEnum where
  | number | paramType | mediaType | mediaSubtype | format
  deriving DecidableEq, Repr

abbrev formatEnums : Enums where
  Name := FormatEnum
  T
    | .number => UInt32
    | .paramType => ParamType
    | .mediaType => MediaType
    | .mediaSubtype => MediaSubtype
    | .format => Format
  into {n} := match n with
    | .number => fun x => x
    | .paramType => ParamType.into
    | .mediaType => Node.number MediaType.table
    | .mediaSubtype => Node.number MediaSubtype.table
    | .format => Node.number Format.table
  tryFrom {n} := match n with
    | .number => some
    | .paramType => ParamType.tryFrom
    | .mediaType => variant? MediaType.table
    | .mediaSubtype => variant? MediaSubtype.table
    | .format => variant? Format.table

/-! ### The conversion -/

inductive UnsupportedFeature where
  | inputDirection
  | port (id : PortId)
  | mix (id : UInt32)
  | parameter (id : UInt32)
  | mediaFormat
  | sampleFormat (format : UInt32)
  deriving DecidableEq, Repr

inductive FormatFault where
  | unsupported (feature : UnsupportedFeature)
  | invalidFormat (what : String)
  | tooManyDescriptors (what : String)
  | overflow (what : String)
  | panic
  deriving DecidableEq, Repr

/-- `OUTPUT_PORT`. -/
def outputPort : PortId := 0

/-- `MAX_AUDIO_CHANNELS`. -/
def maxAudioChannels : UInt32 := 64

/-- `SPA_AUDIO_FORMAT_S16_LE`. -/
def spaAudioFormatS16Le : UInt32 := 0x103

def validatePort (direction : Wire.Direction) (portId : UInt32) (mixId : Option UInt32) :
    Except FormatFault PortId := do
  rejectIf (direction ≠ .output) (.unsupported .inputDirection)
  rejectIf (portId ≠ outputPort) (.unsupported (.port portId))
  match mixId with
  | some mix => .error (.unsupported (.mix mix))
  | none => pure portId

/-- `pcm_s16le`. -/
def NegotiatedAudioFormat.pcmS16le (rate channels : UInt32) :
    Except FormatFault NegotiatedAudioFormat :=
  if hrate : rate.toNat = 0 then .error (.invalidFormat "zero sample rate")
  else if hchannels : channels.toNat = 0 then .error (.invalidFormat "zero channel count")
  else if maxAudioChannels < channels then .error (.tooManyDescriptors "audio channels")
  else if usizeBound ≤ channels.toNat * 2 then .error (.overflow "PCM frame stride")
  else .ok {
    sampleFormat := .s16Le
    rate := rate.toNat
    channels := List.replicate channels.toNat 0
    bytesPerSample := 2
    frameStride := channels.toNat * 2
    rate_pos := Nat.pos_of_ne_zero hrate
    bytesPerSample_pos := Nat.two_pos
    frameStride_pos := by omega }

structure FormatValues where
  mediaType : Option MediaType
  mediaSubtype : Option MediaSubtype
  sampleFormat : Option UInt32
  rate : Option Int32
  channels : Option Int32
  positions : Option (List UInt32)

/-- The body of the loop over the properties. -/
def readFormat (values : FormatValues) (key : Format) (value : RawPod) : Read FormatValues :=
  match key with
  | .mediaType => do
    let r ← PodTy.decode (E := formatEnums) (.prim (.id .mediaType)) value.data
    pure { values with mediaType := some r.1 }
  | .mediaSubtype => do
    let r ← PodTy.decode (E := formatEnums) (.prim (.id .mediaSubtype)) value.data
    pure { values with mediaSubtype := some r.1 }
  | .audioFormat => do
    let r ← PodTy.decode (E := formatEnums) (.prim (.id .number)) value.data
    pure { values with sampleFormat := some r.1 }
  | .audioRate => do
    let r ← PodTy.decode (E := formatEnums) (.prim .int) value.data
    pure { values with rate := some r.1 }
  | .audioChannels => do
    let r ← PodTy.decode (E := formatEnums) (.prim .int) value.data
    pure { values with channels := some r.1 }
  | .audioPosition => do
    let r ← PodTy.decode (E := formatEnums) (.array (.id .number)) value.data
    pure { values with positions := some r.1 }
  | _ => pure values

def formatProperties (id : ParamType) : Pop Unit FormatValues := do
  .failIf (id ≠ .format) (.invalid "not SPA_PARAM_Format")
  Pod.Parser.whileProperty (E := formatEnums) .format readFormat ⟨none, none, none, none, none, none⟩

def popFormat : Pop Unit (FormatValues × ℕ) :=
  Pod.Parser.popObject (E := formatEnums) .format .paramType formatProperties

def malformed : Pod.Fault → FormatFault
  | .panic => .panic
  | .error _ => .invalidFormat "malformed Format POD"

def podValues (pod : RawPod) : Except FormatFault FormatValues :=
  ((popFormat (.new pod.data, ())).1.map Prod.fst).mapError malformed

/-- The part of `from_wire` that reads the pod. -/
def formatValues (value : Wire.PortSetParam) : Except FormatFault FormatValues := do
  let _ ← validatePort value.direction value.portId none
  rejectIf (value.paramId ≠ Wire.spaParamFormat) (.unsupported (.parameter value.paramId))
  match value.param with
  | none => .error (.invalidFormat "format was cleared")
  | some pod => podValues pod

/-- A number that is there and not negative. -/
def unsigned (value : Option Int32) (missing invalid : String) : Except FormatFault UInt32 :=
  match value with
  | none => .error (.invalidFormat missing)
  | some n => if n < 0 then .error (.invalidFormat invalid) else .ok n.toUInt32

/-- The part of `from_wire` that checks the values. -/
def FormatValues.convert (values : FormatValues) : Except FormatFault NegotiatedAudioFormat := do
  rejectIf (values.mediaType ≠ some .audio ∨ values.mediaSubtype ≠ some .raw)
    (.unsupported .mediaFormat)
  rejectIf (values.sampleFormat ≠ some spaAudioFormatS16Le)
    (.unsupported (.sampleFormat (values.sampleFormat.getD 0)))
  let rate ← unsigned values.rate "missing sample rate" "invalid sample rate"
  let count ← unsigned values.channels "missing channel count" "invalid channel count"
  let format ← NegotiatedAudioFormat.pcmS16le rate count
  match values.positions with
  | none => pure format
  | some positions => do
    rejectIf (positions.length ≠ format.channels.length)
      (.invalidFormat "channel position count mismatch")
    pure { format with channels := positions }

/-- `from_wire`. -/
def NegotiatedAudioFormat.fromWire (value : Wire.PortSetParam) :
    Except FormatFault NegotiatedAudioFormat := do
  let values ← formatValues value
  values.convert

/-! ### Properties that are put in -/

/-- The keys that are consulted. -/
def Format.consulted : List Format :=
  [mediaType, mediaSubtype, audioFormat, audioRate, audioChannels, audioPosition]

/-- An object and the same object with properties put in among its own: `before` are those in front
of them, `after` are the bytes behind them. -/
structure Insertion where
  pod : RawPod
  changed : RawPod
  type : UInt32
  id : UInt32
  before : List RawProperty
  inserted : List RawProperty
  after : List UInt8
  isObject : pod.IsObject type id (Pod.propertyBytes before ++ after)
  changed_isObject : changed.IsObject type id
    (Pod.propertyBytes before ++ (Pod.propertyBytes inserted ++ after))
  flags : ∀ p ∈ inserted, (PropertyFlags.fromBits p.flags).isSome
  keys : ∀ p ∈ inserted, ∀ key ∈ Format.consulted, variant? Format.table p.key ≠ some key

section Values

variable {values : FormatValues} {pod : RawPod} {type id : UInt32} {body : List UInt8}

lemma readFormat_calm (values : FormatValues) (key : Format) (pod : RawPod) :
    Calm (readFormat values key pod) fun _ => True := by
  have hdecode (t : PodTy formatEnums) (f : t.Val × ℕ → FormatValues) :
      Calm (t.decode pod.data >>= fun r => pure (f r)) fun _ => True :=
    calm_bind.2 ((t.decode_calm pod.data).mono fun _ _ => trivial)
  cases key <;> first | exact hdecode _ _ | trivial

lemma readFormat_of_not_mem {key : Format} (h : key ∉ Format.consulted) :
    readFormat values key pod = .ok values := by
  cases key <;> first | rfl | exact absurd (by decide) h

lemma formatProperties_safe (id : ParamType) : Safe 0 (formatProperties id) := by
  unfold formatProperties
  refine .bind (d := 0) (.failIf _) fun _ => .whileProperty readFormat_calm _

lemma podValues_eq_error {e : FormatFault} (h : podValues pod = .error e) :
    e = .invalidFormat "malformed Format POD" := by
  have hsafe := (Safe.popObject .format (E := formatEnums) .paramType formatProperties_safe).closure
    pod.data ()
  unfold podValues at h
  cases hrun : popFormat (.new pod.data, ()) with
  | mk r s =>
    rw [hrun] at h
    cases r with
    | ok a => cases h
    | error f =>
      cases f with
      | panic => exact absurd rfl (hsafe.run_error hrun)
      | error e' => cases h; rfl

lemma podValues_eq_ok_iff : podValues pod = .ok values ↔
    ∃ total s, popFormat (.new pod.data, ()) = (.ok (values, total), s) := by
  unfold podValues
  cases popFormat (.new pod.data, ()) with
  | mk r s =>
    cases r with
    | error f => exact ⟨fun h => (nomatch h), fun ⟨_, _, h⟩ => (nomatch h)⟩
    | ok a =>
      constructor
      · intro h
        cases h
        exact ⟨_, _, rfl⟩
      · rintro ⟨total, s', h⟩
        cases h
        rfl

/-- What is read from an object depends on its properties only through the loop over them. -/
lemma podValues_isObject (h : pod.IsObject type id body) : podValues pod = .ok values ↔
    Pod.ObjectType.tryFrom type.toNat = some .format ∧ ParamType.tryFrom id = some .format ∧
      Loops (E := formatEnums) (k := .format) readFormat body ⟨none, none, none, none, none, none⟩
        values := by
  rw [podValues_eq_ok_iff]
  refine (Pod.popObject_isObject h).trans (and_congr_right fun _ => ?_)
  have hloop {init : FormatValues} : (∃ s, Pod.Parser.whileProperty (E := formatEnums) .format
      readFormat init (.new body, ()) = (.ok values, s)) ↔
        Loops (E := formatEnums) (k := .format) readFormat body init values := by
    unfold Pod.Parser.whileProperty
    rw [Pod.Parser.here_bind]
    exact Pod.propertyRounds_eq_ok (Nat.lt_succ_self _)
  unfold formatProperties
  simp only [Prog.failIf_bind_eq_ok, ne_eq, not_not, exists_and_left, hloop]
  constructor
  · rintro ⟨_, hid, rfl, h⟩
    exact ⟨hid, h⟩
  · exact fun h => ⟨_, h.1, rfl, h.2⟩

lemma podValues_congr {pod' : RawPod}
    (h : ∀ values, podValues pod' = .ok values ↔ podValues pod = .ok values) :
    podValues pod' = podValues pod := by
  cases hpod : podValues pod with
  | ok values => exact (h values).2 hpod
  | error e =>
    cases hpod' : podValues pod' with
    | ok values => exact absurd ((h values).1 hpod') (by simp [hpod])
    | error e' => rw [podValues_eq_error hpod, podValues_eq_error hpod']

end Values

namespace Insertion

variable (i : Insertion)

lemma podValues_of_known (h : ∀ p ∈ i.inserted, (variant? Format.table p.key).isSome) :
    podValues i.changed = podValues i.pod := by
  refine podValues_congr fun values => ?_
  rw [podValues_isObject i.isObject, podValues_isObject i.changed_isObject, Pod.loops_insert]
  intro p hp
  obtain ⟨key, hkey⟩ := Option.isSome_iff_exists.1 (h p hp)
  exact ⟨i.flags p hp, key, hkey, fun acc => readFormat_of_not_mem fun hmem =>
    i.keys p hp key hmem hkey⟩

lemma podValues_of_unknown {p : RawProperty} (hp : p ∈ i.inserted)
    (h : variant? Format.table p.key = none) :
    podValues i.changed = .error (.invalidFormat "malformed Format POD") := by
  cases hpod : podValues i.changed with
  | error e => rw [podValues_eq_error hpod]
  | ok values =>
    obtain ⟨-, -, hloop⟩ := (podValues_isObject i.changed_isObject).1 hpod
    obtain ⟨front, back, hinserted⟩ := List.append_of_mem hp
    have hbytes : Pod.propertyBytes i.before ++ (Pod.propertyBytes i.inserted ++ i.after) =
        Pod.propertyBytes (i.before ++ front) ++ (p.bytes ++ (Pod.propertyBytes back ++ i.after)) := by
      simp [hinserted, Pod.propertyBytes]
    rw [hbytes] at hloop
    exact absurd hloop (Pod.not_loops h)

end Insertion

lemma formatValues_param (value : Wire.PortSetParam) :
    (∃ e, ∀ pod, formatValues { value with param := some pod } = .error e) ∨
      ∀ pod, formatValues { value with param := some pod } = podValues pod := by
  unfold formatValues
  simp only []
  cases validatePort value.direction value.portId none with
  | error e => exact .inl ⟨e, fun _ => rfl⟩
  | ok port =>
    by_cases hparam : value.paramId ≠ Wire.spaParamFormat
    · exact .inl ⟨_, fun _ => rejectIf_bind_of hparam⟩
    · exact .inr fun _ => rejectIf_bind hparam

lemma except_bind_ne_error {ε α β : Type} {x : Except ε α} {f : α → Except ε β} {e : ε}
    (hx : x ≠ .error e) (hf : ∀ a, f a ≠ .error e) : (x >>= f) ≠ .error e := by
  cases x with
  | error e' => exact fun h => hx (congrArg _ (Except.error.inj h))
  | ok a => exact hf a

lemma FormatValues.convert_ne_malformed (values : FormatValues) :
    values.convert ≠ .error (.invalidFormat "malformed Format POD") := by
  have hreject {c : Prop} [Decidable c] {e e' : FormatFault} (h : e ≠ e') :
      rejectIf c e ≠ .error e' := fun h' => h (rejectIf_eq_error.1 h').2
  have hunsigned (n : Option Int32) {missing invalid : String} (h : missing ≠ "malformed Format POD")
      (h' : invalid ≠ "malformed Format POD") :
      unsigned n missing invalid ≠ .error (.invalidFormat "malformed Format POD") := by
    unfold unsigned
    split
    · simpa using h
    · split_ifs <;> simp [h']
  unfold convert
  refine except_bind_ne_error (hreject (by simp)) fun _ => ?_
  refine except_bind_ne_error (hreject (by simp)) fun _ => ?_
  refine except_bind_ne_error (hunsigned _ (by simp) (by simp)) fun rate => ?_
  refine except_bind_ne_error (hunsigned _ (by simp) (by simp)) fun count => ?_
  refine except_bind_ne_error ?_ fun format => ?_
  · unfold NegotiatedAudioFormat.pcmS16le
    split_ifs <;> simp
  · split
    · exact fun h => nomatch h
    · exact except_bind_ne_error (hreject (by simp)) fun _ => fun h => nomatch h

/-- **Other properties.** Properties put in among those of a format leave the conversion as it is if
and only if the code knows the keys of all of them, or no values could be read before. -/
theorem NegotiatedAudioFormat.fromWire_insert (value : Wire.PortSetParam) (i : Insertion) :
    fromWire { value with param := some i.changed } = fromWire { value with param := some i.pod } ↔
      (∀ p ∈ i.inserted, (variant? Format.table p.key).isSome) ∨
        ∃ e, formatValues { value with param := some i.pod } = .error e := by
  unfold fromWire
  rcases formatValues_param value with ⟨e, herror⟩ | hvalues
  · rw [herror, herror]
    exact iff_of_true rfl (.inr ⟨e, rfl⟩)
  rw [hvalues, hvalues]
  by_cases hknown : ∀ p ∈ i.inserted, (variant? Format.table p.key).isSome
  · rw [i.podValues_of_known hknown]
    exact iff_of_true rfl (.inl hknown)
  obtain ⟨p, hp, hkey⟩ : ∃ p ∈ i.inserted, variant? Format.table p.key = none := by
    simpa using hknown
  rw [i.podValues_of_unknown hp hkey]
  cases hpod : podValues i.pod with
  | error e =>
    rw [podValues_eq_error hpod]
    exact iff_of_true rfl (.inr ⟨_, rfl⟩)
  | ok values =>
    refine iff_of_false (fun h => values.convert_ne_malformed h.symm) ?_
    rintro (h | ⟨e, h⟩)
    · exact hknown h
    · cases h

def numberProperty (key : ℕ) (type : Pod.PodType) (n : ℕ) : List UInt8 :=
  leBytes 4 key ++ leBytes 4 0 ++ leBytes 4 4 ++ leBytes 4 type.toNat ++ leBytes 4 n ++ leBytes 4 0

def stereo : List UInt8 :=
  numberProperty 1 .id 1 ++ numberProperty 2 .id 1 ++ numberProperty 0x10001 .id 0x103 ++
    numberProperty 0x10003 .int 48000 ++ numberProperty 0x10004 .int 2

def formatObject (body : List UInt8) : List UInt8 :=
  leBytes 4 (8 + body.length) ++ leBytes 4 Pod.PodType.object.toNat ++
    leBytes 4 Pod.ObjectType.format.toNat ++ leBytes 4 4 ++ body

/-- A property of no value, the key of which is no key of a format. -/
def unknownProperty : RawProperty where
  key := 0x70000
  flags := 0
  value := ⟨.none, leBytes 4 0 ++ leBytes 4 Pod.PodType.none.toNat, by decide, by decide, by decide⟩

def stereoInsertion : Insertion where
  pod := ⟨.object, formatObject stereo, by decide +kernel, by decide +kernel, by decide +kernel⟩
  changed := ⟨.object, formatObject (unknownProperty.bytes ++ stereo), by decide +kernel,
    by decide +kernel, by decide +kernel⟩
  type := .ofNat Pod.ObjectType.format.toNat
  id := 4
  before := []
  inserted := [unknownProperty]
  after := stereo
  isObject := by constructor <;> decide +kernel
  changed_isObject := by constructor <;> decide +kernel
  flags := by decide
  keys := by decide

def stereoParam : Wire.PortSetParam := ⟨.output, 0, 4, 0, none⟩

theorem NegotiatedAudioFormat.fromWire_unknownProperty :
    (fromWire { stereoParam with param := some stereoInsertion.pod }).isOk = true ∧
      (fromWire { stereoParam with param := some stereoInsertion.changed }).isOk = false := by
  decide +kernel

end PipewireNative.Node
