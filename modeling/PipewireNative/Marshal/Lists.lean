import PipewireNative.Marshal.Events
import PipewireNative.Wire.Safe

/-!
Decoding a message panics exactly where a list announces more elements than can be reserved, or a
link or a port tells a state or a direction that has no name.
-/

namespace PipewireNative.Marshal

open Lib Lib.Word Prog Wire
open Pod hiding Fault
open Frame (FrameFds OwnedFd)

variable {α T : Type} {room : Room}

/-! ### What a payload asks for -/

/-- The body of the struct that some bytes begin with. -/
def structBody (data : List UInt8) : Option (List UInt8) :=
  if data.length < 8 ∨ data.length < frame (declared data) ∨
      wordAt data 4 4 ≠ PodType.struct.toNat then none
  else some ((data.drop 8).take (declared data))

lemma frame_le_of_structBody {data body : List UInt8} (h : structBody data = some body) :
    frame (declared data) ≤ data.length := by
  unfold structBody at h
  split at h
  · cases h
  · rename_i hc
    omega

lemma parseStruct_of_some {data body : List UInt8} (h : structBody data = some body)
    (parse : Parse α) :
    parseStruct parse data = (parse (.new body, ())).1.map fun a => (a, frame (declared data)) := by
  unfold structBody at h
  split at h
  · cases h
  · rename_i hc
    rw [not_or, not_or] at hc
    obtain ⟨hlen, hframe, htype⟩ := hc
    have hle : 8 + declared data ≤ frame (declared data) := by
      unfold frame
      omega
    have hsize : (u32At data 0 : Read UInt32) = .ok (.ofNat (declared data)) :=
      u32At_declared (by omega)
    have hword : (u32At data 4 : Read UInt32) = .ok (.ofNat (wordAt data 4 4)) :=
      u32At_of_le (by omega)
    unfold parseStruct Parser.popStruct Parser.new
    rw [Parser.here_bind, failIf_bind (by unfold Parser.available; omega), ofExcept_bind hsize,
      toNat_declared, ofExcept_bind (podTotalSize_declared data),
      failIf_bind (by unfold Parser.available; simp only []; omega), ofExcept_bind hword, toNat_wordAt,
      failIf_bind htype, ofExcept_bind (slice_of_le (by omega) (by simp only []; omega))]
    rw [(by omega : 0 + 8 + declared data - (0 + 8) = declared data)]
    cases h
    simp only [Parser.nested, zoom, Parser.new, bind]
    cases hrun : (parse (⟨(data.drop 8).take (declared data), 0⟩, ())).1 <;> rfl

lemma parseStruct_of_none {data : List UInt8} (h : structBody data = none) :
    ∃ message, ∀ parse : Parse α, parseStruct parse data = .error (.invalid message) := by
  have hcases : data.length < 8 ∨ data.length < frame (declared data) ∨
      wordAt data 4 4 ≠ PodType.struct.toNat := by
    by_contra hc
    unfold structBody at h
    rw [if_neg hc] at h
    cases h
  unfold parseStruct Parser.popStruct Parser.new
  simp only [Parser.here_bind]
  by_cases hlen : data.length < 8
  · exact ⟨_, fun _ => by rw [failIf_bind_of (by unfold Parser.available; exact hlen)]⟩
  have hsize : (u32At data 0 : Read UInt32) = .ok (.ofNat (declared data)) :=
    u32At_declared (by omega)
  by_cases hframe : data.length < frame (declared data)
  · refine ⟨"Not enough data for struct", fun _ => ?_⟩
    rw [failIf_bind (by unfold Parser.available; exact hlen), ofExcept_bind hsize, toNat_declared,
      ofExcept_bind (podTotalSize_declared data),
      failIf_bind_of (by unfold Parser.available; exact hframe)]
  have hword : (u32At data 4 : Read UInt32) = .ok (.ofNat (wordAt data 4 4)) :=
    u32At_of_le (by omega)
  have htype := (hcases.resolve_left hlen).resolve_left hframe
  refine ⟨s!"Type {UInt32.ofNat (wordAt data 4 4)} is not struct", fun _ => ?_⟩
  rw [failIf_bind (by unfold Parser.available; exact hlen), ofExcept_bind hsize, toNat_declared,
    ofExcept_bind (podTotalSize_declared data),
    failIf_bind (by unfold Parser.available; exact hframe), ofExcept_bind hword, toNat_wordAt,
    failIf_bind_of htype]

lemma parseStruct_calm {parse : Parse α} {d : ℕ} (h : Safe d parse) (data : List UInt8) :
    Calm (parseStruct parse data) fun r => r.2 ≤ data.length := by
  cases hbody : structBody data with
  | none =>
    obtain ⟨message, hrun⟩ := parseStruct_of_none (α := α) hbody
    rw [hrun parse]
    exact invalid_ne_panic message
  | some body =>
    have hclosure := h.closure body ()
    rw [parseStruct_of_some hbody parse]
    cases hrun : parse (.new body, ()) with
    | mk r s =>
      cases r with
      | ok a => exact frame_le_of_structBody hbody
      | error f => exact hclosure.run_error hrun

/-! ### Lists -/

lemma popPairs_safe (k v : PodTy enums) (n : ℕ) : Safe 0 (popPairs k v n) := by
  induction n with
  | zero => exact .pure []
  | succ n ih => exact (Safe.popPod k).followed fun _ => (Safe.popPod v).followed fun _ =>
      ih.followed fun _ => .pure _

lemma popPairList_safe (k v : PodTy enums) (size : ℕ) :
    Safe 0 (popPairList unlimited k v size) := by
  refine (Safe.popPod _).followed fun n => ?_
  have hroom : Safe 0 (.failIf (unlimited size n = false) .panic : Parse Unit) :=
    fun q w hq => (ends_failIf_of_not (by simp [unlimited])).2 hq.ahead
  exact hroom.followed fun _ => popPairs_safe k v _

namespace Field

lemma decode_calm (f : Field) (data : List UInt8) :
    Calm (f.decode unlimited data) fun r => r.2 ≤ data.length := by
  cases f with
  | pod t => exact (t.decode_calm data).mono fun _ h => h.2
  | pairs k v size => exact parseStruct_calm (popPairList_safe k v size) data

end Field

/-! ### Fields -/

section PopWith

variable {decode decode' : List UInt8 → Read (α × ℕ)} {q : Parser}

end PopWith

section Variants

variable {variants : List (Variant T)} {opcode : UInt8} {payload : List UInt8}

/-- The fields of each variant. -/
def layouts (variants : List (Variant T)) : List (List Field) := variants.map fun v => v.fields

end Variants

/-! ### Footers -/

section Read

variable {variants : List (Variant T)} {opcode : UInt8} {payload : List UInt8}

end Read

/-! ### Delivering -/

namespace Profiler

/-- Delivering the event writes the line to the log: where just this line cannot be written, it
panics. -/
def Logs (event : Events) (line : String × RawPod) : Prop :=
  (deliver (fun other => other ≠ line) event ⟨[], 0, []⟩).1 = .error .panic

end Profiler

def Family.layouts : Family → List (List Field)
  | .core => Marshal.layouts Core.variants
  | .client => Marshal.layouts Client.variants
  | .clientNode => []
  | .device => Marshal.layouts Device.variants
  | .factory => Marshal.layouts Factory.variants
  | .link => Marshal.layouts Link.variants
  | .metadata => Marshal.layouts Metadata.variants
  | .module => Marshal.layouts Module.variants
  | .node => Marshal.layouts Node.variants
  | .port => Marshal.layouts Port.variants
  | .profiler => Marshal.layouts Profiler.variants
  | .registry => Marshal.layouts Registry.variants

def Port.Named : Port.Events → Prop
  | .info _ direction _ _ _ => (PortDirection.tryFrom direction.toUInt32).isSome
  | .param _ => True

def Link.Named : Link.Events → Prop
  | .info _ _ _ _ _ _ state _ _ _ => (LinkState.tryFrom state.toUInt32).isSome

/-- What the payload tells of a port or a link has a name, and the sections of a profile can be
written to the log. -/
def Family.Regular (log : Log) (opcode : UInt8) (payload : List UInt8) : Family → Prop
  | .port => ∀ event footer,
      readMessage unlimited Port.variants opcode payload = .ok (event, footer) → Port.Named event
  | .link => ∀ event footer,
      readMessage unlimited Link.variants opcode payload = .ok (event, footer) → Link.Named event
  | .profiler => ∀ event footer,
      readMessage unlimited Profiler.variants opcode payload = .ok (event, footer) →
        ∀ line, Profiler.Logs event line → log.shows line = true
  | _ => True

end PipewireNative.Marshal
