import PipewireNative.Node.Port
import PipewireNative.Node.Config

/-!
Cycle-scoped selection and publication for synchronous output buffers: what the callback is given,
the token it commits with, and the publication of that token.
-/

namespace PipewireNative.Node

open Lib Lib.Word World

inductive CycleError where
  | invalidBufferId (bufferId bufferCount : ℕ)
  | capacityExceeded (requested capacity : ℕ)
  | chunkSizeOverflow (bytes : ℕ)
  | frameCountOverflow (frames : ℕ)
  | port (e : PortError)
  | noCommittedCycle
  deriving DecidableEq, Repr

/-- Validated publication intent. Its only makers are `commit` and `silence`, so it counts whole
frames of the stride it carries. It can be copied and kept. -/
@[ext]
structure CommittedOutput where
  bufferId : ℕ
  bytesUsed : ℕ
  stride : ℕ
  flags : ℕ
  whole : stride ∣ bytesUsed
  stride_pos : 0 < stride
  bytesUsed_le : bytesUsed ≤ u32Max
  deriving Repr

instance : DecidableEq CommittedOutput :=
  fun _ _ => decidable_of_iff _ CommittedOutput.ext_iff.symm

/-- Exclusive, callback-scoped access to one server-selected output media plane. -/
structure OutputCycle where
  buffer : OutputBuffer
  bufferId : ℕ
  format : NegotiatedAudioFormat

namespace OutputCycle

variable (c : OutputCycle)

/-- The exact contiguous capacity at this chunk's ring offset. -/
def capacity : ℕ := c.buffer.capacity

/-- Commits `bytesUsed` bytes, a whole number of frames of `stride`. -/
def commitBytes (bytesUsed stride flags : ℕ) (whole : stride ∣ bytesUsed) (pos : 0 < stride) :
    Except CycleError CommittedOutput :=
  if c.capacity < bytesUsed then .error (.capacityExceeded bytesUsed c.capacity)
  else if h : bytesUsed ≤ u32Max then .ok ⟨c.bufferId, bytesUsed, stride, flags, whole, pos, h⟩
  else .error (.chunkSizeOverflow bytesUsed)

def frameBytes (frames : ℕ) : Except CycleError ℕ :=
  if frames * c.format.frameStride < usizeBound then .ok (frames * c.format.frameStride)
  else .error (.frameCountOverflow frames)

def commit (frames : ℕ) : Except CycleError CommittedOutput := do
  let _ ← c.frameBytes frames
  c.commitBytes (frames * c.format.frameStride) c.format.frameStride 0
    (Nat.dvd_mul_left _ _) c.format.frameStride_pos

/-- Fills and commits a complete number of neutral S16LE frames; the bytes to be stored come with
the token. -/
def silence (frames : ℕ) : Except CycleError (List UInt8 × CommittedOutput) := do
  let bytes ← c.frameBytes frames
  rejectIf (c.capacity < bytes) (.capacityExceeded bytes c.capacity)
  let committed ← c.commit frames
  pure (List.replicate bytes 0, committed)

/-- A token fits a cycle: the stride of its format, and no more bytes than its capacity. -/
def Fits (t : CommittedOutput) : Prop :=
  t.stride = c.format.frameStride ∧ t.bytesUsed ≤ c.capacity

instance (t : CommittedOutput) : Decidable (c.Fits t) := by unfold Fits; infer_instance

end OutputCycle

inductive CallbackExit where
  | returned (r : Except String CommittedOutput)
  | panicked
  deriving DecidableEq

/-- Application callback: from the cycle and the bytes of its media, the bytes it leaves there and
how it comes back. It may return any token it has, whatever cycle or session that came from. -/
def OutputProcess := OutputCycle → List UInt8 → List UInt8 × CallbackExit

/-! ### Selection and publication -/

/-- Selects exactly the buffer requested by synchronous `NEED_DATA` IO. -/
def select (io : BuffersIoView) (buffers : List OutputBuffer) (format : NegotiatedAudioFormat) :
    Prog World CycleError (Option OutputCycle) := do
  let state ← io.state
  if state.status ≠ BufferStatus.needData.code then pure none
  else match buffers[state.bufferId]? with
    | none => .fail (.invalidBufferId state.bufferId buffers.length)
    | some buffer => pure (some ⟨buffer, state.bufferId, format⟩)

/-- Proof that chunk and synchronous IO publication completed. -/
structure PublishedOutput where
  bufferId : ℕ
  bytesUsed : ℕ
  deriving DecidableEq, Repr

/-- Publishes the token in the cycle selected: the chunk first, then the IO status. -/
def publishCommitted (io : BuffersIoView) (count : ℕ) (selected : OutputCycle)
    (committed : CommittedOutput) : Prog World CycleError PublishedOutput := do
  .failIf (committed.bufferId ≠ selected.bufferId) (.invalidBufferId committed.bufferId count)
  (selected.buffer.publish committed.bytesUsed committed.stride committed.flags).mapErr .port
  io.publishHaveData committed.bufferId
  pure ⟨committed.bufferId, committed.bytesUsed⟩

/-- Dropping the publisher with a buffer still selected. -/
def abortSelected (io : BuffersIoView) (selected : OutputCycle) : Prog World Empty Unit := do
  selected.buffer.abort
  io.publishNeedData selected.bufferId

/-- What a callback that comes back so has handed in. -/
def OutputCycle.handed (c : OutputCycle) : CallbackExit → Handed
  | .returned (.ok t) =>
    if t.bufferId ≠ c.bufferId then .nothing else if c.Fits t then .fitting else .misfit
  | _ => .nothing

/-- A token committed in a cycle fits that cycle. -/
theorem OutputCycle.handed_commit {c : OutputCycle} {frames : ℕ} {t : CommittedOutput}
    (h : c.commit frames = .ok t) : c.handed (.returned (.ok t)) = .fitting := by
  simp only [commit, except_bind_eq_ok] at h
  obtain ⟨_, -, h⟩ := h
  unfold commitBytes at h
  split_ifs at h with hc hb
  cases h
  exact (if_neg (not_not.2 rfl)).trans (if_pos ⟨rfl, Nat.le_of_not_lt hc⟩)

/-- What the callback makes of the media bytes of its cycle. -/
def OutputProcess.answer (callback : OutputProcess) (cycle : OutputCycle) (m : Shm) :
    List UInt8 × CallbackExit :=
  callback cycle (m.read cycle.buffer.mediaAt cycle.capacity)

/-- Runs the callback on the selected cycle: it sees the media bytes and leaves bytes there, never
past the capacity. -/
def runCallback (callback : OutputProcess) (cycle : OutputCycle) {ε : Type} :
    Prog World ε CallbackExit := do
  let (bytes, back) ← access
    (fun w => .callback cycle.bufferId (cycle.handed (callback.answer cycle w.mem).2))
    fun w => callback.answer cycle w.mem
  store .media cycle.buffer.mediaAt (bytes.take cycle.capacity)
  pure back

end PipewireNative.Node
