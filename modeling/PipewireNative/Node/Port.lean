import PipewireNative.Node.Memory

/-!
Field-specific views over the shared records of an output port: the synchronous `spa_io_buffers`,
the `spa_chunk` of a buffer, and one writable data plane with its chunk.
-/

namespace PipewireNative.Node

open Lib Lib.Word World

/-- One snapshot of synchronous buffer IO: the raw status and the selected buffer. -/
structure BuffersIoState where
  status : ℤ
  bufferId : ℕ
  deriving DecidableEq, Repr

/-- One snapshot of `spa_chunk`. -/
structure ChunkState where
  offset : ℕ
  size : ℕ
  stride : ℤ
  flags : ℕ
  deriving DecidableEq, Repr

inductive PortIoType where
  | buffers | asyncBuffers
  deriving DecidableEq, Repr

inductive PortError where
  | null (record : String)
  | invalidSize (record : String) (actual required : ℕ)
  | misaligned (record : String) (address required : ℕ)
  | asyncBuffersUnsupported
  | mediaRegionTooLarge
  | zeroMaxSize
  | maxSizeOutOfRange (maxSize : ℕ)
  | mediaRangeOverflow
  | mediaRangeOutOfBounds (stop available : ℕ)
  | wrappedChunk (offset size maxSize : ℕ)
  | invalidStride (stride : ℤ) (maxSize : ℕ)
  deriving DecidableEq, Repr

/-- The checks every shared record passes. -/
def checkedRecord (base len required align : ℕ) (record : String) : Except PortError Unit := do
  rejectIf (base = 0) (.null record)
  rejectIf (len ≠ required) (.invalidSize record len required)
  rejectIf (base % align ≠ 0) (.misaligned record base align)

lemma checkedRecord_ok {base len required align : ℕ} {record : String} {u : Unit} :
    checkedRecord base len required align record = .ok u ↔
      base ≠ 0 ∧ len = required ∧ base % align = 0 := by
  simp [checkedRecord, except_bind_eq_ok]

/-! ### Synchronous buffer IO -/

/-- ABI-checked view over one `spa_io_buffers` record. -/
structure BuffersIoView where
  region : MemoryMapping
  size_eq : region.len = Abi.ioBuffersSize

namespace BuffersIoView

def fromRawParts (kind : PortIoType) (m : MemoryMapping) : Except PortError BuffersIoView :=
  if kind = .asyncBuffers then .error .asyncBuffersUnsupported
  else match h : checkedRecord m.mapped.ptr m.len Abi.ioBuffersSize Abi.ioBuffersAlign
      "spa_io_buffers" with
    | .error e => .error e
    | .ok _ => .ok ⟨m, (checkedRecord_ok.1 h).2.1⟩

variable (v : BuffersIoView)

def state {ε : Type} : Prog World ε BuffersIoState := do
  let status ← load .ioStatus (v.region.at_ Abi.ioStatus) 4
  let bufferId ← load .ioBufferId (v.region.at_ Abi.ioBufferId) 4
  pure ⟨asI32 status, bufferId⟩

def publish {ε : Type} (status : BufferStatus) (bufferId : ℕ) : Prog World ε Unit := do
  storeWord .ioBufferId (v.region.at_ Abi.ioBufferId) 4 bufferId
  storeWord .ioStatus (v.region.at_ Abi.ioStatus) 4 status.code

def publishHaveData {ε : Type} (bufferId : ℕ) : Prog World ε Unit := v.publish .haveData bufferId
def publishNeedData {ε : Type} (bufferId : ℕ) : Prog World ε Unit := v.publish .needData bufferId

end BuffersIoView

/-! ### Chunks -/

/-- View over the `spa_chunk` record at an offset of a mapped metadata region. -/
structure ChunkView where
  region : MemoryMapping
  base : ℕ

namespace ChunkView

def fromRawParts (m : MemoryMapping) (base len : ℕ) : Except PortError ChunkView := do
  checkedRecord (m.mapped.ptr + base) len Abi.chunkSize Abi.chunkAlign "spa_chunk"
  pure ⟨m, base⟩

variable (v : ChunkView)

def at_ (field : ℕ) : Addr := v.region.at_ (v.base + field)

def state {ε : Type} : Prog World ε ChunkState := do
  let offset ← load .chunkOffset (v.at_ Abi.chunkOffset) 4
  let size ← load .chunkSize (v.at_ Abi.chunkDataSize) 4
  let stride ← load .chunkStride (v.at_ Abi.chunkStride) 4
  let flags ← load .chunkFlags (v.at_ Abi.chunkFlags) 4
  pure ⟨offset, size, asI32 stride, flags⟩

def publish {ε : Type} (state : ChunkState) : Prog World ε Unit := do
  storeWord .chunkOffset (v.at_ Abi.chunkOffset) 4 state.offset
  storeWord .chunkSize (v.at_ Abi.chunkDataSize) 4 state.size
  storeWord .chunkStride (v.at_ Abi.chunkStride) 4 (ofI32 state.stride)
  storeWord .chunkFlags (v.at_ Abi.chunkFlags) 4 state.flags

end ChunkView

/-! ### Data planes -/

/-- `u32::MAX as usize`. -/
def u32Max : ℕ := 2 ^ 32 - 1

/-- `i32::MAX as usize`. -/
def i32Max : ℕ := 2 ^ 31 - 1

/-- One checked writable output data plane and its separately shared chunk. The plane lies in the
mapping and the ring offset in the plane. -/
structure OutputBuffer where
  chunk : ChunkView
  media : MemoryMapping
  mapOffset : ℕ
  maxSize : ℕ
  dataOffset : ℕ
  plane : mapOffset + maxSize ≤ media.len
  maxSize_le : maxSize ≤ u32Max
  offset_lt : dataOffset < maxSize

namespace OutputBuffer

/-- What the chunk of a plane must satisfy. -/
def checkChunk (maxSize : ℕ) (state : ChunkState) : Except PortError Unit := do
  let dataOffset := state.offset % maxSize
  rejectIf (maxSize - dataOffset < state.size) (.wrappedChunk dataOffset state.size maxSize)
  rejectIf (state.stride < 0 ∨ (maxSize : ℤ) < state.stride) (.invalidStride state.stride maxSize)

/-- What the shape of a plane must satisfy. -/
def checkPlane (mediaLen mapOffset maxSize : ℕ) : Except PortError Unit := do
  rejectIf (isizeMax < mediaLen) .mediaRegionTooLarge
  rejectIf (maxSize = 0) .zeroMaxSize
  rejectIf (u32Max < maxSize) (.maxSizeOutOfRange maxSize)
  rejectIf (usizeBound ≤ mapOffset + maxSize) .mediaRangeOverflow
  rejectIf (mediaLen < mapOffset + maxSize) (.mediaRangeOutOfBounds (mapOffset + maxSize) mediaLen)

lemma checkPlane_ok {mediaLen mapOffset maxSize : ℕ} {u : Unit}
    (h : checkPlane mediaLen mapOffset maxSize = .ok u) :
    0 < maxSize ∧ maxSize ≤ u32Max ∧ mapOffset + maxSize ≤ mediaLen := by
  simp only [checkPlane, except_bind_eq_ok, rejectIf_eq_ok, exists_const] at h
  omega

def fromRawParts (metadata : MemoryMapping) (chunkBase chunkLen : ℕ) (media : MemoryMapping)
    (mapOffset maxSize : ℕ) : Prog World PortError OutputBuffer := do
  let chunk ← .ofExcept (ChunkView.fromRawParts metadata chunkBase chunkLen)
  .failIf (media.mapped.ptr = 0) (.null "media plane")
  match h : checkPlane media.len mapOffset maxSize with
  | .error e => .fail e
  | .ok _ =>
    let state ← chunk.state
    .ofExcept (checkChunk maxSize state)
    pure ⟨chunk, media, mapOffset, maxSize, state.offset % maxSize, (checkPlane_ok h).2.2,
      (checkPlane_ok h).2.1, Nat.mod_lt _ (checkPlane_ok h).1⟩

variable (b : OutputBuffer)

def capacity : ℕ := b.maxSize - b.dataOffset

/-- The place of the writable bytes, from the current ring offset on. -/
def mediaAt : Addr := b.media.at_ (b.mapOffset + b.dataOffset)

def publish (bytesUsed stride flags : ℕ) : Prog World PortError Unit := do
  .failIf (b.maxSize < stride ∨ i32Max < stride)
    (.invalidStride (if stride ≤ i32Max then stride else i32Max) b.maxSize)
  b.chunk.publish ⟨b.dataOffset, bytesUsed, stride, flags⟩

/-- Empties the chunk, leaving its other fields. -/
def abort {ε : Type} : Prog World ε Unit := do
  let state ← b.chunk.state
  b.chunk.publish { state with size := 0 }

end OutputBuffer

end PipewireNative.Node
