import PipewireNative.Node.Transport

/-!
Transactional format, buffer, and synchronous IO generations: binding a complete candidate, and
processing one cycle of it.
-/

namespace PipewireNative.Node

open Lib World

structure BoundBuffer where
  metadataKey : MemoryKey
  metadata : MemoryMapping
  chunkOffset : ℕ
  mediaKey : MemoryKey
  media : MemoryMapping

structure OutputGeneration where
  id : ℕ
  format : NegotiatedAudioFormat
  ioKey : MemoryKey
  io : MemoryMapping
  buffers : List BoundBuffer

def rejectOverlaps : List MemoryInterval → Except SessionError Unit
  | [] => .ok ()
  | left :: rest =>
    if rest.any left.overlaps then
      .error (.invalidTransition "overlapping writable memory regions")
    else rejectOverlaps rest

/-- Where the chunk lies behind metadata payloads, each padded to eight bytes. -/
def chunkLayout (metas : List MetaDescriptor) : Except SessionError ℕ :=
  metas.foldlM (fun offset m =>
    if offset + m.size + 7 < usizeBound then .ok ((offset + m.size + 7) / 8 * 8)
    else .error (.overflow "metadata layout")) 0

namespace OutputGeneration

/-- Binds the buffers of a set one after the other; `intervals` are those bound before. -/
def bindBuffers (k : Kernel) (memory : OrderedMemory) :
    ℕ → List MemoryInterval → List BufferDescriptor → Prog World SessionError (List BoundBuffer)
  | _, _, [] => pure []
  | index, intervals, descriptor :: rest => do
    let chunkOffset ← .ofExcept (chunkLayout descriptor.metas)
    .failIf (usizeBound ≤ chunkOffset + Abi.chunkSize) (.overflow "chunk layout")
    .failIf (descriptor.metadata.len < chunkOffset + Abi.chunkSize)
      (.notReady "metadata region does not contain chunk")
    .failIf (descriptor.maxSize = 0) (.notReady "zero media capacity")
    let metadataKey ← (Prog.ofExcept (memory.resolve descriptor.metadata.memory)).mapErr .memory
    let mediaKey ← (Prog.ofExcept (memory.resolve descriptor.mediaMemory)).mapErr .memory
    let metadata ← (Prog.ofExcept (memory.map (k.map (.metadata index)) metadataKey
      descriptor.metadata.offset descriptor.metadata.len)).mapErr .memory
    let media ← (Prog.ofExcept (memory.map (k.map (.media index)) mediaKey
      descriptor.mapOffset descriptor.maxSize)).mapErr .memory
    let intervals := intervals ++ [metadata.interval, media.interval]
    .ofExcept (rejectOverlaps intervals)
    let _ ← (OutputBuffer.fromRawParts metadata chunkOffset Abi.chunkSize media 0
      descriptor.maxSize).mapErr .port
    let bound ← bindBuffers k memory (index + 1) intervals rest
    pure (⟨metadataKey, metadata, chunkOffset, mediaKey, media⟩ :: bound)

/-- Binds a complete candidate and rejects aliasing writable intervals. -/
def bind (k : Kernel) (id : ℕ) (format : NegotiatedAudioFormat) (buffers : BufferSetDescriptor)
    (io : PortIoDescriptor) (memory : OrderedMemory) :
    Prog World SessionError OutputGeneration := do
  .failIf (buffers.buffers = []) (.notReady "empty output buffer set")
  let ioKey ← (Prog.ofExcept (memory.resolve io.region.memory)).mapErr .memory
  let ioMapping ← (Prog.ofExcept (memory.map (k.map .io) ioKey io.region.offset
    io.region.len)).mapErr .memory
  let _ ← (Prog.ofExcept (BuffersIoView.fromRawParts .buffers ioMapping)).mapErr .port
  .failIf (io.region.len ≠ Abi.ioBuffersSize) (.notReady "invalid Buffers IO size")
  let bound ← bindBuffers k memory 0 [ioMapping.interval] buffers.buffers
  pure ⟨id, format, ioKey, ioMapping, bound⟩

variable (g : OutputGeneration)

def dependsOn (key : MemoryKey) : Bool :=
  decide (g.ioKey = key) ||
    g.buffers.any fun b => decide (b.metadataKey = key) || decide (b.mediaKey = key)

def intervals : List MemoryInterval :=
  g.io.interval :: g.buffers.flatMap fun b => [b.metadata.interval, b.media.interval]

/-- The buffers of a cycle, their chunks read afresh. -/
def outputBuffers : Prog World PortError (List OutputBuffer) :=
  .mapList (fun b => OutputBuffer.fromRawParts b.metadata b.chunkOffset Abi.chunkSize b.media 0
    b.media.len) g.buffers

def processCycle (io : BuffersIoView) (count : ℕ) (callback : OutputProcess) (cycle : OutputCycle) :
    Prog World Unwind PublishedOutput := do
  match ← runCallback callback cycle with
  | .panicked => .fail .panic
  | .returned (.error message) => .fail (.error (.callback message))
  | .returned (.ok committed) =>
    (publishCommitted io count cycle committed).mapErr fun e => .error (.cycle e)

/-- Processes one claimed cycle; on every way out with a buffer still selected the publisher's
destructor takes the selection back. -/
def process (callback : OutputProcess) :
    Prog World Unwind (Option PublishedOutput × ℤ) := do
  let io ← (Prog.ofExcept (BuffersIoView.fromRawParts .buffers g.io)).mapErr
    fun e => .error (.port e)
  let buffers ← g.outputBuffers.mapErr fun e => .error (.port e)
  match ← (select io buffers g.format).mapErr fun e => .error (.cycle e) with
  | none => pure (none, BufferStatus.ok.code)
  | some cycle => do
    let published ← (processCycle io buffers.length callback cycle).onFail (abortSelected io cycle)
    pure (some published, BufferStatus.haveData.code)

/-- Takes back a publication of this cycle. -/
def abortPublished : Prog World SessionError Unit := do
  let io ← (Prog.ofExcept (BuffersIoView.fromRawParts .buffers g.io)).mapErr .port
  let state ← io.state
  if state.status ≠ BufferStatus.haveData.code then pure ()
  else match g.buffers[state.bufferId]? with
    | none => .fail (.invalidTransition "published output buffer ID")
    | some b => do
      let output ← (OutputBuffer.fromRawParts b.metadata b.chunkOffset Abi.chunkSize b.media 0
        b.media.len).mapErr .port
      output.abort
      io.publishNeedData state.bufferId

end OutputGeneration

end PipewireNative.Node
