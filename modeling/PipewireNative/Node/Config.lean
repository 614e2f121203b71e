import PipewireNative.Node.Memory

/-!
Semantic configuration accepted by the output session: the negotiated format and the descriptors
of transport, buffers, port IO and peers, after wire conversion.
-/

namespace PipewireNative.Node

abbrev NodeId := UInt32

abbrev PortId := UInt32

abbrev AudioChannel := UInt32

inductive AudioSampleFormat where
  | s16Le
  deriving DecidableEq, Repr

structure NegotiatedAudioFormat where
  sampleFormat : AudioSampleFormat
  rate : ℕ
  channels : List AudioChannel
  bytesPerSample : ℕ
  frameStride : ℕ
  rate_pos : 0 < rate
  bytesPerSample_pos : 0 < bytesPerSample
  frameStride_pos : 0 < frameStride
  deriving DecidableEq, Repr

/-- Transport resources after wire FD indices have been resolved. -/
structure TransportDescriptor where
  triggerFd : Fd
  completionFd : Fd
  activation : RegionRef
  deriving DecidableEq, Repr

/-- Downstream activation resources. -/
structure PeerActivationDescriptor where
  node : NodeId
  signalFd : Fd
  activation : RegionRef
  deriving DecidableEq, Repr

/-- Synchronous port-IO descriptor. -/
structure PortIoDescriptor where
  port : PortId
  region : RegionRef
  deriving DecidableEq, Repr

structure MetaDescriptor where
  typeId : ℕ
  size : ℕ
  deriving DecidableEq, Repr

structure BufferDescriptor where
  metadata : RegionRef
  metas : List MetaDescriptor
  mediaMemory : MemoryId
  mapOffset : ℕ
  maxSize : ℕ
  deriving DecidableEq, Repr

structure BufferSetDescriptor where
  port : PortId
  buffers : List BufferDescriptor
  deriving DecidableEq, Repr

def bufferMemoryIds (value : BufferSetDescriptor) : List MemoryId :=
  value.buffers.flatMap fun buffer => [buffer.metadata.memory, buffer.mediaMemory]

end PipewireNative.Node
