import PipewireNative.Lib.Memory

/-!
The values the node shares with the server: activation and buffer states, and the places of the
fields in the shared records of the target `x86_64-unknown-linux-gnu`.
-/

namespace PipewireNative.Node

/-- The states of a `pw_node_activation`. -/
inductive ActivationStatus where
  | notTriggered | triggered | awake | finished | inactive
  deriving DecidableEq, Repr

def ActivationStatus.code : ActivationStatus → ℕ
  | .notTriggered => 0
  | .triggered => 1
  | .awake => 2
  | .finished => 3
  | .inactive => 4

lemma ActivationStatus.code_inj {a b : ActivationStatus} (h : a.code = b.code) : a = b := by
  cases a <;> cases b <;> simp_all [code]

lemma ActivationStatus.code_lt (a : ActivationStatus) : a.code < 256 ^ 4 := by
  cases a <;> simp [code]

def activationVersion : ℕ := 1

/-- The states of a synchronous `spa_io_buffers`. -/
inductive BufferStatus where
  | ok | needData | haveData | stopped | drained
  deriving DecidableEq, Repr

def BufferStatus.code : BufferStatus → ℕ
  | .ok => 0
  | .needData => 1
  | .haveData => 2
  | .stopped => 4
  | .drained => 8

/-- `libc::EIO`. -/
def eio : ℤ := 5

/-! ### The `pw_node_activation` record -/

namespace Abi

def size : ℕ := 2312
def align : ℕ := 8
def status : ℕ := 0
def state0Status : ℕ := 8
def state0Pending : ℕ := 16
def signalTime : ℕ := 32
def awakeTime : ℕ := 40
def finishTime : ℕ := 48
def clientVersion : ℕ := 540
def serverVersion : ℕ := 544

/-! ### The `spa_io_buffers` and `spa_chunk` records -/

def ioBuffersSize : ℕ := 8
def ioBuffersAlign : ℕ := 4
def ioStatus : ℕ := 0
def ioBufferId : ℕ := 4
def chunkSize : ℕ := 16
def chunkAlign : ℕ := 4
def chunkOffset : ℕ := 0
def chunkDataSize : ℕ := 4
def chunkStride : ℕ := 8
def chunkFlags : ℕ := 12

end Abi

/-- The fields of the shared records, and the media bytes. -/
inductive Field where
  | status | processResult | pending | signalTime | awakeTime | finishTime
  | clientVersion | serverVersion
  | ioStatus | ioBufferId
  | chunkOffset | chunkSize | chunkStride | chunkFlags
  | media
  deriving DecidableEq, Repr

end PipewireNative.Node
