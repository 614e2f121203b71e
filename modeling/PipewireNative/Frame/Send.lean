import PipewireNative.Frame.Socket

/-!
The sending end: frames with their descriptors, the queue, and flushing the queue into a socket.
-/

namespace PipewireNative.Frame

open Lib Lib.Word

/-- A frame to be sent. Its only maker is `new`, so its header describes the rest. -/
structure OutboundFrame where
  header : Header
  bytes : List UInt8
  fds : List OwnedFd
  made : ∃ payload, payload.length ≤ wireMaxPayload ∧
    header.payloadLen = .ofNat payload.length ∧ header.nFds = .ofNat fds.length ∧
    bytes = header.bytes ++ payload

namespace OutboundFrame

def new (objectId : UInt32) (opcode : UInt8) (seq : UInt32) (payload : List UInt8)
    (fds : List OwnedFd) (limits : FrameLimits) : Except FrameError OutboundFrame :=
  if h : limits.payloadLimit < payload.length then
    .error (.payloadTooLarge payload.length limits.payloadLimit)
  else if limits.maxFrameFds < fds.length then
    .error (.tooManyFrameFds fds.length limits.maxFrameFds)
  else
    let header : Header := ⟨objectId, opcode, .ofNat payload.length, seq, .ofNat fds.length⟩
    have hlen : payload.length ≤ wireMaxPayload := by
      unfold FrameLimits.payloadLimit at h
      omega
    match header.encode with
    | .error e => .error e
    | .ok _ => .ok ⟨header, header.bytes ++ payload, fds, payload, hlen, rfl, rfl, rfl⟩

lemma new_eq_ok {f : OutboundFrame} {objectId : UInt32} {opcode : UInt8} {seq : UInt32}
    {payload : List UInt8} {fds : List OwnedFd} {limits : FrameLimits}
    (h : new objectId opcode seq payload fds limits = .ok f) :
    f.fds = fds ∧ f.bytes = Header.bytes
      ⟨objectId, opcode, .ofNat payload.length, seq, .ofNat fds.length⟩ ++ payload := by
  unfold new at h
  split_ifs at h
  dsimp only at h
  split at h
  · cases h
  · cases h
    exact ⟨rfl, rfl⟩

end OutboundFrame

structure SendFrame where
  bytes : List UInt8
  offset : ℕ
  fds : List OwnedFd
  ancillarySent : Bool

structure FrameSender where
  limits : FrameLimits
  queue : List SendFrame
  queuedBytes : ℕ
  queuedFds : ℕ
  failed : Bool

inductive FlushOutcome where
  | drained
  | wouldBlock
  deriving DecidableEq, Repr

namespace FrameSender

def new (limits : FrameLimits) : FrameSender := ⟨limits, [], 0, 0, false⟩

def enqueue (frame : OutboundFrame) : Prog FrameSender FrameError Unit := do
  let s ← .get
  .failIf (s.failed = true) .poisoned
  let payload := frame.header.payloadLen.toNat
  .failIf (s.limits.payloadLimit < payload) (.payloadTooLarge payload s.limits.payloadLimit)
  .failIf (s.limits.maxFrameFds < frame.fds.length)
    (.tooManyFrameFds frame.fds.length s.limits.maxFrameFds)
  .failIf (s.limits.maxQueuedBytes < min (s.queuedBytes + frame.bytes.length) usizeMax)
    (.sendQueueFull s.queuedBytes frame.bytes.length s.limits.maxQueuedBytes)
  .failIf (s.limits.maxQueuedFds < min (s.queuedFds + frame.fds.length) usizeMax)
    (.sendFdQueueFull s.queuedFds frame.fds.length s.limits.maxQueuedFds)
  .modify fun s => { s with
    queuedBytes := s.queuedBytes + frame.bytes.length
    queuedFds := s.queuedFds + frame.fds.length
    queue := s.queue ++ [⟨frame.bytes, 0, frame.fds, false⟩] }

def isEmpty (s : FrameSender) : Bool := s.queue.isEmpty

def clear (s : FrameSender) : FrameSender := { s with queue := [], queuedBytes := 0, queuedFds := 0 }

/-- What a send of `sent` bytes of the front frame leaves of the sender. -/
def advance (s : FrameSender) (frame : SendFrame) (rest : List SendFrame) (includeFds : Bool)
    (sent : ℕ) : FrameSender :=
  let moved : SendFrame :=
    { frame with
      offset := frame.offset + sent
      fds := if includeFds then [] else frame.fds
      ancillarySent := frame.ancillarySent || includeFds }
  { s with
    queuedFds := if includeFds then s.queuedFds - frame.fds.length else s.queuedFds
    queuedBytes := s.queuedBytes - sent
    queue := if moved.offset = frame.bytes.length then rest else moved :: rest }

end FrameSender

structure Sending where
  sender : FrameSender
  socket : Socket

namespace Sending

/-- `send_once`. -/
def sendOnce (bytes : List UInt8) (fds : Option (List OwnedFd)) (answer : SendAnswer) :
    Prog Sending IoError ℕ :=
  (Socket.sendmsg bytes (sendControl fds) answer).zoom Sending.socket
    fun socket s => { s with socket }

/-- `FrameSender::fail`. -/
def fail {α : Type} (e : FrameError) : Prog Sending FrameError α := do
  .modify fun s => { s with sender := { s.sender.clear with failed := true } }
  .fail e

/-- One call of `send_once` for the front frame; there is an outcome when flushing is over. -/
def flushTurn (answer : SendAnswer) : Prog Sending FrameError (Option FlushOutcome) := do
  let s ← .get
  match s.sender.queue with
  | [] => pure (some .drained)
  | frame :: rest => do
    let includeFds := !frame.ancillarySent && !frame.fds.isEmpty
    match ← (sendOnce (frame.bytes.drop frame.offset) (if includeFds then some frame.fds else none)
        answer).attempt with
    | .error .interrupted => pure none
    | .error .wouldBlock => pure (some .wouldBlock)
    | .error e => fail (.io e)
    | .ok sent =>
      if sent = 0 then fail .writeZero
      else do
        .modify fun s => { s with sender := s.sender.advance frame rest includeFds sent }
        pure none

/-- Flushes the queue; when the answers are over the kernel says `EAGAIN`. -/
def flushLoop : List SendAnswer → Prog Sending FrameError FlushOutcome
  | [] => do
    match ← flushTurn .again with
    | some outcome => pure outcome
    | none => pure .wouldBlock
  | answer :: answers => do
    match ← flushTurn answer with
    | some outcome => pure outcome
    | none => flushLoop answers

def flush (answers : List SendAnswer) : Prog Sending FrameError FlushOutcome := do
  let s ← .get
  .failIf (s.sender.failed = true) .poisoned
  flushLoop answers

end Sending

end PipewireNative.Frame
