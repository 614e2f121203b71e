import PipewireNative.Frame.Socket

/-!
The receiving end: bytes and batches of descriptors as they come in, with their positions in the
stream, and the frames taken out of them.
-/

namespace PipewireNative.Frame

open Lib Lib.Word

/-- Descriptors that came in together: the position in the stream of the bytes they came with. -/
structure FdBatch where
  pos : ℕ
  fds : List OwnedFd

inductive RecvState where
  | header
  | payload (header : Header) (frameStart frameEnd : ℕ)
  | eof
  | failed
  deriving DecidableEq

abbrev FrameFds := List (Option OwnedFd)

structure ReceivedFrame where
  header : Header
  payload : List UInt8
  fds : FrameFds
  deriving DecidableEq

inductive ReceiveOutcome where
  | frame (f : ReceivedFrame)
  | wouldBlock
  | closed
  deriving DecidableEq

inductive Unwind where
  | error (e : FrameError)
  | panic
  deriving DecidableEq

structure FrameReceiver where
  limits : FrameLimits
  state : RecvState
  bytes : List UInt8
  byteBase : ℕ
  streamEnd : ℕ
  fdBatches : List FdBatch

namespace FrameReceiver

def new (limits : FrameLimits) : FrameReceiver := ⟨limits, .header, [], 0, 0, []⟩

variable (r : FrameReceiver)

def pendingFds : ℕ := (r.fdBatches.map (·.fds.length)).sum

def clear : FrameReceiver :=
  { r with
    bytes := []
    fdBatches := []
    byteBase := r.streamEnd
    state := match r.state with
      | .failed => .failed
      | .eof => .eof
      | _ => .header }

/-- `FrameReceiver::fail`. -/
def fail {α : Type} (e : FrameError) : Prog FrameReceiver Unwind α := do
  .modify fun r => { r with bytes := [], fdBatches := [], state := .failed }
  .fail (.error e)

def readHeader : Prog FrameReceiver Unwind Unit := do
  let r ← .get
  if r.state = .header ∧ headerLen ≤ r.bytes.length then do
    let header := Header.decode (r.bytes.take headerLen)
    let payload := header.payloadLen.toNat
    if r.limits.payloadLimit < payload then
      fail (.payloadTooLarge payload r.limits.payloadLimit)
    else if r.limits.maxFrameFds < header.nFds.toNat then
      fail (.tooManyFrameFds header.nFds.toNat r.limits.maxFrameFds)
    else if usizeBound ≤ headerLen + payload then
      .fail (.error (.payloadTooLarge payload r.limits.maxPayload))
    else if usizeBound ≤ r.byteBase + (headerLen + payload) then
      fail (.truncatedFrame r.bytes.length (headerLen + payload))
    else
      .modify fun r => { r with
        state := .payload header r.byteBase (r.byteBase + (headerLen + payload)) }
  else pure ()

/-- Takes `declared` descriptors from the front batches. Running out of them, or into a batch that
came in behind the frame, is a panic. -/
def takeFds (frameEnd : ℕ) : ℕ → List FdBatch → Option (List OwnedFd × List FdBatch)
  | 0, batches => some ([], batches)
  | _ + 1, [] => none
  | declared + 1, batch :: rest =>
    if frameEnd ≤ batch.pos then none
    else if batch.fds.length ≤ declared + 1 then
      (takeFds frameEnd (declared + 1 - batch.fds.length) rest).map fun (fds, batches) =>
        (batch.fds ++ fds, batches)
    else some (batch.fds.take (declared + 1),
      { batch with fds := batch.fds.drop (declared + 1) } :: rest)

/-- Takes out the frame whose header has been read, once all of its bytes are there. -/
def extract : Prog FrameReceiver Unwind (Option ReceivedFrame) := do
  let r ← .get
  match r.state with
  | .payload header frameStart frameEnd =>
    if frameEnd - frameStart ≤ r.bytes.length then do
      let available := ((r.fdBatches.filter fun b => b.pos < frameEnd).map (·.fds.length)).sum
      let declared := header.nFds.toNat
      if available < declared then fail (.missingFds declared available)
      else match takeFds frameEnd declared r.fdBatches with
        | none => .fail .panic
        | some (fds, batches) => do
          let payload := (r.bytes.drop headerLen).take header.payloadLen.toNat
          .modify fun r => { r with
            bytes := (r.bytes.drop headerLen).drop header.payloadLen.toNat
            byteBase := frameEnd
            fdBatches := batches
            state := .header }
          pure (some ⟨header, payload, fds.map some⟩)
    else pure none
  | _ => pure none

def advance : Prog FrameReceiver Unwind (Option ReceivedFrame) := do
  readHeader
  extract

def chunkLen : ℕ :=
  min (max r.limits.recvChunkBytes 1)
    (max (min (headerLen + r.limits.maxPayload) usizeMax - r.bytes.length) 1)

/-- What came in with a read; there is an outcome at the end of the stream. -/
def absorb (bytes : List UInt8) (fds : List OwnedFd) :
    Prog FrameReceiver Unwind (Option ReceiveOutcome) := do
  let r ← .get
  if bytes = [] then
    -- a debug assertion
    if fds ≠ [] then .fail .panic
    else if r.bytes ≠ [] then
      let needed := match r.state with
        | .payload _ frameStart frameEnd => frameEnd - frameStart
        | _ => headerLen
      fail (.truncatedFrame r.bytes.length needed)
    else if r.pendingFds ≠ 0 then fail (.unexpectedFdsAtEof r.pendingFds)
    else do
      .modify fun r => { r with state := .eof }
      pure (some .closed)
  else if r.limits.maxPendingFds < min (r.pendingFds + fds.length) usizeMax then
    fail (.tooManyPendingFds (r.pendingFds + fds.length) r.limits.maxPendingFds)
  else if usizeBound ≤ r.streamEnd + bytes.length then
    fail (.io (.other "stream position overflow"))
  else do
    .modify fun r => { r with
      streamEnd := r.streamEnd + bytes.length
      bytes := r.bytes ++ bytes
      fdBatches := if fds = [] then r.fdBatches else r.fdBatches ++ [⟨r.streamEnd, fds⟩] }
    pure none

end FrameReceiver

structure Receiving where
  receiver : FrameReceiver
  socket : Socket

namespace Receiving

def ofReceiver {α : Type} (p : Prog FrameReceiver Unwind α) : Prog Receiving Unwind α :=
  p.zoom Receiving.receiver fun receiver s => { s with receiver }

def controlLen (controlFds : ℕ) : Except FrameError ℕ := do
  let data := dataOffset + min (4 * controlFds) usizeMax
  rejectIf (usizeBound ≤ data) .malformedControl
  match cmsgAlign data with
  | none => .error .malformedControl
  | some len => pure ((len + 7) / 8 * 8)

/-- `recv_once`, up to an answer other than an interruption. A buffer that cannot be allocated is
a panic. -/
def recvOnce (chunkLen controlFds : ℕ) (answer : RecvAnswer) :
    Prog Receiving Unwind (List UInt8 × List OwnedFd) := do
  .failIf (isizeBound ≤ chunkLen) .panic
  let capacity ← (Prog.ofExcept (controlLen controlFds)).mapErr .error
  .failIf (isizeBound ≤ capacity) .panic
  let (bytes, control, flags) ← ((Socket.recvmsg chunkLen capacity answer).zoom Receiving.socket
    fun socket s => { s with socket }).mapErr fun e => .error (.io e)
  match parseControl control flags with
  | .error (e, _) => .fail (.error e)
  | .ok fds => pure (bytes, fds)

/-- One call of `recv_once` and what becomes of its result. -/
def readTurn (answer : RecvAnswer) : Prog Receiving Unwind (Option ReceiveOutcome) := do
  let s ← .get
  match ← (recvOnce s.receiver.chunkLen s.receiver.limits.recvControlFds answer).attempt with
  | .ok (bytes, fds) => ofReceiver (FrameReceiver.absorb bytes fds)
  | .error (.error (.io .wouldBlock)) => pure (some .wouldBlock)
  | .error (.error e) => ofReceiver (FrameReceiver.fail e)
  | .error .panic => .fail .panic

/-- Reads until a frame is there; `recv_once` is called again when it is interrupted, and when the
answers are over the kernel says `EAGAIN`. -/
def waitLoop : List RecvAnswer → Prog Receiving Unwind ReceiveOutcome
  | [] => do
    match ← readTurn .again with
    | some outcome => pure outcome
    | none => pure .wouldBlock
  | .interrupted :: answers => waitLoop answers
  | answer :: answers => do
    match ← readTurn answer with
    | some outcome => pure outcome
    | none => do
      match ← ofReceiver FrameReceiver.advance with
      | some frame => pure (.frame frame)
      | none => waitLoop answers

lemma waitLoop_cons {answer : RecvAnswer} (h : answer ≠ .interrupted) {answers : List RecvAnswer} :
    waitLoop (answer :: answers) = (do
      match ← readTurn answer with
      | some outcome => pure outcome
      | none => do
        match ← ofReceiver FrameReceiver.advance with
        | some frame => pure (.frame frame)
        | none => waitLoop answers) := by
  cases answer with
  | interrupted => exact absurd rfl h
  | _ => rfl

def receive (answers : List RecvAnswer) : Prog Receiving Unwind ReceiveOutcome := do
  let s ← .get
  match s.receiver.state with
  | .failed => .fail (.error .poisoned)
  | .eof => pure .closed
  | _ => do
    match ← ofReceiver FrameReceiver.advance with
    | some frame => pure (.frame frame)
    | none => waitLoop answers

lemma receive_eq {s : Receiving} {answers : List RecvAnswer} (hfailed : s.receiver.state ≠ .failed)
    (heof : s.receiver.state ≠ .eof) :
    receive answers s = ((ofReceiver FrameReceiver.advance >>= fun o => match o with
      | some frame => pure (.frame frame)
      | none => waitLoop answers) : Prog Receiving Unwind ReceiveOutcome) s := by
  unfold receive
  rw [Prog.get_bind]
  cases hstate : s.receiver.state with
  | failed => exact absurd hstate hfailed
  | eof => exact absurd hstate heof
  | header | payload _ _ _ => rfl

end Receiving

end PipewireNative.Frame
