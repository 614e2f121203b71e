import PipewireNative.Frame.Send
import PipewireNative.Frame.Recv

/-!
A sender and a receiver with a socket between them, and their runs: frames are enqueued, the queue
is flushed and the socket is read in any order and with any answers of the kernel short of an
error, until the sender has nothing left to send and closes the socket.
-/

namespace PipewireNative.Frame

open Lib

def OutboundFrame.received (f : OutboundFrame) : ReceivedFrame :=
  ⟨f.header, f.bytes.drop headerLen, f.fds.map some⟩

/-- An answer to `sendmsg` that is no error: some bytes go, or the call is to be made again. -/
def SendAnswer.Regular : SendAnswer → Prop
  | .refused _ => False
  | .accepted count => 0 < count
  | _ => True

/-- An answer to `recvmsg` that is no error. -/
def RecvAnswer.Regular : RecvAnswer → Prop
  | .refused _ => False
  | _ => True

instance : DecidablePred SendAnswer.Regular
  | .refused _ => inferInstanceAs (Decidable False)
  | .accepted count => inferInstanceAs (Decidable (0 < count))
  | .interrupted | .again => inferInstanceAs (Decidable True)

instance : DecidablePred RecvAnswer.Regular
  | .refused _ => inferInstanceAs (Decidable False)
  | .interrupted | .again | .delivered _ => inferInstanceAs (Decidable True)

/-- The two ends, and what has happened: the frames the sender has accepted and how each flush and
each receive came back. -/
structure Link where
  sender : FrameSender
  socket : Socket
  receiver : FrameReceiver
  accepted : List OutboundFrame
  flushes : List (Except FrameError FlushOutcome)
  receives : List (Except Unwind ReceiveOutcome)

namespace Link

/-- What the two ends do. -/
inductive Move where
  | enqueue (frame : OutboundFrame)
  | flush (answers : List SendAnswer)
  | receive (answers : List RecvAnswer)
  | close

def start (limits : FrameLimits) : Link := ⟨.new limits, ⟨[], false⟩, .new limits, [], [], []⟩

variable (l : Link)

def enqueue (frame : OutboundFrame) : Link :=
  let r := FrameSender.enqueue frame l.sender
  { l with sender := r.2, accepted := if r.1.isOk then l.accepted ++ [frame] else l.accepted }

def flush (answers : List SendAnswer) : Link :=
  let r := Sending.flush answers ⟨l.sender, l.socket⟩
  { l with sender := r.2.sender, socket := r.2.socket, flushes := l.flushes ++ [r.1] }

def receive (answers : List RecvAnswer) : Link :=
  let r := Receiving.receive answers ⟨l.receiver, l.socket⟩
  { l with receiver := r.2.receiver, socket := r.2.socket, receives := l.receives ++ [r.1] }

def close : Link := { l with socket := { l.socket with closed := true } }

def apply : Move → Link
  | .enqueue frame => l.enqueue frame
  | .flush answers => l.flush answers
  | .receive answers => l.receive answers
  | .close => l.close

/-- What may happen next. The sender closes the socket when its queue is empty, and does nothing
after that. -/
def Allows : Move → Prop
  | .enqueue _ => l.socket.closed = false
  | .flush answers => l.socket.closed = false ∧ ∀ a ∈ answers, a.Regular
  | .receive answers => ∀ a ∈ answers, a.Regular
  | .close => l.socket.closed = false ∧ l.sender.isEmpty = true

instance : DecidablePred l.Allows
  | .enqueue _ => inferInstanceAs (Decidable (l.socket.closed = false))
  | .flush answers =>
    inferInstanceAs (Decidable (l.socket.closed = false ∧ ∀ a ∈ answers, a.Regular))
  | .receive answers => inferInstanceAs (Decidable (∀ a ∈ answers, a.Regular))
  | .close => inferInstanceAs (Decidable (l.socket.closed = false ∧ l.sender.isEmpty = true))

def Step (l l' : Link) : Prop := ∃ m, l.Allows m ∧ l' = l.apply m

def Reached (limits : FrameLimits) (l : Link) : Prop := Relation.ReflTransGen Step (start limits) l

lemma Reached.apply {limits : FrameLimits} {l : Link} (h : Reached limits l) {m : Move}
    (hm : l.Allows m) : Reached limits (l.apply m) := h.tail ⟨m, hm, rfl⟩

def run : List Move → Link → Link
  | [], l => l
  | m :: moves, l => run moves (l.apply m)

def AllowsAll : List Move → Link → Prop
  | [], _ => True
  | m :: moves, l => l.Allows m ∧ AllowsAll moves (l.apply m)

instance decidableAllowsAll : ∀ moves l, Decidable (AllowsAll moves l)
  | [], _ => inferInstanceAs (Decidable True)
  | m :: moves, l =>
    have := decidableAllowsAll moves (l.apply m)
    inferInstanceAs (Decidable (l.Allows m ∧ AllowsAll moves (l.apply m)))

lemma Reached.run {limits : FrameLimits} {moves : List Move} {l : Link} (h : Reached limits l)
    (hmoves : AllowsAll moves l) : Reached limits (run moves l) := by
  induction moves generalizing l with
  | nil => exact h
  | cons m moves ih => exact ih (h.apply hmoves.1) hmoves.2

/-- The receives that did not come back for want of bytes. -/
def yields : List (Except Unwind ReceiveOutcome) := l.receives.filter (· ≠ .ok .wouldBlock)

end Link

end PipewireNative.Frame
