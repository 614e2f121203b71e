import PipewireNative.Marshal.Lists

/-!
The client's end of a connection: frames are received one by one, and each of them goes to the
object it is for. A message whose opcode is unknown is ignored, unless the object is a ClientNode
and the payload does not begin with a pod.
-/

namespace PipewireNative.Protocol

open Lib Prog Wire Marshal
open Pod hiding Fault
open Frame (FrameFds OwnedFd FrameError FrameReceiver ReceivedFrame RecvAnswer ReceiveOutcome Receiving
  Unwind)

/-! ### Receiving messages -/

/-- How a call comes back that handled no message: the error of the socket or of the frames, the
error of a message, or a panic. -/
inductive ClientFault where
  | again
  | brokenPipe
  | notConnected
  | frame (e : FrameError)
  | message (kind : ErrorKind) (text : String)
  | panic
  deriving DecidableEq

/-- The state of a client: its stream and the receiver of frames, the types of the objects that are
registered, what the last message left, what was made known, and the descriptors of messages that
were closed. -/
structure Client where
  stream : Option Frame.Socket
  receiver : FrameReceiver
  objects : UInt32 → Option Family
  lastInSeq : UInt32
  generation : Int64
  notices : List Notice
  closed : List OwnedFd

/-- What `receive_frame` makes of the outcome of the receiver. -/
def frameOf : Except Unwind ReceiveOutcome → Except ClientFault ReceivedFrame
  | .ok (.frame frame) => .ok frame
  | .ok .wouldBlock => .error .again
  | .ok .closed => .error .brokenPipe
  | .error (.error e) => .error (.frame e)
  | .error .panic => .error .panic

/-- `receive_frame`, with these answers of the kernel. -/
def receiveFrame (answers : List RecvAnswer) : Prog Client ClientFault ReceivedFrame := fun c =>
  match c.stream with
  | none => (.error .notConnected, c)
  | some socket =>
    let r := Receiving.receive answers ⟨c.receiver, socket⟩
    (frameOf r.1, { c with receiver := r.2.receiver, stream := some r.2.socket })

/-- The descriptors that are left in a table. -/
def remaining (fds : FrameFds) : List OwnedFd := fds.filterMap id

/-- The message of a frame; the descriptors that it did not take are closed. -/
def demarshalFrame (env : Env) (family : Family) (frame : ReceivedFrame) : Prog Client Fault Unit :=
  (demarshal env family frame.header.opcode frame.payload).zoom
    (fun c => ⟨frame.fds, c.generation, c.notices⟩)
    fun inbox c =>
      { c with
        generation := inbox.generation
        notices := inbox.notices
        closed := c.closed ++ remaining inbox.fds }

def setLastInSeq (seq : UInt32) : Prog Client ClientFault Unit :=
  .modify fun c => { c with lastInSeq := seq }

/-- `process_messages`. -/
def processMessages (env : Env) (answers : List RecvAnswer) : Prog Client ClientFault Unit := do
  let frame ← receiveFrame answers
  let c ← .get
  match c.objects frame.header.objectId with
  | none => .modify fun c => { c with closed := c.closed ++ remaining frame.fds }
  | some family => do
    match ← (demarshalFrame env family frame).attempt with
    | .ok () => setLastInSeq frame.header.seq
    | .error (.io .unsupported _) => setLastInSeq frame.header.seq
    | .error (.io kind text) => .fail (.message kind text)
    | .error .panic => .fail .panic

/-- The loop of `on_remote_data`, with the answers for each round: it ends when there is no further
message, and hands an error to `on_connection_error`. -/
def readMessages (env : Env) : List (List RecvAnswer) → Prog Client ClientFault Unit
  | [] => pure ()
  | answers :: rest => do
    match ← (processMessages env answers).attempt with
    | .ok () => readMessages env rest
    | .error .again => pure ()
    | .error e => .fail e

/-! ### Unknown opcodes -/

/-- The opcodes of the events of a ClientNode. -/
def clientNodeOpcodes : List UInt8 :=
  [Opcode.transport, Opcode.portSetParam, Opcode.portUseBuffers, Opcode.portSetIo,
    Opcode.setActivation, Opcode.command]

/-- An interface has an event with this opcode. -/
def Knows (family : Family) (opcode : UInt8) : Prop :=
  match family with
  | .clientNode => opcode ∈ clientNodeOpcodes
  | family => opcode.toNat < family.layouts.length

section Unknown

variable {T : Type} {room : Room} {variants : List (Variant T)} {opcode : UInt8}

lemma decode_unknown (h : ¬ opcode.toNat < (layouts variants).length) (payload : List UInt8)
    {deliver : T → Handle Unit} (inbox : Inbox) :
    ∃ text, (decode room variants opcode payload >>= deliver) inbox =
      (.error (.io .unsupported text), inbox) := by
  have hread : readMessage room variants opcode payload = .error (.io .unsupported
      ("could not decode message body: " ++ debugError (unknownOpcode opcode))) := by
    rw [layouts, List.length_map, Nat.not_lt] at h
    unfold readMessage decodeVariant
    rw [List.getElem?_eq_none h]
    simp only [Except.mapError, bodyError, if_pos]
    rfl
  refine ⟨"could not decode message body: " ++ debugError (unknownOpcode opcode), ?_⟩
  unfold decode
  rw [hread, bind_assoc]
  rfl

lemma decodeClientNodeEvent_unknown (h : opcode ∉ clientNodeOpcodes) {payload : List UInt8}
    {pod : RawPod} (hwrap : RawPod.wrap payload = .ok pod) {deliver : Event → Handle Unit}
    (inbox : Inbox) :
    ∃ text, (decodeClientNodeEvent opcode payload >>= deliver) inbox =
      (.error (.io .unsupported text), inbox) := by
  have hsize : pod.size ≤ payload.length := by
    have hdata := ((RawPod.wrap_calm payload).ok hwrap).1
    rw [RawPod.size, hdata, List.length_take]
    omega
  have hlocated : ((RawPod.wrap payload).mapError locateError : Result _) = .ok pod := by
    rw [hwrap]
    rfl
  have hslice : ((slice payload 0 pod.size : Read _).mapError locateError : Result _) =
      .ok ((payload.drop 0).take (pod.size - 0)) := by
    rw [slice_of_le (Nat.zero_le _) hsize]
    rfl
  simp only [clientNodeOpcodes, List.mem_cons, List.not_mem_nil, or_false, not_or] at h
  obtain ⟨htransport, hparam, hbuffers, hio, hactivation, hcommand⟩ := h
  refine ⟨s!"unknown ClientNode event opcode {opcode}", ?_⟩
  unfold decodeClientNodeEvent
  rw [bind_assoc, ofExcept_bind hlocated, bind_assoc, ofExcept_bind hslice, bind_assoc,
    decodeEvent, if_neg htransport, if_neg hparam, if_neg hbuffers, if_neg hio, if_neg hactivation,
    if_neg hcommand]
  rfl

lemma decodeClientNodeEvent_unlocated {payload : List UInt8}
    (hwrap : ∀ pod, RawPod.wrap payload ≠ .ok pod) {deliver : Event → Handle Unit} (inbox : Inbox) :
    ∃ text, (decodeClientNodeEvent opcode payload >>= deliver) inbox =
      (.error (.io .invalidData text), inbox) := by
  cases hr : RawPod.wrap payload with
  | ok pod => exact absurd hr (hwrap pod)
  | error f =>
    have hcalm := (RawPod.wrap_calm payload).ne_panic
    cases f with
    | panic => exact absurd hr hcalm
    | error e =>
      refine ⟨"could not locate ClientNode message body: " ++ debugError e, ?_⟩
      unfold decodeClientNodeEvent
      rw [hr, bind_assoc]
      rfl

/-- A message with an unknown opcode is unsupported, and changes nothing. -/
lemma demarshal_unknown (env : Env) {family : Family} (h : ¬ Knows family opcode)
    {payload : List UInt8} (hwrap : family ≠ .clientNode ∨ ∃ pod, RawPod.wrap payload = .ok pod)
    (inbox : Inbox) :
    ∃ text, demarshal env family opcode payload inbox = (.error (.io .unsupported text), inbox) := by
  cases family with
  | clientNode =>
    obtain ⟨pod, hpod⟩ := hwrap.resolve_left fun hne => hne rfl
    exact decodeClientNodeEvent_unknown h hpod inbox
  | _ =>
    refine decode_unknown ?_ payload inbox
    exact fun hlt => h hlt

end Unknown

/-- The state behind a message that is ignored: its number is noted, and its descriptors are
closed. -/
def Client.ignored (c : Client) (frame : ReceivedFrame) : Client :=
  { c with lastInSeq := frame.header.seq, closed := c.closed ++ remaining frame.fds }

lemma processMessages_of_demarshal {env : Env} {answers : List RecvAnswer} {c c' : Client}
    {frame : ReceivedFrame} {family : Family} {kind : ErrorKind} {text : String}
    (hframe : receiveFrame answers c = (.ok frame, c'))
    (hobject : c'.objects frame.header.objectId = some family)
    (hrun : demarshal env family frame.header.opcode frame.payload
      ⟨frame.fds, c'.generation, c'.notices⟩ =
        (.error (.io kind text), ⟨frame.fds, c'.generation, c'.notices⟩)) :
    processMessages env answers c =
      if kind = .unsupported then (.ok (), c'.ignored frame)
      else (.error (.message kind text),
        { c' with closed := c'.closed ++ remaining frame.fds }) := by
  have hattempt : (demarshalFrame env family frame).attempt c' =
      ((.ok (.error (.io kind text)), { c' with closed := c'.closed ++ remaining frame.fds }) :
        Except ClientFault (Except Fault Unit) × Client) := by
    unfold demarshalFrame attempt zoom
    rw [hrun]
  unfold processMessages
  rw [bind_ok hframe, get_bind, hobject]
  simp only []
  rw [bind_ok hattempt]
  cases kind <;> rfl

/-- **Unknown opcodes are ignored**: a message of a registered object whose opcode its interface does
not know leaves the client as it was, but for the descriptors of the frame, and the next frame is
handled, exactly when the object is no ClientNode or the payload begins with a pod. -/
theorem processMessages_unknown_iff (env : Env) (answers : List RecvAnswer) (c c' : Client)
    (frame : ReceivedFrame) (family : Family) (hframe : receiveFrame answers c = (.ok frame, c'))
    (hobject : c'.objects frame.header.objectId = some family)
    (hunknown : ¬ Knows family frame.header.opcode) :
    (processMessages env answers c = (.ok (), c'.ignored frame) ∧
      ∀ rest, readMessages env (answers :: rest) c = readMessages env rest (c'.ignored frame)) ↔
      family ≠ .clientNode ∨ ∃ pod, RawPod.wrap frame.payload = .ok pod := by
  constructor
  · rintro ⟨hok, -⟩
    by_contra hc
    rw [not_or, not_not, not_exists] at hc
    obtain ⟨rfl, hwrap⟩ := hc
    obtain ⟨text, hrun⟩ := decodeClientNodeEvent_unlocated hwrap _
    rw [processMessages_of_demarshal hframe hobject hrun, if_neg (by decide)] at hok
    cases hok
  · intro hwrap
    obtain ⟨text, hrun⟩ := demarshal_unknown env hunknown hwrap _
    have hok := processMessages_of_demarshal hframe hobject hrun
    rw [if_pos rfl] at hok
    refine ⟨hok, fun rest => ?_⟩
    have hattempt : (processMessages env answers).attempt c =
        ((.ok (.ok ()), c'.ignored frame) :
          Except ClientFault (Except ClientFault Unit) × Client) := by
      unfold attempt
      rw [hok]
    rw [readMessages, bind_ok hattempt]

/-- A client with one object, that got a frame for it: opcode 200, and a payload of one byte. -/
def strange (family : Family) : Client where
  stream := some ⟨[], false⟩
  receiver := { FrameReceiver.new .standard with
    bytes := (Frame.Header.mk 7 200 1 9 0).bytes ++ [0xff]
    streamEnd := 17 }
  objects := fun id => if id = 7 then some family else none
  lastInSeq := 0
  generation := 0
  notices := []
  closed := []

/-- For a ClientNode it is an error, which ends the connection. -/
theorem readMessages_strange_clientNode :
    (readMessages ⟨0, none, .off⟩ [[], []] (strange .clientNode)).1 =
      .error (.message .invalidData "could not locate ClientNode message body: NoSpace") := by
  rfl

/-- The frame. -/
def strangeFrame : ReceivedFrame := ⟨⟨7, 200, 1, 9, 0⟩, [0xff], []⟩

/-- A registry ignores it. -/
theorem processMessages_strange_registry : ∃ c',
    receiveFrame [] (strange .registry) = (.ok strangeFrame, c') ∧
      processMessages ⟨0, none, .off⟩ [] (strange .registry) = (.ok (), c'.ignored strangeFrame) := by
  have hunknown : ¬ Knows .registry strangeFrame.header.opcode := by
    change ¬ (200 : ℕ) < 2
    decide
  exact ⟨_, rfl, ((processMessages_unknown_iff ⟨0, none, .off⟩ [] _ _ strangeFrame .registry rfl rfl
    hunknown).2 (.inl (by decide))).1⟩

end PipewireNative.Protocol
