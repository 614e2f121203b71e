import PipewireNative.Frame.Flush
import PipewireNative.Marshal.Methods
import PipewireNative.Protocol.Client

/-!
The sending end of a connection: methods are encoded into a buffer that grows, and queued as
frames that are numbered and that tell the server which generation of its registry was seen.
-/

namespace PipewireNative.Protocol

open Lib Lib.Word Prog Wire Marshal
open Pod hiding Fault
open Frame (OwnedFd Header FrameSender SendFrame OutboundFrame)

/-! ### Encoding -/

def maxMessageSize : ℕ := 16777216

def growPayloadBuffer (payload : List UInt8) : Except ClientFault (List UInt8) :=
  if maxMessageSize / 2 < payload.length then
    .error (.message .invalidInput s!"cannot send message > {maxMessageSize}")
  else .ok (payload ++ List.replicate payload.length 0)

def podEncodeError : Pod.Fault → ClientFault
  | .error e => .message .invalidData ("could not encode message payload: " ++ debugError e)
  | .panic => .panic

/-- What one turn of the loop writes: the body, and the footer behind it. -/
def encodeMessage (object : Marshallable) (footer : Option ClientFooter) : Write ℕ := do
  let objectSize ← object.encode
  match footer with
  | some footer => do
    let footerSize ← within objectSize footer.encode
    pure (objectSize + footerSize)
  | none => pure objectSize

/-- The loop in which the buffer grows; there is no result when it goes on after so many turns. -/
def encodeLoop (object : Marshallable) (footer : Option ClientFooter) :
    ℕ → List UInt8 → Option (Except ClientFault (List UInt8))
  | 0, _ => none
  | turns + 1, payload =>
    match encodeMessage object footer payload with
    | (.ok size, payload) => some (.ok (payload.take size))
    | (.error f, payload) =>
      if f = .noSpace then
        match growPayloadBuffer payload with
        | .ok payload => encodeLoop object footer turns payload
        | .error e => some (.error e)
      else some (.error (podEncodeError f))

/-- The buffer at the beginning. -/
def emptyPayload : List UInt8 := List.replicate 16384 0

/-- How often the buffer can double, and once more. -/
def turns : ℕ := 11

/-- The payload of a message; a loop that goes on would not come back. -/
def encodePayload (object : Marshallable) (footer : Option ClientFooter) :
    Except ClientFault (List UInt8) :=
  (encodeLoop object footer turns emptyPayload).getD (.error .panic)

/-! ### The connection -/

/-- The state of a connection that sending uses, and how often its listeners were told that there is
something to flush. -/
structure Connection where
  lastRecvGeneration : Int64
  outSeq : UInt32
  sender : FrameSender
  lastSentGeneration : Int64
  needFlush : ℕ

/-- `ASYNC_SEQ_MASK`. -/
def asyncSeqMask : UInt32 := 0x3fffffff

namespace Connection

def new : Connection := ⟨0, 0, .new .standard, 0, 0⟩

/-- The generation that the next message has to tell. -/
def unseen (c : Connection) : Option Int64 :=
  if c.lastSentGeneration < c.lastRecvGeneration then some c.lastRecvGeneration else none

def footer (c : Connection) : Option ClientFooter := c.unseen.map fun generation => ⟨[generation]⟩

/-- `push_with_owned_fds`. -/
def push (id : UInt32) (object : Marshallable) (fds : List OwnedFd) :
    Prog Connection ClientFault Unit := do
  let c ← .get
  let payload ← .ofExcept (encodePayload object c.footer)
  let frame ← .ofExcept
    ((OutboundFrame.new id object.opcode c.outSeq payload fds .standard).mapError .frame)
  ((FrameSender.enqueue frame).mapErr .frame).zoom sender fun sender c => { c with sender }
  .modify fun c' => { c' with
    lastSentGeneration := if c.footer.isSome then c.lastRecvGeneration else c'.lastSentGeneration
    outSeq := (c.outSeq + 1) &&& asyncSeqMask
    needFlush := c'.needFlush + 1 }

/-- `update_generation`. -/
def update (footer : Option CoreFooter) (c : Connection) : Connection :=
  { c with lastRecvGeneration := updateGeneration footer c.lastRecvGeneration }

end Connection

/-- What a run is made of. -/
inductive Op where
  | update (footer : Option CoreFooter)
  | push (id : UInt32) (object : Marshallable) (fds : List OwnedFd)

def Op.apply (c : Connection) : Op → Connection
  | .update footer => c.update footer
  | .push id object fds => (Connection.push id object fds c).2

/-- A run from the beginning. -/
def run (ops : List Op) : Connection := ops.foldl Op.apply .new

/-! ### The loop ends -/

/-- The codec of the ClientNode panics. -/
def CodecPanics (object : Marshallable) : Prop :=
  ∃ method, object = .clientNode method ∧ encodeMethod method = .error .panic

/-- The bytes of a footer, if there is one. -/
def footerBytes (footer : Option ClientFooter) : List UInt8 := footer.elim [] ClientFooter.bytes

/-- These bytes are a body of the method, and the footer. -/
def Message (object : Marshallable) (footer : Option ClientFooter) (payload : List UInt8) : Prop :=
  ∃ body, Encodes object.encode body ∧ payload = body ++ footerBytes footer

section Loop

variable {object : Marshallable} {footer : Option ClientFooter} {payload : List UInt8}

/-- What is left when a turn fails. -/
def Unsent (object : Marshallable) (payload : List UInt8) (f : Pod.Fault) (payload' : List UInt8) :
    Prop :=
  payload'.length = payload.length ∧ (f = .panic → CodecPanics object)

lemma unsent_of_refused {f : Pod.Fault} {payload' : List UInt8}
    (h : object.Refused payload f payload') : Unsent object payload f payload' := by
  obtain ⟨hlen, rfl | ⟨method, e, rfl, hencode, rfl⟩⟩ := h
  · exact ⟨hlen, nofun⟩
  · refine ⟨hlen, fun hpanic => ⟨method, rfl, ?_⟩⟩
    cases e with
    | io kind message => cases hpanic
    | panic => exact hencode

lemma encodeMessage_ends (object : Marshallable) (footer : Option ClientFooter)
    (hlen : payload.length < 2 ^ 32) :
    (encodeMessage object footer).Ends payload
      (fun size payload' => Message object footer (payload'.take size))
      (Unsent object payload) := by
  unfold encodeMessage
  rw [ends_bind]
  refine (object.encode_ends hlen).mono ?_ fun _ _ => unsent_of_refused
  rintro size payload' ⟨body, hbody, rfl, hle, rfl⟩
  cases footer with
  | none => exact ⟨body, hbody, by simp [footerBytes]⟩
  | some footer =>
    simp only []
    rw [ends_bind, ends_within rfl]
    refine (footer.encode_fills _).mono ?_ ?_
    · rintro n rest ⟨rfl, -, rfl⟩
      refine ⟨body, hbody, ?_⟩
      rw [← List.append_assoc, ← List.length_append]
      exact List.take_left
    · rintro f rest ⟨rfl, -, hrest⟩
      refine ⟨?_, nofun⟩
      rw [List.length_append, hrest, List.length_drop]
      omega

/-- The loop ends before the turns do: with each of them the buffer doubles, up to the limit. -/
lemma encodeLoop_ends (object : Marshallable) (footer : Option ClientFooter) (turns : ℕ)
    (hle : payload.length ≤ 2 ^ 24) (hturns : 2 ^ 24 < payload.length * 2 ^ turns) :
    ∃ r, encodeLoop object footer turns payload = some r ∧
      (∀ bytes, r = .ok bytes → Message object footer bytes) ∧
      (r = .error .panic → CodecPanics object) := by
  induction turns generalizing payload with
  | zero => omega
  | succ turns ih =>
    have hlt : payload.length < 2 ^ 32 := by omega
    have hends := encodeMessage_ends object footer hlt
    unfold encodeLoop
    cases hrun : encodeMessage object footer payload with
    | mk r payload' =>
      cases r with
      | ok size =>
        refine ⟨_, rfl, ?_, nofun⟩
        rintro bytes ⟨⟩
        exact hends.run_ok hrun
      | error f =>
        obtain ⟨hlen, hpanic⟩ := hends.run_error hrun
        by_cases hspace : f = .noSpace
        · simp only [hspace, if_true, growPayloadBuffer]
          split_ifs with hmax
          · exact ⟨_, rfl, nofun, nofun⟩
          · have hdouble : (payload' ++ List.replicate payload'.length 0).length =
                2 * payload.length := by
              rw [List.length_append, List.length_replicate, hlen]
              omega
            unfold maxMessageSize at hmax
            refine ih (by omega) ?_
            calc 2 ^ 24 < payload.length * 2 ^ (turns + 1) := hturns
              _ = 2 * payload.length * 2 ^ turns := by
                rw [Nat.pow_succ, Nat.mul_comm (2 ^ turns), ← Nat.mul_assoc, Nat.mul_comm 2]
              _ = _ := by rw [hdouble]
        · simp only [hspace, if_false]
          refine ⟨_, rfl, nofun, fun h => hpanic ?_⟩
          cases f with
          | error e => cases h
          | panic => rfl

lemma encodeLoop_emptyPayload (object : Marshallable) (footer : Option ClientFooter) :
    ∃ r, encodeLoop object footer turns emptyPayload = some r ∧
      (∀ bytes, r = .ok bytes → Message object footer bytes) ∧
      (r = .error .panic → CodecPanics object) := by
  have hlen : emptyPayload.length = 16384 := List.length_replicate
  refine encodeLoop_ends object footer turns (by omega) ?_
  rw [hlen]
  decide

lemma encodePayload_spec (object : Marshallable) (footer : Option ClientFooter) :
    (∀ bytes, encodePayload object footer = .ok bytes → Message object footer bytes) ∧
      (encodePayload object footer = .error .panic → CodecPanics object) := by
  obtain ⟨r, hloop, hr⟩ := encodeLoop_emptyPayload object footer
  unfold encodePayload
  rw [hloop]
  exact hr

end Loop

/-! ### Frames -/

/-- What was sent: a method of an object, its number, its body, and the generation in its footer. -/
structure Sent where
  id : UInt32
  opcode : UInt8
  seq : UInt32
  body : List UInt8
  generation : Option Int64
  fds : List OwnedFd

namespace Sent

def payload (sent : Sent) : List UInt8 :=
  sent.body ++ sent.generation.elim [] fun generation => ClientFooter.bytes ⟨[generation]⟩

/-- The frame in the queue. -/
def frame (sent : Sent) : SendFrame where
  bytes := Header.bytes ⟨sent.id, sent.opcode, .ofNat sent.payload.length, sent.seq,
    .ofNat sent.fds.length⟩ ++ sent.payload
  offset := 0
  fds := sent.fds
  ancillarySent := false

end Sent

/-- A push that succeeds adds one frame, with the number that is next and with a footer if and only
if there is a generation that was not told. -/
structure Pushed (id : UInt32) (object : Marshallable) (fds : List OwnedFd) (c c' : Connection)
    (body : List UInt8) : Prop where
  encodes : Encodes object.encode body
  queue : c'.sender.queue =
    c.sender.queue ++ [Sent.frame ⟨id, object.opcode, c.outSeq, body, c.unseen, fds⟩]
  outSeq : c'.outSeq.toNat = (c.outSeq.toNat + 1) % 2 ^ 30
  lastSentGeneration : c'.lastSentGeneration = c.unseen.getD c.lastSentGeneration
  lastRecvGeneration : c'.lastRecvGeneration = c.lastRecvGeneration

lemma toNat_next (seq : UInt32) : ((seq + 1) &&& asyncSeqMask).toNat = (seq.toNat + 1) % 2 ^ 30 := by
  have hmask : asyncSeqMask.toNat = 2 ^ 30 - 1 := rfl
  rw [UInt32.toNat_and, hmask, Nat.and_two_pow_sub_one_eq_mod, UInt32.toNat_add]
  exact Nat.mod_mod_of_dvd _ (by decide)

lemma Message.payload_eq {object : Marshallable} {c : Connection} {bytes : List UInt8}
    (h : Message object c.footer bytes) (id : UInt32) (fds : List OwnedFd) :
    ∃ body, Encodes object.encode body ∧
      bytes = Sent.payload ⟨id, object.opcode, c.outSeq, body, c.unseen, fds⟩ := by
  obtain ⟨body, hbody, rfl⟩ := h
  refine ⟨body, hbody, ?_⟩
  unfold Sent.payload footerBytes Connection.footer
  cases c.unseen <;> rfl

/-- **Pushing.** A push adds one frame, or changes nothing. -/
theorem push_ends (id : UInt32) (object : Marshallable) (fds : List OwnedFd) (c : Connection) :
    (Connection.push id object fds).Ends c
      (fun _ c' => ∃ body, Pushed id object fds c c' body)
      (fun f c' => c' = c ∧ (f = .panic → CodecPanics object)) := by
  obtain ⟨hok, hpanic⟩ := encodePayload_spec object c.footer
  unfold Connection.push
  rw [ends_bind, ends_get, ends_bind, ends_ofExcept]
  cases hpayload : encodePayload object c.footer with
  | error f => exact ⟨rfl, fun hf => hpanic (hf ▸ hpayload)⟩
  | ok payload =>
    obtain ⟨body, hbody, rfl⟩ := (hok payload hpayload).payload_eq id fds
    simp only []
    rw [ends_bind, ends_ofExcept]
    cases hframe : OutboundFrame.new id object.opcode c.outSeq
        (Sent.payload ⟨id, object.opcode, c.outSeq, body, c.unseen, fds⟩) fds .standard with
    | error e => exact ⟨rfl, nofun⟩
    | ok frame =>
      obtain ⟨hfds, hbytes⟩ := OutboundFrame.new_eq_ok hframe
      simp only [Except.mapError]
      rw [ends_bind, ends_zoom, ends_mapErr]
      refine FrameSender.enqueue_ends.mono ?_ ?_
      · rintro - sender ⟨-, -, -, -, hqueue⟩
        refine ⟨body, hbody, ?_, toNat_next c.outSeq, ?_, rfl⟩
        · change sender.queue = _
          rw [hqueue, hfds, hbytes]
          rfl
        · change (if c.footer.isSome then c.lastRecvGeneration else c.lastSentGeneration) = _
          by_cases hlt : c.lastSentGeneration < c.lastRecvGeneration <;>
            simp [Connection.footer, Connection.unseen, hlt]
      · rintro e sender rfl
        exact ⟨rfl, nofun⟩

/-! ### Runs -/

/-- What was sent, of which nothing has left the queue: it is numbered from 0, and the generations
that were told increase up to the last one. -/
structure Logged (c : Connection) (log : List Sent) : Prop where
  queue : c.sender.queue = log.map Sent.frame
  next : c.outSeq.toNat = log.length % 2 ^ 30
  seqs : log.map (fun sent => sent.seq.toNat) = (List.range log.length).map (· % 2 ^ 30)
  increasing : (log.filterMap Sent.generation).Pairwise (· < ·)
  told : ∀ generation ∈ log.filterMap Sent.generation, generation ≤ c.lastSentGeneration

lemma logged_new : Logged .new [] := ⟨rfl, rfl, rfl, .nil, nofun⟩

lemma Logged.update {c : Connection} {log : List Sent} (h : Logged c log)
    (footer : Option CoreFooter) : Logged (c.update footer) log :=
  ⟨h.queue, h.next, h.seqs, h.increasing, h.told⟩

lemma lt_of_mem_unseen {c : Connection} {generation : Int64} (h : c.unseen = some generation) :
    c.lastSentGeneration < generation := by
  unfold Connection.unseen at h
  split_ifs at h with hlt
  cases h
  exact hlt

lemma Logged.pushed {c c' : Connection} {log : List Sent} {id : UInt32} {object : Marshallable}
    {fds : List OwnedFd} {body : List UInt8} (h : Logged c log)
    (hpush : Pushed id object fds c c' body) :
    Logged c' (log ++ [⟨id, object.opcode, c.outSeq, body, c.unseen, fds⟩]) where
  queue := by
    rw [hpush.queue, h.queue, List.map_append]
    rfl
  next := by
    rw [hpush.outSeq, h.next, List.length_append, Nat.mod_add_mod]
    rfl
  seqs := by
    rw [List.map_append, h.seqs, List.length_append, List.length_singleton, List.range_succ,
      List.map_append, List.map_singleton, List.map_singleton, h.next]
  increasing := by
    rw [List.filterMap_append, List.pairwise_append]
    refine ⟨h.increasing, ?_, fun a ha b hb => ?_⟩
    · cases c.unseen <;> simp
    · have hunseen : c.unseen = some b := by simpa using hb
      exact Int64.lt_of_le_of_lt (h.told a ha) (lt_of_mem_unseen hunseen)
  told := by
    intro generation hmem
    rw [hpush.lastSentGeneration]
    rw [List.filterMap_append, List.mem_append] at hmem
    cases hunseen : c.unseen with
    | none =>
      refine h.told generation (hmem.resolve_right ?_)
      simp [hunseen]
    | some last =>
      obtain hmem | hmem := hmem
      · exact Int64.le_of_lt (Int64.lt_of_le_of_lt (h.told generation hmem) (lt_of_mem_unseen hunseen))
      · obtain rfl : generation = last := by simpa [hunseen] using hmem
        exact Int64.le_refl _

/-- What a run sends: a push that succeeds adds a message, and one that fails adds nothing. -/
inductive Sends : Connection → List Op → Connection → List Sent → Prop
  | nil (c : Connection) : Sends c [] c []
  | update {c c' : Connection} {footer : Option CoreFooter} {ops : List Op} {log : List Sent}
      (rest : Sends (c.update footer) ops c' log) : Sends c (.update footer :: ops) c' log
  | refused {c c' : Connection} {id : UInt32} {object : Marshallable} {fds : List OwnedFd}
      {ops : List Op} {log : List Sent} {f : ClientFault}
      (push : Connection.push id object fds c = (.error f, c)) (rest : Sends c ops c' log) :
      Sends c (.push id object fds :: ops) c' log
  | pushed {c c₁ c' : Connection} {id : UInt32} {object : Marshallable} {fds : List OwnedFd}
      {ops : List Op} {log : List Sent} {body : List UInt8}
      (push : Connection.push id object fds c = (.ok (), c₁))
      (adds : Pushed id object fds c c₁ body) (rest : Sends c₁ ops c' log) :
      Sends c (.push id object fds :: ops) c'
        (⟨id, object.opcode, c.outSeq, body, c.unseen, fds⟩ :: log)

lemma exists_sends (ops : List Op) (c : Connection) :
    ∃ log, Sends c ops (ops.foldl Op.apply c) log := by
  induction ops generalizing c with
  | nil => exact ⟨[], .nil c⟩
  | cons op ops ih =>
    obtain ⟨log, hrest⟩ := ih (op.apply c)
    cases op with
    | update footer => exact ⟨log, .update hrest⟩
    | push id object fds =>
      have hends := push_ends id object fds c
      rcases hrun : Connection.push id object fds c with ⟨r, c₁⟩
      have happly : Op.apply c (.push id object fds) = c₁ := congrArg Prod.snd hrun
      rw [happly] at hrest
      rw [List.foldl_cons, happly]
      cases r with
      | error f =>
        obtain ⟨rfl, -⟩ := hends.run_error hrun
        exact ⟨log, .refused hrun hrest⟩
      | ok u =>
        obtain ⟨body, hpush⟩ := hends.run_ok hrun
        exact ⟨_, .pushed hrun hpush hrest⟩

lemma Sends.logged {c c' : Connection} {ops : List Op} {log : List Sent} (h : Sends c ops c' log) :
    ∀ {sent : List Sent}, Logged c sent → Logged c' (sent ++ log) := by
  induction h with
  | nil c =>
    intro sent hsent
    rwa [List.append_nil]
  | update rest ih => exact fun hsent => ih (hsent.update _)
  | refused push rest ih => exact ih
  | pushed push adds rest ih =>
    intro sent hsent
    rw [List.append_cons]
    exact ih (hsent.pushed adds)

/-- **Sending.** After every run of updates of the generation and of pushes: a push that fails leaves
the connection as it is, and one that succeeds adds a frame with the next number, of a body of the
method and of a footer exactly if a generation was received that is greater than the one that was
told last; the frames of the run are numbered from 0, modulo `2 ^ 30`, and the generations in their
footers increase. The loop in which the buffer grows ends for every method. -/
theorem run_pushes (ops : List Op) :
    (∀ id object fds, (Connection.push id object fds).Ends (run ops)
      (fun _ c => ∃ body, Pushed id object fds (run ops) c body)
      (fun f c => c = run ops ∧ (f = .panic → CodecPanics object))) ∧
    (∃ log : List Sent, Sends .new ops (run ops) log ∧
      (run ops).sender.queue = log.map Sent.frame ∧
      log.map (fun sent => sent.seq.toNat) = (List.range log.length).map (· % 2 ^ 30) ∧
      (log.filterMap Sent.generation).Pairwise (· < ·)) ∧
    ∀ object footer, (encodeLoop object footer turns emptyPayload).isSome := by
  refine ⟨fun id object fds => push_ends id object fds _, ?_, fun object footer => ?_⟩
  · obtain ⟨log, hsends⟩ := exists_sends ops .new
    have h : Logged (run ops) log := hsends.logged logged_new
    exact ⟨log, hsends, h.queue, h.seqs, h.increasing⟩
  · obtain ⟨r, hloop, -⟩ := encodeLoop_emptyPayload object footer
    rw [hloop]
    rfl

end PipewireNative.Protocol
