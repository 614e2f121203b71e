import PipewireNative.Frame.Stream

/-!
The limits as they come: a sender takes frames of up to 1024 descriptors, but a message carries no
more than 253 of them and the control buffer of a receiver no more than 64. So a frame the sender
takes is delivered when it has at most 64 descriptors, and only then.
-/

namespace PipewireNative.Frame

open Lib Prog

namespace Link

variable {limits : FrameLimits} {l : Link} {f : OutboundFrame}

/-- Every run in which the sender has accepted the frame, and no other, delivers it. -/
def Delivers (f : OutboundFrame) : Prop :=
  ∀ l, Reached .standard l → l.accepted = [f] → l.Delivering

/-! ### Few descriptors -/

/-- Where all the frames together have no more descriptors than may be pending, the receiver never
finds too many. -/
lemma Reached.within (halloc : limits.Allocatable) (hl : Reached limits l)
    (hfds : ∀ f ∈ l.accepted, f.fds.length ≤ scmMaxFd ∧ f.fds.length ≤ limits.recvControlFds)
    (htotal : l.total < usizeBound)
    (hcargo : (cargo (wire l.accepted)).length ≤ limits.maxPendingFds) : Within limits l := by
  induction hl with
  | refl => exact ⟨⟨hfds, by simp [start]⟩, htotal⟩
  | @tail l _ hl hstep ih =>
    obtain ⟨m, hm, rfl⟩ := hstep
    obtain ⟨more, hmore⟩ := accepted_grows l m
    have hwithin : Within limits l := by
      refine ih (fun f hf => hfds f (hmore ▸ List.mem_append_left _ hf)) ?_ ?_
      · rw [total, ← hmore, List.map_append, List.sum_append] at htotal
        unfold total
        omega
      · rw [← hmore, wire_append, cargo_append, List.length_append] at hcargo
        omega
    refine ⟨⟨hfds, ?_⟩, htotal⟩
    cases m with
    | enqueue | flush | close => exact hwithin.pending
    | receive answers =>
      intro received limit hmem
      rcases List.mem_append.1 hmem with hmem | hmem
      · exact hwithin.pending received limit hmem
      · have hrun := List.mem_singleton.1 hmem
        rcases (Reached.sync halloc hl hwithin).stage with ⟨done, todo, held, hacc, -, hat⟩ | hover
        · -- the error would be one of too many descriptors to come
          have hends := Receiving.receive_ends halloc hm hat
          have hover := hends.run_error (Prod.ext hrun.symm rfl)
          have hcargo' : (cargo (wire l.accepted)).length ≤ limits.maxPendingFds := hcargo
          rw [hacc, wire_append, cargo_append, List.length_append] at hcargo'
          have := hover.2
          omega
        · rw [receive_over hover] at hrun
          simp at hrun

lemma delivers_of_le (hfds : f.fds.length ≤ 64) : Delivers f := by
  intro l hl hacc
  have halloc : FrameLimits.standard.Allocatable := ⟨by decide, by decide⟩
  have htotal : l.total < usizeBound := by
    have hlen := f.bytes_length
    have hpayload := f.payloadLen_le
    unfold total
    rw [hacc, List.map_singleton, List.sum_singleton, hlen]
    unfold headerLen wireMaxPayload usizeBound at *
    omega
  have hwithin : Within .standard l := by
    refine hl.within halloc (fun g hg => ?_) htotal ?_
    · rw [hacc, List.mem_singleton] at hg
      subst hg
      exact ⟨Nat.le_trans hfds (by decide), hfds⟩
    · rw [hacc, wire_cons, wire_nil, List.append_nil, cargo_load _ _ f.bytes_ne_nil]
      exact Nat.le_trans hfds (by decide)
  exact (hl.sync halloc hwithin).delivering halloc

/-! ### Many descriptors -/

lemma start_enqueue (henqueue : (FrameSender.enqueue f (.new .standard)).1 = .ok ()) :
    ∃ sender, (start .standard).enqueue f = { start .standard with sender, accepted := [f] } ∧
      sender.queue = [⟨f.bytes, 0, f.fds, false⟩] ∧ sender.failed = false ∧
      f.fds.length ≤ FrameLimits.standard.maxFrameFds := by
  have hends := FrameSender.enqueue_ends (s := .new .standard) (f := f)
  rcases hrun : FrameSender.enqueue f (.new .standard) with ⟨e | u, sender⟩
  · simp [hrun] at henqueue
  · obtain ⟨-, hfds, -, hfailed, hqueue⟩ := hends.run_ok hrun
    refine ⟨sender, ?_, hqueue, hfailed, hfds⟩
    simp [enqueue, start, hrun, Except.isOk, Except.toBool]

lemma flush_refused {s : Sending} {q : SendFrame} (hqueue : s.sender.queue = [q])
    (hfailed : s.sender.failed = false) (hsent : q.ancillarySent = false)
    (hmany : scmMaxFd < q.fds.length) (hlen : q.fds.length < 2 ^ 32) :
    (Sending.flush [.accepted 1]).Ends s (fun _ _ => False) (fun _ _ => True) := by
  have hcontrol := Sending.parseControl_send hlen
  unfold Sending.flush
  simp only [ends_bind, ends_get, ends_failIf, hfailed]
  refine ⟨by simp, fun _ => ?_⟩
  unfold Sending.flushLoop Sending.flushTurn
  simp only [ends_bind, ends_get, hqueue, hsent, Bool.not_false, Bool.true_and, ends_attempt,
    Sending.sendOnce, ends_zoom, Socket.sendmsg, hcontrol, ends_failIf, hmany, true_implies,
    not_true_eq_false, false_implies, and_true, Sending.fail, ends_modify, ends_fail]

lemma readTurn_truncated {s : Receiving} {b : Loaded} {rest : List Loaded}
    (hlimits : s.receiver.limits = .standard) (hstream : s.socket.stream = b :: rest)
    (hmany : 64 < b.2.length) :
    (Receiving.readTurn (.delivered 1)).Ends s
      (fun _ _ => False) (fun e _ => e = .error .truncatedControl) := by
  have halloc : FrameLimits.standard.Allocatable := ⟨by decide, by decide⟩
  have hroom : Socket.room (align (dataOffset + 4 * FrameLimits.standard.recvControlFds)) = 64 := by
    decide
  have hgather : Socket.gather 64 (max 1 (min 1 s.receiver.chunkLen)) [] (b :: rest) =
      ([b], rest) := by
    rw [Nat.max_eq_left (Nat.min_le_left _ _)]
    unfold Socket.gather
    rw [if_pos (.inr (.inl cargo_nil)), Socket.gather, List.nil_append]
  have hcargo : cargo [b] = b.2 := by simp [cargo]
  have hkept : (b.2.take 64).length = 64 := by
    rw [List.length_take]
    omega
  have hne : b.2.take 64 ≠ [] := List.ne_nil_of_length_pos (by omega)
  have hparse : parseControl (rightsRecord (b.2.take 64)) msgCtrunc =
      .error (.truncatedControl, b.2.take 64) := by
    rw [parseControl_rights (by rw [hkept]; decide), if_pos (by decide)]
  unfold Receiving.readTurn
  simp only [ends_bind, ends_get, ends_attempt]
  rw [Receiving.recvOnce_allocated halloc hlimits]
  unfold Socket.recvmsg
  simp only [ends_bind, ends_get, hroom, hstream]
  rw [if_neg (List.cons_ne_nil _ _)]
  simp only [ends_bind, ends_modify, ends_pure, hgather, hcargo, if_neg hne, if_pos hmany, hparse,
    Receiving.ofReceiver, ends_zoom, FrameReceiver.fail, ends_fail]

lemma receive_truncated {b : Loaded} {rest : List Loaded} (hmany : 64 < b.2.length) :
    (Receiving.receive [.delivered 1]).Ends ⟨.new .standard, ⟨b :: rest, false⟩⟩
      (fun _ _ => False) (fun e _ => e = .error .truncatedControl) := by
  have hidle : Receiving.ofReceiver FrameReceiver.advance
      ⟨.new .standard, ⟨b :: rest, false⟩⟩ =
        (.ok none, ⟨.new .standard, ⟨b :: rest, false⟩⟩) := by rfl
  have hstate : (FrameReceiver.new .standard).state = .header := rfl
  unfold Ends
  rw [Receiving.receive_eq (by simp [hstate]) (by simp [hstate])]
  change Ends _ _ _ _
  rw [ends_bind, ends_of_run hidle]
  simp only [ends_ofExcept, Receiving.waitLoop, ends_bind]
  exact (readTurn_truncated rfl rfl hmany).mono (fun _ _ h => h.elim) fun _ _ h => h

section Undelivered

variable {sender : FrameSender} (hl : Reached .standard { start .standard with sender, accepted := [f] })
  (hqueue : sender.queue = [⟨f.bytes, 0, f.fds, false⟩]) (hfailed : sender.failed = false)

include hl hqueue hfailed

lemma not_delivers_of_message (hmany : scmMaxFd < f.fds.length) (hlen : f.fds.length < 2 ^ 32) :
    ¬ Delivers f := by
  intro hdelivers
  have hregular : ∀ a ∈ [SendAnswer.accepted 1], a.Regular := by decide
  have hl' := hl.apply (m := .flush [.accepted 1]) ⟨rfl, hregular⟩
  have hends := flush_refused (s := ⟨sender, ⟨[], false⟩⟩) hqueue hfailed rfl hmany hlen
  have hok := (hdelivers _ hl' rfl).flushes
  rcases hrun : Sending.flush [.accepted 1] ⟨sender, ⟨[], false⟩⟩ with ⟨e | o, s⟩
  · have := hok (.error e) (by simp [apply, flush, start, hrun])
    simp [Except.isOk, Except.toBool] at this
  · exact hends.run_ok hrun

/-- More descriptors than the control buffer holds: all of the frame is sent, and its first byte
is read. -/
lemma not_delivers_of_control (hmany : 64 < f.fds.length) (hmessage : f.fds.length ≤ scmMaxFd) :
    ¬ Delivers f := by
  intro hdelivers
  have hsound : sender.Sound := by
    refine ⟨hfailed, fun q hq => ?_⟩
    rw [hqueue, List.mem_singleton] at hq
    subst hq
    exact ⟨List.length_pos_iff.2 f.bytes_ne_nil, by simp, hmessage⟩
  obtain ⟨answers, hanswers⟩ : ∃ answers,
      answers = List.replicate (f.bytes.length + 1) (SendAnswer.accepted 1) := ⟨_, rfl⟩
  have hregular : ∀ a ∈ answers, a.Regular := by
    intro a ha
    rw [hanswers] at ha
    rw [List.eq_of_mem_replicate ha]
    exact Nat.one_pos
  have hleft : left sender.queue = load f.bytes f.fds := by simp [hqueue, SendFrame.left]
  have henough : Sending.Enough answers (left sender.queue) := by
    rw [hleft, hanswers]
    refine ⟨fun hmem => by simp at hmem, ?_⟩
    have haccepts : Sending.accepts (.accepted 1) = true := rfl
    rw [load_length, List.countP_replicate, if_pos haccepts]
    exact Nat.lt_succ_self _
  have hends := Sending.flush_ends (s := ⟨sender, ⟨[], false⟩⟩) hregular hsound
  rcases hrun : Sending.flush answers ⟨sender, ⟨[], false⟩⟩ with ⟨e | o, s⟩
  · exact hends.run_error hrun
  · obtain ⟨hflushed, hdrained, hgo⟩ := hends.run_ok hrun
    have hsocket : s.socket = ⟨load f.bytes f.fds, false⟩ := by
      have hkept := hflushed.kept
      rw [hdrained (hgo henough), hleft, left_nil, List.append_nil] at hkept
      have hclosed := hflushed.closed
      cases hs : s.socket with
      | mk stream closed =>
        rw [hs] at hkept hclosed
        simp only at hkept hclosed
        rw [hkept, hclosed, List.nil_append]
    have hl' := hl.apply (m := .flush answers) ⟨rfl, hregular⟩
    have hone : ∀ a ∈ [RecvAnswer.delivered 1], a.Regular := by decide
    have hl'' := hl'.apply (m := .receive [.delivered 1]) hone
    obtain ⟨b, bs, hbytes⟩ := List.exists_cons_of_ne_nil f.bytes_ne_nil
    rw [hbytes, load] at hsocket
    have htruncated : (Receiving.receive [.delivered 1]).Ends ⟨.new .standard, s.socket⟩
        (fun _ _ => False) (fun e _ => e = .error .truncatedControl) := by
      rw [hsocket]
      exact receive_truncated hmany
    have hfaithful := (hdelivers _ hl'' rfl).faithful
    rcases hreceive : Receiving.receive [.delivered 1] ⟨.new .standard, s.socket⟩ with ⟨e | o, s'⟩
    · refine not_faithful (e := e) ?_ hfaithful
      simp [apply, flush, receive, start, hrun, hreceive]
    · exact htruncated.run_ok hreceive

end Undelivered

/-- **The limits as they come.** A frame the sender accepts is delivered if and only if it has no
more descriptors than the control buffer of a receiver holds. -/
theorem delivers_iff {objectId : UInt32} {opcode : UInt8} {seq : UInt32} {payload : List UInt8}
    {fds : List OwnedFd} (hnew : OutboundFrame.new objectId opcode seq payload fds .standard = .ok f)
    (henqueue : (FrameSender.enqueue f (.new .standard)).1 = .ok ()) :
    Delivers f ↔ fds.length ≤ FrameLimits.standard.recvControlFds := by
  obtain rfl : f.fds = fds := (OutboundFrame.new_eq_ok hnew).1
  refine ⟨fun hdelivers => ?_, delivers_of_le⟩
  by_contra hmany
  obtain ⟨sender, hlink, hqueue, hfailed, hfds⟩ := start_enqueue henqueue
  have hl : Reached .standard { start .standard with sender, accepted := [f] } := by
    rw [← hlink]
    exact Reached.apply .refl (m := .enqueue f) rfl
  by_cases hmessage : f.fds.length ≤ scmMaxFd
  · exact not_delivers_of_control hl hqueue hfailed (Nat.not_le.1 hmany) hmessage hdelivers
  · exact not_delivers_of_message hl hqueue hfailed (Nat.not_le.1 hmessage)
      (Nat.lt_of_le_of_lt hfds (by decide)) hdelivers

/-- A frame with so many descriptors. -/
def frameOf (n : ℕ) : OutboundFrame where
  header := ⟨0, 0, 0, 0, .ofNat n⟩
  bytes := Header.bytes ⟨0, 0, 0, 0, .ofNat n⟩
  fds := List.replicate n ⟨3, by decide⟩
  made := ⟨[], by decide, rfl, by rw [List.length_replicate], by rw [List.append_nil]⟩

theorem delivers_three : Delivers (frameOf 3) :=
  have hnew : OutboundFrame.new 0 0 0 [] (List.replicate 3 ⟨3, by decide⟩) .standard =
      .ok (frameOf 3) := by rfl
  (delivers_iff hnew (by decide +kernel)).2 (by decide)

def frameRun (n : ℕ) : Link :=
  run [.enqueue (frameOf n), .flush [.accepted 16], .receive [.delivered 1]] (start .standard)

/-- With 65 descriptors the receive fails, with 254 the flush fails. -/
theorem undelivered :
    (Reached .standard (frameRun 65) ∧ (frameRun 65).accepted.map (·.fds.length) = [65] ∧
      (frameRun 65).receives = [.error (.error .truncatedControl)]) ∧
    (Reached .standard (frameRun 254) ∧ (frameRun 254).accepted.map (·.fds.length) = [254] ∧
      (frameRun 254).flushes = [.error (.io (.os einval))]) :=
  ⟨⟨Reached.run .refl (by decide +kernel), by decide +kernel, by decide +kernel⟩,
    Reached.run .refl (by decide +kernel), by decide +kernel, by decide +kernel⟩

end Link

end PipewireNative.Frame
