import PipewireNative.Frame.Wait

/-!
Runs of a link: at every moment the frames that were accepted are, in order, those the receiver
has given away, those whose bytes it holds, those in flight and those in the queue. So what the
receiver gives away are the frames the sender has accepted, and then the end of the stream.
-/

namespace PipewireNative.Frame

open Lib Prog

namespace Link

/-- How the frame is to come out. -/
def delivered (f : OutboundFrame) : Except Unwind ReceiveOutcome := .ok (.frame f.received)

/-- What is asked of a run: no frame has more descriptors than a message and a control buffer
carry, and no receive has found too many descriptors pending. -/
structure Assumed (limits : FrameLimits) (l : Link) : Prop where
  fds : ∀ f ∈ l.accepted, f.fds.length ≤ scmMaxFd ∧ f.fds.length ≤ limits.recvControlFds
  pending : ∀ received limit, .error (.error (.tooManyPendingFds received limit)) ∉ l.receives

def total (l : Link) : ℕ := (l.accepted.map (·.bytes.length)).sum

/-- What the receiver has given away is the beginning of the frames the sender has accepted, in
order, followed by the end of the stream. -/
def Faithful (l : Link) : Prop :=
  l.yields <+: l.accepted.map delivered ++ List.replicate l.receives.length (.ok .closed)

/-- What is asked of a run, and that positions in the stream are numbers of 64 bits. -/
structure Within (limits : FrameLimits) (l : Link) : Prop extends Assumed limits l where
  total_lt : l.total < usizeBound

/-- The receiver is in the middle of the stream: it has given away the frames `done`. -/
def Streaming (limits : FrameLimits) (l : Link) : Prop :=
  ∃ done todo held, l.accepted = done ++ todo ∧ l.yields = done.map delivered ∧
    Receiving.Attends limits ⟨l.receiver, l.socket⟩ (wire done).length held todo
      (left l.sender.queue)

/-- The receiver has come to the end of the stream. -/
def Over (l : Link) : Prop :=
  l.receiver.state = .eof ∧ l.socket.closed = true ∧ ∃ n ≤ l.receives.length,
    l.yields = l.accepted.map delivered ++ List.replicate n (.ok .closed)

/-- What holds at every moment of a run. -/
structure Sync (limits : FrameLimits) (l : Link) : Prop where
  sound : l.sender.Sound
  limits_eq : l.sender.limits = limits
  flushes : ∀ r ∈ l.flushes, r.isOk = true
  closed : l.socket.closed = true → l.sender.queue = []
  stage : Streaming limits l ∨ Over l

variable {limits : FrameLimits} {l : Link}

lemma yields_append (l : Link) (receiver : FrameReceiver) (socket : Socket)
    (r : Except Unwind ReceiveOutcome) :
    ({ l with receiver, socket, receives := l.receives ++ [r] } : Link).yields =
      if r = .ok .wouldBlock then l.yields else l.yields ++ [r] := by
  unfold yields
  rw [List.filter_append]
  by_cases h : r = .ok .wouldBlock
  · simp [h]
  · simp [h]

/-! ### One move -/

lemma sync_start : Sync limits (start limits) := by
  refine ⟨⟨rfl, ?_⟩, rfl, ?_, ?_, .inl ⟨[], [], [], rfl, rfl, ?_⟩⟩
  · simp [start, FrameSender.new]
  · simp [start]
  · simp [start]
  · exact ⟨rfl, ⟨rfl, rfl, rfl, by simp [start, FrameReceiver.new], .nil⟩, .inl rfl, rfl, by simp,
      by decide, fun _ => rfl⟩

lemma sync_enqueue (f : OutboundFrame) (h : Sync limits l) (hopen : l.socket.closed = false)
    (hwithin : Within limits (l.enqueue f)) : Sync limits (l.enqueue f) := by
  have hends := FrameSender.enqueue_ends (s := l.sender) (f := f)
  have hstream : Streaming limits l := by
    rcases h.stage with hs | hover
    · exact hs
    · exact absurd hover.2.1 (by simp [hopen])
  rcases hrun : FrameSender.enqueue f l.sender with ⟨_ | u, sender⟩
  · have hsender : sender = l.sender := hends.run_error hrun
    have hsame : l.enqueue f = l := by
      simp [enqueue, hrun, hsender, Except.isOk, Except.toBool]
    rwa [hsame]
  · obtain ⟨hpayload, hfds, hlimits, hfailed, hqueue⟩ := hends.run_ok hrun
    have hlink : l.enqueue f = { l with sender, accepted := l.accepted ++ [f] } := by
      simp [enqueue, hrun, Except.isOk, Except.toBool]
    rw [hlink] at hwithin ⊢
    obtain ⟨hmessage, hcontrol⟩ := hwithin.fds f (by simp)
    rw [h.limits_eq] at hpayload hfds
    have hsound : (⟨f.bytes, 0, f.fds, false⟩ : SendFrame).Sound :=
      ⟨List.length_pos_iff.2 f.bytes_ne_nil, by simp, hmessage⟩
    refine ⟨⟨hfailed.trans h.sound.working, ?_⟩, hlimits.trans h.limits_eq, h.flushes, ?_, ?_⟩
    · rw [hqueue]
      intro q hq
      rcases List.mem_append.1 hq with hq | hq
      · exact h.sound.queue q hq
      · rwa [List.mem_singleton.1 hq]
    · intro hclosed
      exact absurd hclosed (by simp [hopen])
    · obtain ⟨done, todo, held, hacc, hyields, hat⟩ := hstream
      refine .inl ⟨done, todo ++ [f], held, by simp [hacc], hyields, hat.limits_eq, hat.holding, ?_,
        ?_, ?_, ?_, ?_⟩
      · rcases hat.awaits with hs | ⟨g, rest, rfl, hs⟩
        · exact .inl hs
        · exact .inr ⟨g, rest ++ [f], rfl, hs⟩
      · rw [wire_append, ← hat.flow, hqueue, left_append]
        simp [SendFrame.left]
      · intro g hg
        rcases List.mem_append.1 hg with hg | hg
        · exact hat.fits g hg
        · rw [List.mem_singleton.1 hg]
          exact ⟨hpayload, hfds, hmessage, hcontrol⟩
      · have htotal := hwithin.total_lt
        rw [total, ← wire_length, hacc] at htotal
        simpa [Nat.add_assoc] using htotal
      · intro hclosed
        exact absurd hclosed (by simp [hopen])

lemma sync_flush {answers : List SendAnswer} (h : Sync limits l) (hopen : l.socket.closed = false)
    (ha : ∀ a ∈ answers, a.Regular) : Sync limits (l.flush answers) := by
  have hends := Sending.flush_ends (s := ⟨l.sender, l.socket⟩) ha h.sound
  have hstream : Streaming limits l := by
    rcases h.stage with hs | hover
    · exact hs
    · exact absurd hover.2.1 (by simp [hopen])
  rcases hrun : Sending.flush answers ⟨l.sender, l.socket⟩ with ⟨_ | o, s⟩
  · exact (hends.run_error hrun).elim
  · obtain ⟨hflushed, -⟩ := hends.run_ok hrun
    have hlink : l.flush answers = { l with
        sender := s.sender, socket := s.socket, flushes := l.flushes ++ [.ok o] } := by
      simp [flush, hrun]
    rw [hlink]
    refine ⟨hflushed.sound, hflushed.limits.trans h.limits_eq, ?_, ?_, ?_⟩
    · intro r hr
      rcases List.mem_append.1 hr with hr | hr
      · exact h.flushes r hr
      · rw [List.mem_singleton.1 hr]
        rfl
    · intro hclosed
      exact absurd (hflushed.closed.symm.trans hclosed) (by simp [hopen])
    · obtain ⟨done, todo, held, hacc, hyields, hat⟩ := hstream
      refine .inl ⟨done, todo, held, hacc, hyields, hat.limits_eq, hat.holding, hat.awaits, ?_,
        hat.fits, hat.total, ?_⟩
      · rw [← hat.flow]
        exact congrArg (held ++ ·) hflushed.kept
      · intro hclosed
        exact absurd (hflushed.closed.symm.trans hclosed) (by simp [hopen])

lemma sync_close (h : Sync limits l) (hempty : l.sender.isEmpty = true) : Sync limits l.close := by
  have hqueue : l.sender.queue = [] := List.isEmpty_iff.1 hempty
  refine ⟨h.sound, h.limits_eq, h.flushes, fun _ => hqueue, ?_⟩
  rcases h.stage with ⟨done, todo, held, hacc, hyields, hat⟩ | ⟨hstate, -, hyields⟩
  · refine .inl ⟨done, todo, held, hacc, hyields, hat.limits_eq, hat.holding, hat.awaits, hat.flow,
      hat.fits, hat.total, fun _ => ?_⟩
    change left l.sender.queue = []
    rw [hqueue, left_nil]
  · exact .inr ⟨hstate, rfl, hyields⟩

lemma receive_over {answers : List RecvAnswer} (h : Over l) :
    Receiving.receive answers ⟨l.receiver, l.socket⟩ = (.ok .closed, ⟨l.receiver, l.socket⟩) := by
  unfold Receiving.receive
  simp only [bind, Prog.get, h.1]
  rfl

lemma sync_receive {answers : List RecvAnswer} (halloc : limits.Allocatable) (h : Sync limits l)
    (ha : ∀ a ∈ answers, a.Regular) (hwithin : Within limits (l.receive answers)) :
    Sync limits (l.receive answers) := by
  rcases h.stage with ⟨done, todo, held, hacc, hyields, hat⟩ | hover
  · have hends := Receiving.receive_ends halloc ha hat
    rcases hrun : Receiving.receive answers ⟨l.receiver, l.socket⟩ with ⟨e | o, s⟩
    · have hlink : (l.receive answers).receives = l.receives ++ [.error e] := by
        simp [receive, hrun]
      obtain ⟨⟨received, limit, rfl⟩, -⟩ := hends.run_error hrun
      exact absurd (by simp [hlink]) (hwithin.pending received limit)
    · obtain ⟨hans, -⟩ := hends.run_ok hrun
      have hlink : l.receive answers = { l with
          receiver := s.receiver, socket := s.socket, receives := l.receives ++ [.ok o] } := by
        simp [receive, hrun]
      rw [hlink]
      cases o with
      | frame g =>
        obtain ⟨hclosed, f, rest, held', rfl, rfl, hat'⟩ := hans
        refine ⟨h.sound, h.limits_eq, h.flushes, fun hc => h.closed (hclosed.symm.trans hc),
          .inl ⟨done ++ [f], rest, held', by simp [hacc], ?_, ?_⟩⟩
        · rw [yields_append, if_neg (by simp), hyields]
          simp [delivered]
        · simpa using hat'
      | wouldBlock =>
        obtain ⟨hclosed, held', hat'⟩ := hans
        refine ⟨h.sound, h.limits_eq, h.flushes, fun hc => h.closed (hclosed.symm.trans hc),
          .inl ⟨done, todo, held', hacc, ?_, hat'⟩⟩
        rw [yields_append, if_pos rfl, hyields]
      | closed =>
        obtain ⟨rfl, -, hstate, hclosed', hclosed, -, -⟩ := hans
        refine ⟨h.sound, h.limits_eq, h.flushes, fun _ => h.closed hclosed,
          .inr ⟨hstate, hclosed', 1, by simp, ?_⟩⟩
        rw [yields_append, if_neg (by simp), hyields]
        simp [hacc]
  · have hlink : l.receive answers = { l with receives := l.receives ++ [.ok .closed] } := by
      simp [receive, receive_over hover]
    obtain ⟨hstate, hclosed, n, hn, hyields⟩ := hover
    rw [hlink]
    refine ⟨h.sound, h.limits_eq, h.flushes, h.closed, .inr ⟨hstate, hclosed, n + 1, ?_, ?_⟩⟩
    · rw [List.length_append, List.length_singleton]
      omega
    · rw [yields_append, if_neg (by simp), hyields, List.append_assoc, ← List.replicate_succ']

/-! ### Runs -/

lemma accepted_grows (l : Link) (m : Move) : l.accepted <+: (l.apply m).accepted := by
  cases m with
  | enqueue f =>
    change _ <+: if _ then l.accepted ++ [f] else l.accepted
    split_ifs
    · exact List.prefix_append _ _
    · exact List.prefix_refl _
  | flush | receive | close => exact List.prefix_refl _

lemma Within.of_apply {m : Move} (h : Within limits (l.apply m)) : Within limits l := by
  have hacc := accepted_grows l m
  have hrec : l.receives <+: (l.apply m).receives := by
    cases m with
    | receive answers => exact List.prefix_append _ _
    | enqueue | flush | close => exact List.prefix_refl _
  refine ⟨⟨fun f hf => h.fds f (hacc.subset hf),
    fun received limit he => h.pending received limit (hrec.subset he)⟩, ?_⟩
  obtain ⟨more, hmore⟩ := hacc
  have htotal := h.total_lt
  rw [total, ← hmore, List.map_append, List.sum_append] at htotal
  unfold total
  omega

/-- **One move** of a link keeps it in step. -/
theorem sync_apply {m : Move} (halloc : limits.Allocatable) (h : Sync limits l) (hm : l.Allows m)
    (hwithin : Within limits (l.apply m)) : Sync limits (l.apply m) := by
  cases m with
  | enqueue f => exact sync_enqueue f h hm hwithin
  | flush answers => exact sync_flush h hm.1 hm.2
  | receive answers => exact sync_receive halloc h hm hwithin
  | close => exact sync_close h hm.2

/-- **A run** of a link. -/
theorem Reached.sync (halloc : limits.Allocatable) (hl : Reached limits l)
    (hwithin : Within limits l) : Sync limits l := by
  induction hl with
  | refl => exact sync_start
  | tail _ hstep ih =>
    obtain ⟨m, hm, rfl⟩ := hstep
    exact sync_apply halloc (ih hwithin.of_apply) hm hwithin

lemma Sync.faithful (h : Sync limits l) : l.Faithful := by
  unfold Faithful
  rcases h.stage with ⟨done, todo, held, hacc, hyields, -⟩ | ⟨-, -, n, hn, hyields⟩
  · rw [hyields, hacc, List.map_append, List.append_assoc]
    exact List.prefix_append _ _
  · rw [hyields]
    obtain ⟨k, hk⟩ := Nat.exists_eq_add_of_le hn
    rw [hk, List.replicate_add, ← List.append_assoc]
    exact List.prefix_append _ _

lemma Sync.receive_ready {answers : List RecvAnswer} (halloc : limits.Allocatable)
    (h : Sync limits l) (ha : ∀ a ∈ answers, a.Regular) (hclosed : l.socket.closed = true)
    (henough : Receiving.Enough answers l.socket.stream) :
    (Receiving.receive answers ⟨l.receiver, l.socket⟩).1 ≠ .ok .wouldBlock := by
  rcases h.stage with ⟨done, todo, held, -, -, hat⟩ | hover
  · have hends := Receiving.receive_ends halloc ha hat
    rcases hrun : Receiving.receive answers ⟨l.receiver, l.socket⟩ with ⟨e | o, s⟩
    · simp
    · have hgo := (hends.run_ok hrun).2 hclosed henough
      simpa using hgo
  · rw [receive_over hover]
    simp

lemma Sync.flush_drains {answers : List SendAnswer} (h : Sync limits l)
    (ha : ∀ a ∈ answers, a.Regular) (henough : Sending.Enough answers (left l.sender.queue)) :
    (Sending.flush answers ⟨l.sender, l.socket⟩).1 = .ok .drained := by
  have hends := Sending.flush_ends (s := ⟨l.sender, l.socket⟩) ha h.sound
  rcases hrun : Sending.flush answers ⟨l.sender, l.socket⟩ with ⟨e | o, s⟩
  · exact (hends.run_error hrun).elim
  · rw [(hends.run_ok hrun).2.2 henough]

/-- What is to hold at every moment of a run. The flushes come back without an error; what the
receiver gives away is the beginning of the frames the sender has accepted, in order and with
their own descriptors, followed by the end of the stream. A flush empties the queue, and after
the sender is done a receive comes back with the next frame or the end, as soon as the kernel
answers often enough. -/
structure Delivering (l : Link) : Prop where
  flushes : ∀ r ∈ l.flushes, r.isOk = true
  faithful : l.Faithful
  drains : ∀ answers : List SendAnswer, (∀ a ∈ answers, a.Regular) →
    Sending.Enough answers (left l.sender.queue) →
    (Sending.flush answers ⟨l.sender, l.socket⟩).1 = .ok .drained
  ready : l.socket.closed = true → ∀ answers : List RecvAnswer, (∀ a ∈ answers, a.Regular) →
    Receiving.Enough answers l.socket.stream →
    (Receiving.receive answers ⟨l.receiver, l.socket⟩).1 ≠ .ok .wouldBlock

lemma Sync.delivering (halloc : limits.Allocatable) (h : Sync limits l) : l.Delivering :=
  ⟨h.flushes, h.faithful, fun _ ha henough => h.flush_drains ha henough,
    fun hclosed _ ha henough => h.receive_ready halloc ha hclosed henough⟩

/-- **The stream of frames.** In every run the receiver gives away the frames the sender has
accepted, and then the end of the stream. -/
theorem frames_delivered (halloc : limits.Allocatable) (hl : Reached limits l)
    (hassumed : l.Assumed limits) (htotal : l.total < usizeBound) : l.Delivering :=
  (hl.sync halloc ⟨hassumed, htotal⟩).delivering halloc

lemma five_lt : 5 < 2 ^ 31 := by decide

def sampleFrame : OutboundFrame where
  header := ⟨3, 1, 2, 7, 1⟩
  bytes := Header.bytes ⟨3, 1, 2, 7, 1⟩ ++ [10, 20]
  fds := [⟨5, five_lt⟩]
  made := ⟨[10, 20], by decide, rfl, rfl, rfl⟩

/-- It goes in two parts and comes in three. -/
def sampleMoves : List Move :=
  [.enqueue sampleFrame, .flush [.accepted 5, .interrupted, .again], .receive [.delivered 3],
    .flush [.accepted 100], .close, .receive [.delivered 4, .interrupted, .delivered 100],
    .receive [.delivered 1]]

def sample : Link := run sampleMoves (start .standard)

theorem frames_delivered_sample :
    Reached .standard sample ∧ sample.yields = [delivered sampleFrame, .ok .closed] ∧
      sample.Delivering :=
  have hl : Reached .standard sample := Reached.run .refl (by decide +kernel)
  have hreceives : sample.receives = [.ok .wouldBlock, delivered sampleFrame, .ok .closed] := by
    decide +kernel
  have hassumed : sample.Assumed .standard :=
    ⟨by decide +kernel, fun _ _ h => by rw [hreceives] at h; simp [delivered] at h⟩
  ⟨hl, by decide +kernel,
    frames_delivered ⟨by decide, by decide⟩ hl hassumed (by decide +kernel)⟩

/-! ### Where there is no room -/

def emptyFrame : OutboundFrame where
  header := ⟨0, 0, 0, 0, 0⟩
  bytes := Header.bytes ⟨0, 0, 0, 0, 0⟩
  fds := []
  made := ⟨[], by decide, rfl, rfl, rfl⟩

/-- A receiver that has given away all there was, at a place of the stream. -/
def idleAt (pos : ℕ) : FrameReceiver := ⟨.standard, .header, [], pos, pos, []⟩

/-- A receiver that has just read an empty frame, at a place of the stream. -/
def fullAt (pos : ℕ) : FrameReceiver :=
  ⟨.standard, .header, emptyFrame.bytes, pos, pos + 16, []⟩

lemma recvOnce_emptyFrame (pos : ℕ) :
    Receiving.recvOnce (idleAt pos).chunkLen 64 (.delivered 16)
      ⟨idleAt pos, ⟨load emptyFrame.bytes [], false⟩⟩ =
        (.ok (emptyFrame.bytes, []), ⟨idleAt pos, ⟨[], false⟩⟩) := by
  rfl

lemma advance_emptyFrame {pos : ℕ} (h : pos + 16 < usizeBound) :
    FrameReceiver.advance (fullAt pos) = (.ok (some emptyFrame.received), idleAt (pos + 16)) := by
  have hhead : FrameReceiver.readHeader (fullAt pos) = (.ok (),
      { fullAt pos with state := .payload emptyFrame.header pos (pos + 16) }) := by
    have hdecode : Header.decode ((fullAt pos).bytes.take headerLen) = emptyFrame.header :=
      emptyFrame.decode_take
    have hbytes : headerLen ≤ emptyFrame.bytes.length := by decide
    have hpayload : ¬ (fullAt pos).limits.payloadLimit < emptyFrame.header.payloadLen.toNat := by
      change ¬ FrameLimits.standard.payloadLimit < emptyFrame.header.payloadLen.toNat
      decide
    have hfds : ¬ (fullAt pos).limits.maxFrameFds < emptyFrame.header.nFds.toNat := by
      change ¬ FrameLimits.standard.maxFrameFds < emptyFrame.header.nFds.toNat
      decide
    have hpos : ¬ usizeBound ≤
        (fullAt pos).byteBase + (headerLen + emptyFrame.header.payloadLen.toNat) := Nat.not_le.2 h
    unfold FrameReceiver.readHeader
    simp only [bind, Prog.get]
    rw [if_pos ⟨rfl, hbytes⟩, hdecode, if_neg hpayload, if_neg hfds, if_neg (by decide), if_neg hpos]
    rfl
  have hextract : FrameReceiver.extract
      { fullAt pos with state := .payload emptyFrame.header pos (pos + 16) } =
        (.ok (some emptyFrame.received), idleAt (pos + 16)) := by
    change (if pos + 16 - pos ≤ 16 then _ else _ : Prog FrameReceiver Unwind (Option ReceivedFrame)) _ = _
    rw [if_pos (by omega)]
    rfl
  unfold FrameReceiver.advance
  simp only [bind, hhead, hextract]

lemma absorb_emptyFrame (pos : ℕ) : FrameReceiver.absorb emptyFrame.bytes [] (idleAt pos) =
    if usizeBound ≤ pos + 16 then
      (.error (.error (.io (.other "stream position overflow"))), { idleAt pos with state := .failed })
    else (.ok none, fullAt pos) := by
  change (if usizeBound ≤ pos + 16 then _ else _ : Prog FrameReceiver Unwind (Option ReceiveOutcome)) _ = _
  by_cases h : usizeBound ≤ pos + 16
  · rw [if_pos h, if_pos h]
    rfl
  · rw [if_neg h, if_neg h]
    rfl

/-- A read of an empty frame: at the last place of the stream there is no room for it. -/
lemma receive_emptyFrame (pos : ℕ) :
    Receiving.receive [.delivered 16] ⟨idleAt pos, ⟨load emptyFrame.bytes [], false⟩⟩ =
      if usizeBound ≤ pos + 16 then
        (.error (.error (.io (.other "stream position overflow"))),
          ⟨{ idleAt pos with state := .failed }, ⟨[], false⟩⟩)
      else (delivered emptyFrame, ⟨idleAt (pos + 16), ⟨[], false⟩⟩) := by
  have hidle : Receiving.ofReceiver FrameReceiver.advance
      ⟨idleAt pos, ⟨load emptyFrame.bytes [], false⟩⟩ =
        (.ok none, ⟨idleAt pos, ⟨load emptyFrame.bytes [], false⟩⟩) := by rfl
  have hread : Receiving.readTurn (.delivered 16) ⟨idleAt pos, ⟨load emptyFrame.bytes [], false⟩⟩ =
      Receiving.ofReceiver (FrameReceiver.absorb emptyFrame.bytes []) ⟨idleAt pos, ⟨[], false⟩⟩ := by
    unfold Receiving.readTurn
    simp only [bind, Prog.get, attempt]
    rw [show (idleAt pos).limits.recvControlFds = 64 from rfl, recvOnce_emptyFrame]
  have hstate : (idleAt pos).state = .header := rfl
  rw [Receiving.receive_eq (by simp [hstate]) (by simp [hstate]), bind_ok hidle]
  simp only [Receiving.waitLoop]
  simp only [Receiving.ofReceiver, zoom, absorb_emptyFrame] at hread
  by_cases h : usizeBound ≤ pos + 16
  · rw [if_pos h] at hread ⊢
    rw [bind_error hread]
  · rw [if_neg h] at hread ⊢
    have hadvance : Receiving.ofReceiver FrameReceiver.advance ⟨fullAt pos, ⟨[], false⟩⟩ =
        (.ok (some emptyFrame.received), ⟨idleAt (pos + 16), ⟨[], false⟩⟩) := by
      simp only [Receiving.ofReceiver, zoom, advance_emptyFrame (Nat.not_le.1 h)]
    rw [bind_ok hread]
    simp only
    rw [bind_ok hadvance]
    rfl

/-- A link after so many empty frames, each of them sent and received. -/
def idleLink (n : ℕ) : Link :=
  ⟨.new .standard, ⟨[], false⟩, idleAt (16 * n), List.replicate n emptyFrame,
    List.replicate n (.ok .drained), List.replicate n (delivered emptyFrame)⟩

/-- A link with an empty frame in flight. -/
def sentLink (n : ℕ) : Link :=
  ⟨.new .standard, ⟨load emptyFrame.bytes [], false⟩, idleAt (16 * n),
    List.replicate (n + 1) emptyFrame, List.replicate (n + 1) (.ok .drained),
    List.replicate n (delivered emptyFrame)⟩

lemma idleLink_sent (n : ℕ) : ((idleLink n).enqueue emptyFrame).flush [.accepted 16] = sentLink n := by
  have henqueue : (idleLink n).enqueue emptyFrame = { idleLink n with
      sender := ⟨.standard, [⟨emptyFrame.bytes, 0, [], false⟩], 16, 0, false⟩
      accepted := List.replicate n emptyFrame ++ [emptyFrame] } := by rfl
  have hflush : Sending.flush [.accepted 16]
      ⟨⟨.standard, [⟨emptyFrame.bytes, 0, [], false⟩], 16, 0, false⟩, ⟨[], false⟩⟩ =
        (.ok .drained, ⟨.new .standard, ⟨load emptyFrame.bytes [], false⟩⟩) := by rfl
  rw [henqueue]
  unfold flush
  simp only [idleLink, hflush, sentLink, ← List.replicate_succ']

lemma Reached.sent {n : ℕ} (h : Reached .standard (idleLink n)) : Reached .standard (sentLink n) := by
  rw [← idleLink_sent]
  have henqueue := h.apply (m := .enqueue emptyFrame) rfl
  exact henqueue.apply (m := .flush [.accepted 16]) ⟨rfl, by decide⟩

lemma Reached.receive_one (h : Reached limits l) : Reached limits (l.receive [.delivered 16]) := by
  have hregular : l.Allows (.receive [.delivered 16]) := by
    change ∀ a ∈ [RecvAnswer.delivered 16], a.Regular
    decide
  exact h.apply hregular

lemma idleLink_reached {n : ℕ} (h : 16 * n < usizeBound) : Reached .standard (idleLink n) := by
  induction n with
  | zero => exact .refl
  | succ n ih =>
    have hsent := (ih (by omega)).sent
    have hnext : (sentLink n).receive [.delivered 16] = idleLink (n + 1) := by
      unfold receive
      simp only [sentLink, receive_emptyFrame]
      rw [if_neg (by omega)]
      simp only [idleLink, ← List.replicate_succ', Nat.mul_add_one]
    rw [← hnext]
    exact hsent.receive_one

lemma not_faithful {e : Unwind} (h : .error e ∈ l.receives) : ¬ l.Faithful := by
  intro hfaithful
  have hmem : .error e ∈ l.yields := List.mem_filter.2 ⟨h, by simp⟩
  have := hfaithful.subset hmem
  simp [delivered] at this

def emptyRun (limits : FrameLimits) : Link :=
  run [.enqueue emptyFrame, .flush [.accepted 16], .receive [.delivered 16]] (start limits)

/-- What is asked of the buffers and of the length of the stream is needed: a control buffer whose
length is no number, a read buffer that cannot be allocated, and a stream of `2 ^ 64` bytes each
leave the receiver without its frame. -/
theorem frames_lost :
    (∃ l, Reached { FrameLimits.standard with recvControlFds := 2 ^ 62 } l ∧
      l.Assumed { FrameLimits.standard with recvControlFds := 2 ^ 62 } ∧
      l.total < usizeBound ∧ ¬ l.Faithful) ∧
    (∃ l, Reached { FrameLimits.standard with recvChunkBytes := 2 ^ 63, maxPayload := 2 ^ 63 } l ∧
      l.Assumed { FrameLimits.standard with recvChunkBytes := 2 ^ 63, maxPayload := 2 ^ 63 } ∧
      l.total < usizeBound ∧ ¬ l.Faithful) ∧
    ∃ l, Reached .standard l ∧ l.Assumed .standard ∧ ¬ l.Faithful := by
  refine ⟨⟨emptyRun _, Reached.run .refl (by decide +kernel), ?_, by decide +kernel, ?_⟩,
    ⟨emptyRun _, Reached.run .refl (by decide +kernel), ?_, by decide +kernel, ?_⟩, ?_⟩
  · have hreceives : (emptyRun { FrameLimits.standard with recvControlFds := 2 ^ 62 }).receives =
        [.error (.error .malformedControl)] := by decide +kernel
    exact ⟨by decide +kernel, fun _ _ h => by rw [hreceives] at h; simp at h⟩
  · exact not_faithful (e := .error .malformedControl) (by decide +kernel)
  · have hreceives : (emptyRun { FrameLimits.standard with
        recvChunkBytes := 2 ^ 63, maxPayload := 2 ^ 63 }).receives = [.error .panic] := by
      decide +kernel
    exact ⟨by decide +kernel, fun _ _ h => by rw [hreceives] at h; simp at h⟩
  · exact not_faithful (e := .panic) (by decide +kernel)
  · -- the frame behind the last one that fits
    obtain ⟨n, hlt, hle⟩ : ∃ n, 16 * n < usizeBound ∧ usizeBound ≤ 16 * n + 16 :=
      ⟨2 ^ 60 - 1, by decide, by decide⟩
    have hl := (idleLink_reached hlt).sent.receive_one
    have hreceives : ((sentLink n).receive [.delivered 16]).receives =
        List.replicate n (delivered emptyFrame) ++
          [.error (.error (.io (.other "stream position overflow")))] := by
      simp only [receive, sentLink, receive_emptyFrame, if_pos hle]
    refine ⟨_, hl, ⟨fun f hf => ?_, fun _ _ h => ?_⟩,
      not_faithful (e := .error (.io (.other "stream position overflow"))) ?_⟩
    · obtain rfl : f = emptyFrame := List.eq_of_mem_replicate hf
      decide
    · rw [hreceives] at h
      simp [delivered] at h
    · rw [hreceives]
      exact List.mem_append_right _ List.mem_cons_self

end Link

end PipewireNative.Frame
