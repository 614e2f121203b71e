import PipewireNative.Frame.Hold

/-!
What the receiving end of a socket does with a stream of frames: however the kernel cuts the stream
into reads, each receive gives away the next frame, or says that more is to come, or that the
stream is over.
-/

namespace PipewireNative.Frame

open Lib Prog

/-- The buffers of a receiver with these limits can be allocated. -/
structure FrameLimits.Allocatable (limits : FrameLimits) : Prop where
  chunk : min (max limits.recvChunkBytes 1) (headerLen + limits.maxPayload) < isizeBound
  control : align (dataOffset + 4 * limits.recvControlFds) < isizeBound

namespace FrameLimits.Allocatable

variable {limits : FrameLimits}

lemma chunkLen (h : limits.Allocatable) {r : FrameReceiver} (hr : r.limits = limits) :
    r.chunkLen < isizeBound := by
  have hchunk := h.chunk
  rw [← hr] at hchunk
  unfold FrameReceiver.chunkLen headerLen usizeMax usizeBound isizeBound at *
  omega

lemma controlLen (h : limits.Allocatable) :
    Receiving.controlLen limits.recvControlFds =
      .ok (align (dataOffset + 4 * limits.recvControlFds)) := by
  have hcontrol := h.control
  have hmin : min (4 * limits.recvControlFds) usizeMax = 4 * limits.recvControlFds := by
    unfold align dataOffset align cmsghdrSize isizeBound usizeMax usizeBound at *
    omega
  have hwords : (align (dataOffset + 4 * limits.recvControlFds) + 7) / 8 * 8 =
      align (dataOffset + 4 * limits.recvControlFds) := by
    unfold align
    omega
  have hlt : dataOffset + 4 * limits.recvControlFds + 7 < usizeBound := by
    unfold align isizeBound usizeBound at *
    omega
  unfold Receiving.controlLen cmsgAlign rejectIf
  simp only [hmin, if_neg (Nat.not_le.2 (Nat.lt_of_le_of_lt (Nat.le_add_right _ 7) hlt)),
    if_pos hlt, bind, Except.bind, pure, Except.pure, hwords]

lemma le_room (limits : FrameLimits) : limits.recvControlFds ≤
    Socket.room (align (dataOffset + 4 * limits.recvControlFds)) := by
  unfold Socket.room align dataOffset align cmsghdrSize
  omega

lemma room_lt (h : limits.Allocatable) :
    dataOffset + 4 * Socket.room (align (dataOffset + 4 * limits.recvControlFds)) + 7 <
      usizeBound := by
  have hcontrol := h.control
  unfold Socket.room
  generalize align (dataOffset + 4 * limits.recvControlFds) = len at hcontrol ⊢
  unfold dataOffset align cmsghdrSize isizeBound usizeBound at *
  omega

end FrameLimits.Allocatable

lemma wire_load {fs : List OutboundFrame} {b : Loaded} (h : b ∈ wire fs) :
    b.2 = [] ∨ ∃ f ∈ fs, b.2 = f.fds := by
  obtain ⟨f, hf, hb⟩ := List.mem_flatMap.1 h
  cases hbytes : f.bytes with
  | nil => simp [hbytes, load] at hb
  | cons byte bytes =>
    rw [hbytes, load, List.mem_cons] at hb
    rcases hb with rfl | hb
    · exact .inr ⟨f, hf, rfl⟩
    · obtain ⟨_, -, rfl⟩ := List.mem_map.1 hb
      exact .inl rfl

namespace Receiving

/-- The receiving end in the middle of a stream: it holds some bytes of the frames `fs` to come,
others are in flight, and `ahead` is not sent yet. -/
structure Attends (limits : FrameLimits) (s : Receiving) (base : ℕ) (held : List Loaded)
    (fs : List OutboundFrame) (ahead : List Loaded) : Prop where
  limits_eq : s.receiver.limits = limits
  holding : s.receiver.Holding base held
  awaits : FrameReceiver.Awaits s.receiver.state base fs
  flow : held ++ (s.socket.stream ++ ahead) = wire fs
  fits : ∀ f ∈ fs, f.Fits limits
  total : base + (wire fs).length < usizeBound
  closing : s.socket.closed = true → ahead = []

/-- The error a receiver is left with when the kernel is right and the sender keeps the limits:
the frames to come have more descriptors than may be pending. -/
def Overrun (limits : FrameLimits) (fs : List OutboundFrame) (e : Unwind) : Prop :=
  (∃ received limit, e = .error (.tooManyPendingFds received limit)) ∧
    limits.maxPendingFds < (cargo (wire fs)).length

variable {limits : FrameLimits} {s : Receiving} {base : ℕ} {held ahead : List Loaded}
  {fs : List OutboundFrame}

/-- The end of the stream, as it is left. -/
structure Ended (s s' : Receiving) : Prop where
  limits : s'.receiver.limits = s.receiver.limits
  state : s'.receiver.state = .eof
  socket : s'.socket = s.socket
  closed : s.socket.closed = true
  stream : s.socket.stream = []

lemma Attends.over (h : Attends limits s base held fs ahead)
    (hshort : ∀ f rest, fs = f :: rest → held.length < f.bytes.length)
    (hclosed : s.socket.closed = true) (hstream : s.socket.stream = []) : fs = [] ∧ held = [] := by
  have hflow := h.flow
  rw [hstream, h.closing hclosed, List.append_nil, List.append_nil] at hflow
  cases fs with
  | nil => exact ⟨rfl, hflow⟩
  | cons f rest =>
    have hlt := hshort f rest rfl
    rw [hflow, wire_cons, List.length_append, load_length] at hlt
    omega

lemma recvOnce_allocated (halloc : limits.Allocatable) (hlimits : s.receiver.limits = limits)
    {answer : RecvAnswer} {Q : List UInt8 × List OwnedFd → Receiving → Prop}
    {E : Unwind → Receiving → Prop} :
    (recvOnce s.receiver.chunkLen s.receiver.limits.recvControlFds answer).Ends s Q E ↔
      (Socket.recvmsg s.receiver.chunkLen (align (dataOffset + 4 * limits.recvControlFds))
        answer).Ends s.socket
        (fun got socket => match parseControl got.2.1 got.2.2 with
          | .error (e, _) => E (.error e) { s with socket }
          | .ok fds => Q (got.1, fds) { s with socket })
        (fun e socket => E (.error (.io e)) { s with socket }) := by
  unfold recvOnce
  simp only [hlimits, ends_bind, ends_failIf, Nat.not_le.2 (halloc.chunkLen hlimits),
    halloc.controlLen, ends_mapErr, ends_ofExcept, Nat.not_le.2 halloc.control, false_implies,
    not_false_eq_true, true_implies, true_and, ends_zoom]
  constructor
  all_goals
    refine fun h => h.mono (fun got socket h => ?_) fun _ _ h => h
    revert h
    rcases parseControl got.2.1 got.2.2 with ⟨e, dropped⟩ | fds
    · exact id
    · exact id

lemma recvOnce_ends (halloc : limits.Allocatable) (h : Attends limits s base held fs ahead)
    (count : ℕ) (hstream : s.socket.stream ≠ []) :
    (recvOnce s.receiver.chunkLen s.receiver.limits.recvControlFds (.delivered count)).Ends s
      (fun got s' => ∃ taken rest, taken ≠ [] ∧ taken ++ rest = s.socket.stream ∧
        got = (taken.map (·.1), cargo taken) ∧ s'.receiver = s.receiver ∧
        s'.socket = { s.socket with stream := rest })
      (fun _ _ => False) := by
  -- every message fits in the control buffer, so what is put together does
  have hroom : ∀ b ∈ s.socket.stream,
      b.2.length ≤ Socket.room (align (dataOffset + 4 * limits.recvControlFds)) := by
    intro b hb
    have hwire : b ∈ wire fs := by
      rw [← h.flow]
      exact List.mem_append_right _ (List.mem_append_left _ hb)
    rcases wire_load hwire with hnil | ⟨f, hf, hfds⟩
    · rw [hnil]
      exact Nat.zero_le _
    · rw [hfds]
      exact Nat.le_trans (h.fits f hf).control (FrameLimits.Allocatable.le_room limits)
  obtain ⟨cut, hcut⟩ : ∃ cut, cut = Socket.gather
      (Socket.room (align (dataOffset + 4 * limits.recvControlFds)))
      (max 1 (min count s.receiver.chunkLen)) [] s.socket.stream := ⟨_, rfl⟩
  have happend : cut.1 ++ cut.2 = s.socket.stream := by
    rw [hcut]
    exact Socket.gather_append _ _ _
  have hpos : 0 < cut.1.length := by
    rw [hcut]
    exact Socket.gather_pos (by omega) hstream
  have hcargo : (cargo cut.1).length ≤
      Socket.room (align (dataOffset + 4 * limits.recvControlFds)) := by
    rw [hcut]
    exact Socket.gather_cargo_le hroom (Nat.zero_le _)
  have hparse : parseControl (if cargo cut.1 = [] then [] else rightsRecord (cargo cut.1)) 0 =
      .ok (cargo cut.1) := by
    split_ifs with hnil
    · rw [hnil]
      rfl
    · refine parseControl_rights (Nat.lt_of_le_of_lt ?_ halloc.room_lt) 0
      omega
  rw [recvOnce_allocated halloc h.limits_eq, Socket.recvmsg]
  simp only [ends_bind, ends_get]
  rw [if_neg hstream]
  simp only [← hcut, ends_bind, ends_modify, ends_pure, List.take_of_length_le hcargo,
    if_neg (Nat.not_lt.2 hcargo), hparse]
  exact ⟨cut.1, cut.2, List.ne_nil_of_length_pos hpos, happend, rfl, trivial, rfl⟩

lemma readTurn_ends (halloc : limits.Allocatable) (h : Attends limits s base held fs ahead)
    (count : ℕ) (hstream : s.socket.stream ≠ []) :
    (readTurn (.delivered count)).Ends s
      (fun o s' => o = none ∧ s'.socket.closed = s.socket.closed ∧
        s'.socket.stream.length < s.socket.stream.length ∧
        ∃ held', Attends limits s' base held' fs ahead)
      (fun e _ => Overrun limits fs e) := by
  unfold readTurn
  simp only [ends_bind, ends_get, ends_attempt]
  refine (recvOnce_ends halloc h count hstream).mono ?_ (by simp)
  rintro got s' ⟨taken, rest, hne, hcut, rfl, hreceiver, hsocket⟩
  have hflow := h.flow
  rw [← hcut, List.append_assoc, ← List.append_assoc] at hflow
  have htotal : base + (held ++ taken).length < usizeBound := by
    have hlen := congrArg List.length hflow
    have := h.total
    rw [List.length_append] at hlen
    omega
  simp only [ofReceiver, ends_zoom, hreceiver]
  refine (FrameReceiver.absorb_ends h.holding hne htotal).mono ?_ fun e _ h' => ⟨h'.1, ?_⟩
  case refine_2 =>
    have hlt := h'.2
    rw [← hflow, cargo_append, List.length_append, ← h.limits_eq]
    omega
  rintro o r' ⟨rfl, hlimits, hstate, hold⟩
  refine ⟨rfl, by rw [hsocket], ?_, held ++ taken, hlimits.trans h.limits_eq, hold, ?_, ?_, h.fits,
    h.total, ?_⟩
  · rw [hsocket, ← hcut, List.length_append]
    have := List.length_pos_iff.2 hne
    dsimp only
    omega
  · rw [hstate]
    exact h.awaits
  · rw [hsocket]
    exact hflow
  · rw [hsocket]
    exact h.closing

lemma readTurn_blocked (halloc : limits.Allocatable) (hlimits : s.receiver.limits = limits)
    {answer : RecvAnswer} (hanswer : answer = .again ∨
      (∃ count, answer = .delivered count) ∧ s.socket.stream = [] ∧ s.socket.closed = false) :
    (readTurn answer).Ends s (fun o s' => o = some .wouldBlock ∧ s' = s) (fun _ _ => False) := by
  unfold readTurn
  simp only [ends_bind, ends_get, ends_attempt]
  rw [recvOnce_allocated halloc hlimits]
  rcases hanswer with rfl | ⟨⟨count, rfl⟩, hstream, hclosed⟩
  · exact ⟨rfl, rfl⟩
  · simp only [Socket.recvmsg, ends_bind, ends_get, hstream, hclosed, if_true, Bool.false_eq_true,
      if_false, ends_fail, ends_pure]
    exact ⟨trivial, trivial⟩

lemma readTurn_closed (halloc : limits.Allocatable) (hlimits : s.receiver.limits = limits)
    (hstream : s.socket.stream = []) (hclosed : s.socket.closed = true)
    (hold : s.receiver.Holding base []) (count : ℕ) :
    (readTurn (.delivered count)).Ends s (fun o s' => o = some .closed ∧ Ended s s')
      (fun _ _ => False) := by
  unfold readTurn
  simp only [ends_bind, ends_get, ends_attempt]
  rw [recvOnce_allocated halloc hlimits]
  simp only [Socket.recvmsg, ends_bind, ends_get, hstream, hclosed, if_true, ends_pure]
  have hparse : parseControl [] 0 = .ok [] := rfl
  simp only [hparse, ofReceiver, ends_zoom]
  refine (FrameReceiver.absorb_nil_ends hold).mono ?_ fun _ _ h => h
  rintro o r' ⟨rfl, rfl⟩
  exact ⟨rfl, rfl, rfl, rfl, hclosed, hstream⟩

/-! ### A receive -/

/-- How a receive comes back: with the next frame, for want of bytes, or at the end. -/
def Answered (limits : FrameLimits) (base : ℕ) (fs : List OutboundFrame) (ahead : List Loaded)
    (s : Receiving) : ReceiveOutcome → Receiving → Prop
  | .frame g, s' => s'.socket.closed = s.socket.closed ∧ ∃ f rest held, fs = f :: rest ∧
      g = f.received ∧ Attends limits s' (base + f.bytes.length) held rest ahead
  | .wouldBlock, s' => s'.socket.closed = s.socket.closed ∧
      ∃ held, Attends limits s' base held fs ahead
  | .closed, s' => fs = [] ∧ s'.receiver.limits = limits ∧ s'.receiver.state = .eof ∧
      s'.socket.closed = true ∧ s.socket.closed = true ∧ s'.socket.stream = [] ∧ ahead = []

/-- The kernel has an answer: bytes, or the end of the stream. -/
def delivers : RecvAnswer → Bool
  | .delivered _ => true
  | _ => false

/-- The kernel answers more often than there are bytes in flight. -/
def Enough (answers : List RecvAnswer) (stream : List Loaded) : Prop :=
  RecvAnswer.again ∉ answers ∧ stream.length < answers.countP delivers

lemma advance_attends (h : Attends limits s base held fs ahead) :
    (ofReceiver FrameReceiver.advance).Ends s
      (fun o s' => s'.socket = s.socket ∧ match o with
        | some g => ∃ f rest held', fs = f :: rest ∧ g = f.received ∧
            Attends limits s' (base + f.bytes.length) held' rest ahead
        | none => Attends limits s' base held fs ahead ∧
            ∀ f rest, fs = f :: rest → held.length < f.bytes.length)
      (fun _ _ => False) := by
  have hfits : ∀ f ∈ fs, f.Fits s.receiver.limits := by
    rw [h.limits_eq]
    exact h.fits
  simp only [ofReceiver, ends_zoom]
  refine (FrameReceiver.advance_ends h.holding h.awaits h.flow hfits h.total).mono ?_ fun _ _ h => h
  rintro o r' ⟨hlimits, ho⟩
  refine ⟨trivial, ?_⟩
  cases o with
  | none =>
    obtain ⟨hold, hawait, hshort⟩ := ho
    exact ⟨⟨hlimits.trans h.limits_eq, hold, hawait, h.flow, h.fits, h.total, h.closing⟩, hshort⟩
  | some g =>
    obtain ⟨f, rest, held', rfl, rfl, hflow, hold, hstate⟩ := ho
    have htotal := h.total
    rw [wire_cons, List.length_append, load_length, ← Nat.add_assoc] at htotal
    exact ⟨f, rest, held', rfl, rfl, hlimits.trans h.limits_eq, hold, .inl hstate, hflow,
      fun g hg => h.fits g (List.mem_cons_of_mem _ hg), htotal, h.closing⟩

/-- **Waiting.** Reads go on until a frame is there, the stream is over, or the kernel has
nothing; the induction is on its answers. -/
theorem waitLoop_ends (halloc : limits.Allocatable) {answers : List RecvAnswer}
    (ha : ∀ a ∈ answers, a.Regular) (h : Attends limits s base held fs ahead)
    (hshort : ∀ f rest, fs = f :: rest → held.length < f.bytes.length) :
    (waitLoop answers).Ends s
      (fun o s' => Answered limits base fs ahead s o s' ∧
        (s.socket.closed = true → Enough answers s.socket.stream → o ≠ .wouldBlock))
      (fun e _ => Overrun limits fs e) := by
  induction answers generalizing s held with
  | nil =>
    simp only [waitLoop, ends_bind]
    refine (readTurn_blocked halloc h.limits_eq (.inl rfl)).mono ?_ fun _ _ h => h.elim
    rintro o s' ⟨rfl, rfl⟩
    exact ⟨⟨rfl, held, h⟩, fun _ hen => absurd hen.2 (Nat.not_lt_zero _)⟩
  | cons a answers ih =>
    have hrest : ∀ a' ∈ answers, a'.Regular := fun a' h' => ha a' (List.mem_cons_of_mem _ h')
    cases a with
    | interrupted =>
      rw [waitLoop]
      refine (ih hrest h hshort).mono (fun o s' h => ⟨h.1, fun hc hen => ?_⟩) fun _ _ h => h
      refine h.2 hc ⟨fun hmem => hen.1 (List.mem_cons_of_mem _ hmem), ?_⟩
      simpa [delivers] using hen.2
    | again =>
      simp only [waitLoop, ends_bind]
      refine (readTurn_blocked halloc h.limits_eq (.inl rfl)).mono ?_ fun _ _ h => h.elim
      rintro o s' ⟨rfl, rfl⟩
      exact ⟨⟨rfl, held, h⟩, fun _ hen => absurd List.mem_cons_self hen.1⟩
    | refused errno => exact absurd (ha _ List.mem_cons_self) (by simp [RecvAnswer.Regular])
    | delivered count =>
      simp only [waitLoop, ends_bind]
      by_cases hstream : s.socket.stream = []
      · cases hclosed : s.socket.closed with
        | false =>
          refine (readTurn_blocked halloc h.limits_eq (.inr ⟨⟨count, rfl⟩, hstream, hclosed⟩)).mono
            ?_ fun _ _ h => h.elim
          rintro o s' ⟨rfl, rfl⟩
          exact ⟨⟨rfl, held, h⟩, fun hc => by simp at hc⟩
        | true =>
          obtain ⟨rfl, rfl⟩ := h.over hshort hclosed hstream
          refine (readTurn_closed halloc h.limits_eq hstream hclosed h.holding count).mono ?_
            fun _ _ h => h.elim
          rintro o s' ⟨rfl, hended⟩
          refine ⟨⟨rfl, hended.limits.trans h.limits_eq, hended.state, ?_, hclosed, ?_,
            h.closing hclosed⟩, by simp⟩
          · rw [hended.socket, hclosed]
          · rw [hended.socket, hstream]
      · refine (readTurn_ends halloc h count hstream).mono ?_ fun _ _ h => h
        rintro o s' ⟨rfl, hclosed, hless, held', h'⟩
        dsimp only
        rw [ends_bind]
        refine (advance_attends h').mono ?_ fun _ _ h => h.elim
        rintro (_ | g) s'' ⟨hsocket, ho⟩
        · obtain ⟨h'', hshort'⟩ := ho
          refine (ih hrest h'' hshort').mono (fun o s₃ h => ⟨?_, fun hc hen => ?_⟩) fun _ _ h => h
          · have hans := h.1
            unfold Answered at hans ⊢
            rwa [hsocket, hclosed] at hans
          · refine h.2 (by rwa [hsocket, hclosed])
              ⟨fun hmem => hen.1 (List.mem_cons_of_mem _ hmem), ?_⟩
            have hcount := hen.2
            rw [List.countP_cons_of_pos rfl] at hcount
            rw [hsocket]
            omega
        · obtain ⟨f, rest, held'', hfs, hg, h''⟩ := ho
          exact ⟨⟨by rw [hsocket, hclosed], f, rest, held'', hfs, hg, h''⟩, fun _ _ => by simp⟩

/-- **A receive** in the middle of a stream. -/
theorem receive_ends (halloc : limits.Allocatable) {answers : List RecvAnswer}
    (ha : ∀ a ∈ answers, a.Regular) (h : Attends limits s base held fs ahead) :
    (receive answers).Ends s
      (fun o s' => Answered limits base fs ahead s o s' ∧
        (s.socket.closed = true → Enough answers s.socket.stream → o ≠ .wouldBlock))
      (fun e _ => Overrun limits fs e) := by
  have hstate : s.receiver.state ≠ .failed ∧ s.receiver.state ≠ .eof := by
    rcases h.awaits with hs | ⟨f, rest, -, hs⟩
    · simp [hs]
    · simp [hs]
  unfold Ends
  rw [receive_eq hstate.1 hstate.2]
  change Ends _ s _ _
  rw [ends_bind]
  refine (advance_attends h).mono ?_ fun _ _ h => h.elim
  rintro (_ | g) s' ⟨hsocket, ho⟩
  · refine (waitLoop_ends halloc ha ho.1 ho.2).mono (fun o s'' hans => ?_) fun _ _ h => h
    unfold Answered at hans ⊢
    rwa [hsocket] at hans
  · obtain ⟨f, rest, held', hfs, hg, h'⟩ := ho
    exact ⟨⟨by rw [hsocket], f, rest, held', hfs, hg, h'⟩, fun _ _ => by simp⟩

end Receiving

end PipewireNative.Frame
