import PipewireNative.Frame.Link

/-!
What the sending end keeps: the bytes in flight and those of the queue, with the descriptors they
carry, are together what was accepted, in order. Flushing moves bytes from the queue to the
socket and loses none.
-/

namespace PipewireNative.Frame

open Lib Prog

/-! ### Frames on the wire -/

/-- What some frames are on the wire. -/
def wire (frames : List OutboundFrame) : List Loaded := frames.flatMap fun f => load f.bytes f.fds

def SendFrame.left (q : SendFrame) : List Loaded := load (q.bytes.drop q.offset) q.fds

def left (queue : List SendFrame) : List Loaded := queue.flatMap SendFrame.left

@[simp] lemma wire_nil : wire [] = [] := rfl

@[simp] lemma wire_cons (f : OutboundFrame) (fs : List OutboundFrame) :
    wire (f :: fs) = load f.bytes f.fds ++ wire fs := rfl

@[simp] lemma wire_append (fs gs : List OutboundFrame) : wire (fs ++ gs) = wire fs ++ wire gs :=
  List.flatMap_append

@[simp] lemma left_nil : left [] = [] := rfl

@[simp] lemma left_cons (q : SendFrame) (qs : List SendFrame) : left (q :: qs) = q.left ++ left qs :=
  rfl

lemma left_append (qs qs' : List SendFrame) : left (qs ++ qs') = left qs ++ left qs' :=
  List.flatMap_append

lemma wire_length (fs : List OutboundFrame) :
    (wire fs).length = (fs.map (·.bytes.length)).sum := by
  induction fs with
  | nil => rfl
  | cons f fs ih => simp [ih]

/-! ### The queue -/

/-- A frame of the queue: some of it is left, descriptors that were sent are gone, and the others
fit in one message. -/
structure SendFrame.Sound (q : SendFrame) : Prop where
  offset_lt : q.offset < q.bytes.length
  sent : q.ancillarySent = true → q.fds = []
  fits : q.fds.length ≤ scmMaxFd

lemma SendFrame.Sound.includes {q : SendFrame} (h : q.Sound) :
    (!q.ancillarySent && !q.fds.isEmpty) = !q.fds.isEmpty := by
  cases hsent : q.ancillarySent with
  | false => rfl
  | true => simp [h.sent hsent]

/-- A sender that works. -/
structure FrameSender.Sound (s : FrameSender) : Prop where
  working : s.failed = false
  queue : ∀ q ∈ s.queue, q.Sound

namespace Sending

/-- The sending end after some flushing: it works as before, and what it has not sent is what was
left before. -/
structure Flushed (s s' : Sending) : Prop where
  sound : s'.sender.Sound
  limits : s'.sender.limits = s.sender.limits
  closed : s'.socket.closed = s.socket.closed
  kept : s'.socket.stream ++ left s'.sender.queue = s.socket.stream ++ left s.sender.queue

variable {s s' s'' : Sending}

lemma Flushed.refl (h : s.sender.Sound) : Flushed s s := ⟨h, rfl, rfl, rfl⟩

lemma Flushed.trans (h : Flushed s s') (h' : Flushed s' s'') : Flushed s s'' :=
  ⟨h'.sound, h'.limits.trans h.limits, h'.closed.trans h.closed, h'.kept.trans h.kept⟩

lemma parseControl_send {fds : List OwnedFd} (h : fds.length < 2 ^ 32) :
    parseControl (sendControl (if !fds.isEmpty then some fds else none)) 0 = .ok fds := by
  cases fds with
  | nil => rfl
  | cons fd fds =>
    refine parseControl_rights ?_ 0
    unfold dataOffset align cmsghdrSize usizeBound
    omega

lemma flushed_advance {q : SendFrame} {rest : List SendFrame} {sent : ℕ} (hs : s.sender.Sound)
    (hqueue : s.sender.queue = q :: rest) (hpos : 0 < sent)
    (hsent : sent ≤ q.bytes.length - q.offset) :
    Flushed s ⟨s.sender.advance q rest (!q.fds.isEmpty) sent,
      { s.socket with stream := s.socket.stream ++ load ((q.bytes.drop q.offset).take sent) q.fds }⟩ := by
  have hq := hs.queue q (by simp [hqueue])
  have hrest : ∀ q' ∈ rest, q'.Sound := fun q' h => hs.queue q' (by simp [hqueue, h])
  have hfds : (if (!q.fds.isEmpty) = true then [] else q.fds) = [] := by
    cases q.fds <;> rfl
  have hsplit := load_split (q.bytes.drop q.offset) q.fds hpos
  rw [List.drop_drop] at hsplit
  unfold FrameSender.advance
  rw [hfds]
  refine ⟨⟨hs.working, ?_⟩, rfl, rfl, ?_⟩
  · dsimp only
    intro q' hq'
    split_ifs at hq' with hdone
    · exact hrest q' hq'
    · rcases List.mem_cons.1 hq' with rfl | hq'
      · have := hq.offset_lt
        exact ⟨by dsimp only; omega, fun _ => rfl, Nat.zero_le _⟩
      · exact hrest q' hq'
  · rw [hqueue, left_cons, SendFrame.left, hsplit]
    dsimp only
    split_ifs with hdone
    · have hnone : q.bytes.drop (q.offset + sent) = [] := List.drop_of_length_le (by omega)
      simp [hnone, load]
    · simp only [left_cons, SendFrame.left, List.append_assoc]

def accepts : SendAnswer → Bool
  | .accepted _ => true
  | _ => false

/-- The kernel takes bytes more often than there are any. -/
def Enough (answers : List SendAnswer) (bytes : List Loaded) : Prop :=
  SendAnswer.again ∉ answers ∧ bytes.length < answers.countP accepts

/-- A call of `send_once` the kernel does not refuse: flushing is over, or there is less to
send. -/
theorem flushTurn_ends {answer : SendAnswer} (ha : answer.Regular) (hs : s.sender.Sound) :
    (flushTurn answer).Ends s
      (fun o s' => Flushed s s' ∧ match o with
        | some .drained => s'.sender.queue = []
        | some .wouldBlock => answer = .again
        | none => answer = .interrupted ∧ s' = s ∨
            (left s'.sender.queue).length < (left s.sender.queue).length)
      (fun _ _ => False) := by
  unfold flushTurn
  simp only [ends_bind, ends_get]
  cases hqueue : s.sender.queue with
  | nil => exact ⟨.refl hs, hqueue⟩
  | cons q rest =>
    have hq := hs.queue q (by simp [hqueue])
    have hfits : ¬ scmMaxFd < q.fds.length := Nat.not_lt.2 hq.fits
    have hcontrol : parseControl (sendControl (if !q.fds.isEmpty then some q.fds else none)) 0 =
        .ok q.fds := parseControl_send (by unfold scmMaxFd at hfits; omega)
    simp only [hq.includes, ends_bind, ends_attempt, sendOnce, ends_zoom, Socket.sendmsg, hcontrol, ends_failIf,
      hfits, false_implies, not_false_eq_true, true_implies, true_and]
    cases answer with
    | interrupted => exact ⟨.refl hs, .inl ⟨rfl, rfl⟩⟩
    | again => exact ⟨.refl hs, rfl⟩
    | refused errno => exact absurd ha (by simp [SendAnswer.Regular])
    | accepted count =>
      have hoffset := hq.offset_lt
      have hcount : 0 < count := ha
      have hlen : (q.bytes.drop q.offset).length = q.bytes.length - q.offset := List.length_drop
      simp only [ends_bind, ends_modify, ends_pure]
      rw [if_neg (by omega)]
      simp only [ends_bind, ends_modify, ends_pure]
      have hpos : 0 < min count (q.bytes.drop q.offset).length := by omega
      have hflushed := flushed_advance hs hqueue hpos (by omega)
      rw [← List.take_eq_take_min] at hflushed
      refine ⟨hflushed, .inr ?_⟩
      have hkept := congrArg List.length hflushed.kept
      simp only [List.length_append, load_length, List.length_take] at hkept
      rw [hqueue] at hkept
      omega

theorem flushLoop_ends {answers : List SendAnswer} (ha : ∀ a ∈ answers, a.Regular)
    (hs : s.sender.Sound) :
    (flushLoop answers).Ends s
      (fun o s' => Flushed s s' ∧ (o = .drained → s'.sender.queue = []) ∧
        (Enough answers (left s.sender.queue) → o = .drained))
      (fun _ _ => False) := by
  induction answers generalizing s with
  | nil =>
    simp only [flushLoop, ends_bind]
    have hagain : SendAnswer.again.Regular := trivial
    refine (flushTurn_ends hagain hs).mono ?_ fun _ _ h => h
    rintro (_ | _ | _) s' ⟨h, ho⟩
    · exact ⟨h, by simp, fun hen => absurd hen.2 (Nat.not_lt_zero _)⟩
    · exact ⟨h, fun _ => ho, fun _ => rfl⟩
    · exact ⟨h, by simp, fun hen => absurd hen.2 (Nat.not_lt_zero _)⟩
  | cons a answers ih =>
    simp only [flushLoop, ends_bind]
    refine (flushTurn_ends (ha a List.mem_cons_self) hs).mono ?_ fun _ _ h => h
    rintro (_ | _ | _) s' ⟨h, ho⟩
    · refine (ih (fun b hb => ha b (List.mem_cons_of_mem _ hb)) h.sound).mono
        (fun o s'' h' => ⟨h.trans h'.1, h'.2.1, fun hen => h'.2.2 ?_⟩) fun _ _ h => h
      refine ⟨fun hmem => hen.1 (List.mem_cons_of_mem _ hmem), ?_⟩
      have hcount := hen.2
      rcases ho with ⟨rfl, rfl⟩ | hless
      · simpa [accepts] using hcount
      · have hone : (a :: answers).countP accepts ≤ answers.countP accepts + 1 := by
          rw [List.countP_cons]
          split <;> omega
        omega
    · exact ⟨h, fun _ => ho, fun _ => rfl⟩
    · exact ⟨h, by simp, fun hen => absurd (ho ▸ List.mem_cons_self) hen.1⟩

/-- **Flushing.** A flush the kernel does not refuse comes back without an error and loses
nothing; it empties the queue when the kernel takes bytes often enough. -/
theorem flush_ends {answers : List SendAnswer} (ha : ∀ a ∈ answers, a.Regular)
    (hs : s.sender.Sound) :
    (flush answers).Ends s
      (fun o s' => Flushed s s' ∧ (o = .drained → s'.sender.queue = []) ∧
        (Enough answers (left s.sender.queue) → o = .drained))
      (fun _ _ => False) := by
  unfold flush
  simp only [ends_bind, ends_get, ends_failIf, hs.working]
  exact ⟨by simp, fun _ => flushLoop_ends ha hs⟩

end Sending

namespace FrameSender

variable {s : FrameSender} {f : OutboundFrame}

/-- A frame a sender accepts goes to the end of its queue; another one changes nothing. -/
theorem enqueue_ends : (enqueue f).Ends s
    (fun _ s' => f.header.payloadLen.toNat ≤ s.limits.payloadLimit ∧
      f.fds.length ≤ s.limits.maxFrameFds ∧ s'.limits = s.limits ∧ s'.failed = s.failed ∧
      s'.queue = s.queue ++ [⟨f.bytes, 0, f.fds, false⟩])
    (fun _ s' => s' = s) := by
  unfold enqueue
  simp only [ends_bind, ends_get, ends_failIf, ends_modify, implies_true, true_and, and_true]
  intro _ hpayload hfds _ _
  exact ⟨Nat.not_lt.1 hpayload, Nat.not_lt.1 hfds⟩

end FrameSender

end PipewireNative.Frame
