import Mathlib.Data.List.Sublists
import PipewireNative.Frame.Traffic

/-!
Runs of a sender. Without `clear` its counters and its calls of `send_once` follow from the frames
it has accepted and the bytes that went. With `clear` the bytes that went are those of whole
frames as long as no frame is cleared of which some bytes went already.
-/

namespace PipewireNative.Frame

open Lib Prog

namespace FrameSender

variable {s : FrameSender} {f : OutboundFrame}

lemma enqueue_counts : (enqueue f).Ends s
    (fun _ s' => s.failed = false ∧ s' = { s with
      queuedBytes := s.queuedBytes + f.bytes.length
      queuedFds := s.queuedFds + f.fds.length
      queue := s.queue ++ [f.fresh] })
    (fun _ s' => s' = s) := by
  unfold enqueue
  simp only [ends_bind, ends_get, ends_failIf, ends_modify, implies_true, true_and]
  intro hfailed _ _ _ _
  exact ⟨by simpa using hfailed, rfl⟩

lemma enqueue_failed (h : s.failed = true) : enqueue f s = (.error .poisoned, s) := by
  unfold enqueue
  rw [get_bind, failIf_bind_of h]

lemma settle_cases (q : SendFrame) (rest : List SendFrame) (includeFds : Bool)
    (result : Except IoError ℕ) (s : FrameSender) :
    (∃ o e, result = .error e ∧ settle q rest includeFds result s = (.ok o, s)) ∨
    (∃ e, (∀ n, result = .ok n → n = 0) ∧
      settle q rest includeFds result s = (.error e, { s.clear with failed := true })) ∨
    ∃ n, 0 < n ∧ result = .ok n ∧
      settle q rest includeFds result s = (.ok none, s.advance q rest includeFds n) := by
  cases result with
  | error e =>
    cases e with
    | interrupted => exact .inl ⟨none, _, rfl, rfl⟩
    | wouldBlock => exact .inl ⟨some .wouldBlock, _, rfl, rfl⟩
    | os _ | other _ => exact .inr (.inl ⟨_, by simp, rfl⟩)
  | ok n =>
    unfold settle
    by_cases hzero : n = 0
    · subst hzero
      exact .inr (.inl ⟨.writeZero, by simp, rfl⟩)
    · refine .inr (.inr ⟨n, Nat.pos_of_ne_zero hzero, rfl, ?_⟩)
      simp only [hzero, if_false]
      rfl

end FrameSender

/-! ### What a sender has made of some frames -/

namespace Traffic

variable {t : Traffic} {fs : List OutboundFrame}

/-- The bytes that went are the first ones of the frames `fs`; as long as the sender works, its
queue is what is left of them. -/
structure Follows (fs : List OutboundFrame) (t : Traffic) : Prop where
  written : t.written <+: flat fs
  queue : t.sender.failed = false → t.sender.queue = remaining fs t.written.length
  bytes : t.sender.queuedBytes = (t.sender.queue.map SendFrame.unsent).sum
  fds : t.sender.queuedFds = (t.sender.queue.flatMap (·.fds)).length
  failed : t.sender.failed = true → t.sender.queue = [] ∧ t.flushing = false

lemma follows_start (limits : FrameLimits) : Follows [] (start limits) :=
  ⟨List.nil_prefix, fun _ => rfl, rfl, rfl, by simp [start, FrameSender.new]⟩

lemma Follows.sound (h : Follows fs t) {q : SendFrame} (hq : q ∈ t.sender.queue) :
    q.offset < q.bytes.length ∧ (q.ancillarySent = true → q.fds = []) := by
  cases hfailed : t.sender.failed with
  | true => simp [(h.failed hfailed).1] at hq
  | false =>
    rw [h.queue hfailed] at hq
    exact remaining_sound hq

lemma Follows.gone (h : Follows fs t) {q : SendFrame} (hq : q ∈ t.sender.queue)
    (hno : q.includeFds = false) : q.fds = [] := by
  by_cases hsent : q.ancillarySent = true
  · exact (h.sound hq).2 hsent
  · simpa [SendFrame.includeFds, hsent] using hno

lemma Follows.counted (h : Follows fs t) {q : SendFrame} {rest : List SendFrame}
    (hqueue : t.sender.queue = q :: rest) :
    q.unsent ≤ t.sender.queuedBytes ∧ q.fds.length ≤ t.sender.queuedFds := by
  rw [h.bytes, h.fds, hqueue]
  simp

lemma written_send (t : Traffic) (q : SendFrame) (rest : List SendFrame)
    (result : Except IoError ℕ) :
    (t.send q rest result).written = t.written ++
      SendCall.sent ⟨q.offered.1, q.offered.2, result.map (min · q.offered.1.length)⟩ := by
  simp [send, written]

lemma Follows.send (h : Follows fs t) (hworks : t.sender.failed = false) {q : SendFrame}
    {rest : List SendFrame} (hqueue : t.sender.queue = q :: rest) (result : Except IoError ℕ) :
    Follows fs (t.send q rest result) := by
  have hmem : q ∈ t.sender.queue := by simp [hqueue]
  have hleft : remaining fs t.written.length = q :: rest := by rw [← h.queue hworks, hqueue]
  have hwritten := written_send t q rest result
  have hsender : (t.send q rest result).sender = (FrameSender.settle q rest q.includeFds
    (result.map (min · q.offered.1.length)) t.sender).2 := rfl
  have hflushing : (t.send q rest result).flushing = (settled (FrameSender.settle q rest
    q.includeFds (result.map (min · q.offered.1.length)) t.sender).1).isNone := rfl
  obtain ⟨o, e, hres, hrun⟩ | ⟨e, hnone, hrun⟩ | ⟨n, hpos, hres, hrun⟩ :=
    FrameSender.settle_cases q rest q.includeFds (result.map (min · q.offered.1.length)) t.sender
  · -- the call is to be made again
    rw [hrun] at hsender
    have hsame : (t.send q rest result).written = t.written := by
      rw [hwritten, hres]
      simp [SendCall.sent]
    refine ⟨hsame ▸ h.written, ?_, ?_, ?_, ?_⟩
    · rw [hsender, hsame]
      exact h.queue
    · rw [hsender]
      exact h.bytes
    · rw [hsender]
      exact h.fds
    · rw [hsender]
      intro hfailed
      exact absurd hfailed (by simp [hworks])
  · -- the sender fails
    rw [hrun] at hsender hflushing
    have hsame : (t.send q rest result).written = t.written := by
      rw [hwritten]
      cases hres : result.map (min · q.offered.1.length) with
      | error e => simp [SendCall.sent]
      | ok n => simp [SendCall.sent, hnone n hres]
    refine ⟨hsame ▸ h.written, ?_, ?_, ?_, ?_⟩
    · rw [hsender]
      intro hfailed
      exact absurd hfailed (by simp)
    · rw [hsender]
      rfl
    · rw [hsender]
      rfl
    · rw [hsender, hflushing]
      exact fun _ => ⟨rfl, rfl⟩
  · -- `n` bytes of the front frame went
    rw [hrun] at hsender
    have hn : n ≤ q.unsent := by
      cases result with
      | error e => simp [Except.map] at hres
      | ok m =>
        simp only [Except.map, Except.ok.injEq] at hres
        simp only [SendFrame.offered, List.length_drop] at hres
        unfold SendFrame.unsent
        omega
    have hnow : (t.send q rest result).written = t.written ++ (q.bytes.drop q.offset).take n := by
      rw [hwritten, hres]
      rfl
    have hlen : (t.send q rest result).written.length = t.written.length + n := by
      rw [hnow, List.length_append, List.length_take, List.length_drop]
      unfold SendFrame.unsent at hn
      omega
    have hpre : (t.send q rest result).written <+: flat fs := by
      obtain ⟨behind, hdrop⟩ := flat_of_remaining hleft
      obtain ⟨tail, htail⟩ := h.written
      rw [← htail, List.drop_left] at hdrop
      refine ⟨(q.bytes.drop q.offset).drop n ++ behind, ?_⟩
      rw [hnow, ← htail, hdrop, List.append_assoc, ← List.append_assoc (List.take _ _),
        List.take_append_drop]
    have hremaining : (t.send q rest result).sender.queue =
        remaining fs (t.send q rest result).written.length := by
      rw [hlen, remaining_add hleft hpos hn, hsender]
      rfl
    refine ⟨hpre, fun _ => hremaining, ?_, ?_, ?_⟩
    · have hbefore := remaining_unsent (n := t.written.length) h.written.length_le
      have hafter := remaining_unsent (n := (t.send q rest result).written.length)
        hpre.length_le
      rw [← h.queue hworks, ← h.bytes] at hbefore
      rw [← hremaining, hlen] at hafter
      have hcount : (t.send q rest result).sender.queuedBytes = t.sender.queuedBytes - n := by
        rw [hsender]
        rfl
      rw [hcount]
      omega
    · have hcount : (t.send q rest result).sender.queuedFds =
          if q.includeFds then t.sender.queuedFds - q.fds.length else t.sender.queuedFds := by
        rw [hsender]
        rfl
      have hrest : (t.send q rest result).sender.queue.flatMap (·.fds) = rest.flatMap (·.fds) := by
        have hmoved : (q.moved n).fds = [] := by
          cases hinc : q.includeFds with
          | true => simp [SendFrame.moved, hinc]
          | false => simp [SendFrame.moved, hinc, h.gone hmem hinc]
        rw [hsender]
        show (if q.offset + n = q.bytes.length then rest else q.moved n :: rest).flatMap (·.fds) = _
        split_ifs with hdone
        · rfl
        · rw [List.flatMap_cons, hmoved, List.nil_append]
      have htotal := h.fds
      rw [hqueue, List.flatMap_cons, List.length_append] at htotal
      rw [hcount, hrest]
      cases hinc : q.includeFds with
      | true =>
        simp only [if_true]
        omega
      | false =>
        rw [h.gone hmem hinc] at htotal
        simpa using htotal
    · rw [hsender]
      intro hfailed
      exact absurd hfailed (by simp [FrameSender.advance, hworks])

lemma Follows.enqueue (h : Follows fs t) (f : OutboundFrame) :
    ∃ new, (t.enqueue f).accepted = t.accepted ++ new ∧ Follows (fs ++ new) (t.enqueue f) := by
  unfold Traffic.enqueue
  split_ifs with hflushing
  · exact ⟨[], by simp, by simpa using h⟩
  have hends := FrameSender.enqueue_counts (s := t.sender) (f := f)
  rcases hrun : FrameSender.enqueue f t.sender with ⟨_ | u, sender⟩
  · have hsender : sender = t.sender := hends.run_error hrun
    subst hsender
    exact ⟨[], by simp [Except.isOk, Except.toBool], by simpa [Except.isOk, Except.toBool] using h⟩
  · obtain ⟨hworks, rfl⟩ := hends.run_ok hrun
    have hlen : t.written.length ≤ (flat fs).length := h.written.length_le
    refine ⟨[f], by simp [Except.isOk, Except.toBool], ?_, fun _ => ?_, ?_, ?_, ?_⟩
    · rw [flat_append]
      exact h.written.trans (List.prefix_append _ _)
    · show t.sender.queue ++ [f.fresh] = remaining (fs ++ [f]) t.written.length
      rw [remaining_append f hlen, h.queue hworks]
    · show t.sender.queuedBytes + f.bytes.length = ((t.sender.queue ++ [f.fresh]).map _).sum
      rw [List.map_append, List.sum_append, ← h.bytes]
      simp [SendFrame.unsent, OutboundFrame.fresh]
    · show t.sender.queuedFds + f.fds.length = ((t.sender.queue ++ [f.fresh]).flatMap _).length
      rw [List.flatMap_append, List.length_append, ← h.fds]
      simp [OutboundFrame.fresh]
    · intro hfailed
      exact absurd hfailed (by simp [hworks])

lemma Follows.flush (h : Follows fs t) : Follows fs t.flush := by
  unfold Traffic.flush
  split_ifs with hno
  · exact h
  · refine ⟨h.written, h.queue, h.bytes, h.fds, ?_⟩
    intro hfailed
    exact absurd (Or.inr hfailed) hno

lemma Follows.works (h : Follows fs t) (hflushing : t.flushing = true) : t.sender.failed = false := by
  cases hfailed : t.sender.failed with
  | false => rfl
  | true => exact absurd hflushing (by simp [(h.failed hfailed).2])

lemma turn_idle (h : t.flushing = false) (result : Except IoError ℕ) : t.turn result = t :=
  if_neg (by simp [h])

lemma turn_nil (h : t.flushing = true) (hqueue : t.sender.queue = []) (result : Except IoError ℕ) :
    t.turn result = { t with flushing := false } := by
  unfold turn
  rw [if_pos h, hqueue]

lemma turn_cons (h : t.flushing = true) {q : SendFrame} {rest : List SendFrame}
    (hqueue : t.sender.queue = q :: rest) (result : Except IoError ℕ) :
    t.turn result = t.send q rest result := by
  unfold turn
  rw [if_pos h, hqueue]

lemma Follows.turn (h : Follows fs t) (result : Except IoError ℕ) : Follows fs (t.turn result) := by
  cases hflushing : t.flushing with
  | false => rwa [turn_idle hflushing]
  | true =>
    cases hqueue : t.sender.queue with
    | nil =>
      rw [turn_nil hflushing hqueue]
      exact ⟨h.written, h.queue, h.bytes, h.fds, fun _ => ⟨hqueue, rfl⟩⟩
    | cons q rest =>
      rw [turn_cons hflushing hqueue]
      exact h.send (h.works hflushing) hqueue result

lemma flush_accepted (t : Traffic) : t.flush.accepted = t.accepted := by
  unfold flush
  split_ifs <;> rfl

lemma turn_accepted (t : Traffic) (result : Except IoError ℕ) :
    (t.turn result).accepted = t.accepted := by
  unfold turn
  split_ifs
  · cases t.sender.queue <;> rfl
  · rfl

/-- **One act.** It keeps to the frames, with the frame that it may have accepted behind. -/
theorem Follows.step (h : Follows fs t) (a : Act) :
    ∃ new, (t.step a).accepted = t.accepted ++ new ∧ Follows (fs ++ new) (t.step a) := by
  cases a with
  | enqueue f => exact h.enqueue f
  | flush =>
    refine ⟨[], ?_, ?_⟩ <;> rw [List.append_nil]
    · exact t.flush_accepted
    · exact h.flush
  | turn result =>
    refine ⟨[], ?_, ?_⟩ <;> rw [List.append_nil]
    · exact t.turn_accepted result
    · exact h.turn result

/-! ### Runs without `clear` -/

/-- Every send was given what was due. -/
def Due (t : Traffic) : Prop :=
  ∀ before c behind, t.calls = before ++ c :: behind →
    due t.accepted (before.flatMap SendCall.sent).length = some (c.bytes, c.fds)

/-- The sender after a run of enqueues and flushes. -/
structure Accounts (t : Traffic) : Prop where
  /-- The counters are what the queue comes to. -/
  bytes : t.sender.queuedBytes = (t.sender.queue.map SendFrame.unsent).sum
  fds : t.sender.queuedFds = (t.sender.queue.flatMap (·.fds)).length
  /-- The queue is what did not go of the frames that were accepted. -/
  unsent : t.sender.failed = false →
    t.sender.queuedBytes + t.written.length = (flat t.accepted).length
  unattached : t.sender.failed = false →
    t.sender.queuedFds = (unattached t.accepted t.written.length).length
  /-- What a turn subtracts is there. -/
  fits : ∀ q rest, t.sender.queue = q :: rest →
    q.offset ≤ q.bytes.length ∧ q.offered.1.length ≤ t.sender.queuedBytes ∧
      q.fds.length ≤ t.sender.queuedFds
  due : t.Due
  /-- A frame that is refused changes nothing. -/
  refused : ∀ f e s, FrameSender.enqueue f t.sender = (.error e, s) → s = t.sender
  /-- A flush that fails empties the sender for good. -/
  fails : ∀ q rest result e s, FrameSender.settle q rest q.includeFds result t.sender = (.error e, s) →
    s.failed = true
  failed : t.sender.failed = true → t.sender.queue = [] ∧ t.sender.queuedBytes = 0 ∧
    t.sender.queuedFds = 0 ∧ (∀ f, FrameSender.enqueue f t.sender = (.error .poisoned, t.sender)) ∧
    (∀ answers socket, Sending.flush answers ⟨t.sender, socket⟩ =
      (.error .poisoned, ⟨t.sender, socket⟩)) ∧ ∀ acts, after step acts t = t

lemma due_start (limits : FrameLimits) : (start limits).Due := by
  intro before c behind h
  simp [start] at h

lemma Due.grow (h : t.Due) {t' : Traffic} (new : List OutboundFrame) (calls : List SendCall)
    (haccepted : t'.accepted = t.accepted ++ new) (hcalls : t'.calls = t.calls ++ calls)
    (hnew : calls = [] ∨ ∃ c, calls = [c] ∧ due t.accepted t.written.length = some (c.bytes, c.fds)) :
    t'.Due := by
  intro before c behind heq
  rw [haccepted]
  refine due_append ?_
  rw [hcalls] at heq
  rcases hnew with rfl | ⟨d, rfl, hd⟩
  · exact h before c behind (by simpa using heq)
  · rcases List.eq_nil_or_concat behind with rfl | ⟨behind, last, rfl⟩
    · obtain ⟨rfl, hlast⟩ := List.append_inj' heq rfl
      cases hlast
      exact hd
    · have heq' : t.calls ++ [d] = (before ++ c :: behind) ++ [last] := by simpa using heq
      exact h before c behind (List.append_inj' heq' rfl).1

lemma Due.turn (h : t.Due) (hfollows : Follows t.accepted t) (result : Except IoError ℕ) :
    (t.turn result).Due := by
  cases hflushing : t.flushing with
  | false => rwa [turn_idle hflushing]
  | true =>
    cases hqueue : t.sender.queue with
    | nil =>
      rw [turn_nil hflushing hqueue]
      exact h
    | cons q rest =>
      have hleft : remaining t.accepted t.written.length = q :: rest := by
        rw [← hfollows.queue (hfollows.works hflushing), hqueue]
      rw [turn_cons hflushing hqueue]
      exact h.grow [] _ (by simp [send]) rfl (.inr ⟨_, rfl, due_of_remaining hleft⟩)

lemma Due.step (h : t.Due) (hfollows : Follows t.accepted t) (a : Act) : (t.step a).Due := by
  cases a with
  | enqueue f =>
    obtain ⟨new, haccepted, -⟩ := hfollows.enqueue f
    refine h.grow new [] haccepted ?_ (.inl rfl)
    unfold Traffic.step Traffic.enqueue
    split_ifs <;> simp
  | flush =>
    refine h.grow [] [] ?_ ?_ (.inl rfl)
    · rw [List.append_nil]
      exact t.flush_accepted
    · unfold Traffic.step Traffic.flush
      split_ifs <;> simp
  | turn result => exact h.turn hfollows result

lemma step_failed (h : t.sender.failed = true) (hflushing : t.flushing = false) (a : Act) :
    t.step a = t := by
  cases a with
  | enqueue f =>
    show t.enqueue f = t
    unfold enqueue
    rw [if_neg (by simp [hflushing]), FrameSender.enqueue_failed h]
    rfl
  | flush => exact if_pos (.inr h)
  | turn result => exact turn_idle hflushing result

/-- **The counters of a sender.** After every run of enqueues and flushes, whatever the kernel
answers. -/
theorem after_accounts (limits : FrameLimits) (acts : List Act) :
    Accounts (after step acts (start limits)) := by
  have hinv : ∀ t a, Follows t.accepted t ∧ t.Due →
      Follows (t.step a).accepted (t.step a) ∧ (t.step a).Due := by
    rintro t a ⟨hfollows, hdue⟩
    obtain ⟨new, haccepted, hstep⟩ := hfollows.step a
    exact ⟨haccepted ▸ hstep, hdue.step hfollows a⟩
  obtain ⟨h, hdue⟩ := after_keeps hinv acts ⟨follows_start limits, due_start limits⟩
  generalize after step acts (start limits) = t at h hdue
  refine ⟨h.bytes, h.fds, ?_, ?_, ?_, hdue, ?_, ?_, ?_⟩
  · intro hworks
    rw [h.bytes, h.queue hworks]
    exact remaining_unsent h.written.length_le
  · intro hworks
    rw [h.fds, h.queue hworks, remaining_fds]
  · intro q rest hqueue
    have hq := (h.sound (q := q) (by simp [hqueue])).1
    have hcounted := h.counted hqueue
    refine ⟨Nat.le_of_lt hq, ?_, hcounted.2⟩
    simpa [SendFrame.offered, SendFrame.unsent] using hcounted.1
  · intro f e s hrun
    exact FrameSender.enqueue_counts.run_error hrun
  · intro q rest result e s hrun
    obtain ⟨o, e', -, hrun'⟩ | ⟨e', -, hrun'⟩ | ⟨n, -, -, hrun'⟩ :=
      FrameSender.settle_cases q rest q.includeFds result t.sender <;> rw [hrun] at hrun' <;>
      cases hrun'
    rfl
  · intro hfailed
    obtain ⟨hqueue, hflushing⟩ := h.failed hfailed
    have hbytes := h.bytes
    have hfds := h.fds
    rw [hqueue] at hbytes hfds
    refine ⟨hqueue, hbytes, hfds, fun f => FrameSender.enqueue_failed hfailed,
      fun _ _ => failIf_bind_of hfailed, ?_⟩
    intro acts
    have hstay : ∀ s a, s = t → s.step a = t := by
      rintro s a rfl
      exact step_failed hfailed hflushing a
    exact after_keeps (I := (· = t)) hstay acts rfl

/-! ### Runs with `clear` -/

/-- No frame is cleared of which some bytes went. -/
def Whole (t : Traffic) : Move → Prop
  | .act _ => True
  | .clear => ∀ q ∈ t.sender.queue.head?, q.offset = 0

instance (t : Traffic) : DecidablePred t.Whole
  | .act _ => inferInstanceAs (Decidable True)
  | .clear => inferInstanceAs (Decidable (∀ q ∈ t.sender.queue.head?, q.offset = 0))

/-- The bytes that went are the first ones of some of the accepted frames, in their order. -/
def InFrames (t : Traffic) : Prop :=
  ∃ frames, frames.Sublist t.accepted ∧ t.written <+: flat frames

lemma whole_of_remaining {fs : List OutboundFrame} {n : ℕ} (hn : n ≤ (flat fs).length)
    (h : ∀ q ∈ (remaining fs n).head?, q.offset = 0) :
    ∃ done, done <+: fs ∧ (flat fs).take n = flat done := by
  induction fs generalizing n with
  | nil => exact ⟨[], List.prefix_refl _, by simp [flat]⟩
  | cons f fs ih =>
    unfold remaining at h
    split_ifs at h with hlt
    · have hzero : n = 0 := h (f.partly n) (by simp)
      exact ⟨[], List.nil_prefix, by simp [hzero, flat]⟩
    · rw [flat_cons, List.length_append] at hn
      obtain ⟨done, hdone, htake⟩ := ih (by omega) h
      refine ⟨f :: done, List.cons_prefix_cons.2 ⟨rfl, hdone⟩, ?_⟩
      rw [flat_cons, flat_cons, List.take_append, htake, List.take_of_length_le (by omega)]

lemma Follows.clear (h : Follows fs t) (hflushing : t.flushing = false)
    (hwhole : ∀ q ∈ t.sender.queue.head?, q.offset = 0) :
    ∃ fs', fs'.Sublist fs ∧ Follows fs' { t with sender := t.sender.clear } := by
  cases hfailed : t.sender.failed with
  | true =>
    exact ⟨fs, List.Sublist.refl _, h.written, fun hworks => absurd hworks (by simp [FrameSender.clear, hfailed]),
      rfl, rfl, fun _ => ⟨rfl, hflushing⟩⟩
  | false =>
    rw [h.queue hfailed] at hwhole
    obtain ⟨done, hdone, htake⟩ := whole_of_remaining h.written.length_le hwhole
    have hwritten : t.written = flat done := by rw [← htake, ← List.prefix_iff_eq_take.1 h.written]
    refine ⟨done, hdone.sublist, hwritten ▸ List.prefix_refl _, fun _ => ?_, rfl, rfl, ?_⟩
    · show [] = remaining done t.written.length
      rw [hwritten]
      have hnone := remaining_unsent (Nat.le_refl (flat done).length)
      cases hleft : remaining done (flat done).length with
      | nil => rfl
      | cons q rest =>
        have hmem : q ∈ remaining done (flat done).length := by simp [hleft]
        have hq := (remaining_sound hmem).1
        rw [hleft, List.map_cons, List.sum_cons] at hnone
        unfold SendFrame.unsent at hnone
        omega
    · intro hno
      exact absurd (hfailed.symm.trans hno) (by simp)

lemma Follows.move {m : Move} (h : Follows fs t) (hsub : fs.Sublist t.accepted) (hm : t.Whole m) :
    ∃ fs', fs'.Sublist (t.move m).accepted ∧ Follows fs' (t.move m) := by
  cases m with
  | act a =>
    obtain ⟨new, haccepted, hstep⟩ := h.step a
    refine ⟨fs ++ new, ?_, hstep⟩
    show (fs ++ new).Sublist (t.step a).accepted
    rw [haccepted]
    exact hsub.append_right new
  | clear =>
    show ∃ fs', fs'.Sublist t.clear.accepted ∧ Follows fs' t.clear
    unfold Traffic.clear
    split_ifs with hflushing
    · exact ⟨fs, hsub, h⟩
    · obtain ⟨fs', hfs', hclear⟩ := h.clear (by simpa using hflushing) hm
      exact ⟨fs', hfs'.trans hsub, hclear⟩

/-- **What a peer sees.** In a run of enqueues, flushes and clears that clears no frame of which
some bytes went, the bytes that went are at every moment the first ones of whole frames. -/
theorem inFrames_of_whole (limits : FrameLimits) (moves : List Move)
    (h : Admits move Whole moves (start limits)) : (after move moves (start limits)).InFrames := by
  have hinv : ∀ (t : Traffic) m, t.Whole m →
      (∃ fs, fs.Sublist t.accepted ∧ Follows fs t) →
      ∃ fs, fs.Sublist (t.move m).accepted ∧ Follows fs (t.move m) := by
    rintro t m hm ⟨fs, hsub, hfs⟩
    exact hfs.move hsub hm
  obtain ⟨fs, hsub, hfs⟩ := h.keeps hinv ⟨[], List.Sublist.refl _, follows_start limits⟩
  exact ⟨fs, hsub, hfs.written⟩

def bare (objectId : UInt32) : OutboundFrame where
  header := ⟨objectId, 0, 0, 0, 0⟩
  bytes := Header.bytes ⟨objectId, 0, 0, 0, 0⟩
  fds := []
  made := ⟨[], by decide, rfl, rfl, by simp⟩

theorem inFrames_cleared_between :
    (after move [.act (.enqueue (bare 1)), .act .flush, .act (.turn (.ok 1)), .act (.turn (.ok 15)),
      .act (.turn (.ok 1)), .act (.enqueue (bare 2)), .clear, .act (.enqueue (bare 3)), .act .flush,
      .act (.turn (.ok 7))] (start .standard)).InFrames :=
  inFrames_of_whole .standard _ (by decide +kernel)

/-- A frame of which one byte went is cleared, and another one follows. -/
theorem not_inFrames_cleared_within :
    ¬ (after move [.act (.enqueue (bare 1)), .act .flush, .act (.turn (.ok 1)),
      .act (.turn (.error .wouldBlock)), .clear, .act (.enqueue (bare 2)), .act .flush,
      .act (.turn (.ok 16))] (start .standard)).InFrames := by
  rintro ⟨frames, hsub, hpre⟩
  have hnone : ∀ fs ∈ [bare 1, bare 2].sublists, ¬ 1 :: (bare 2).bytes <+: flat fs := by
    decide +kernel
  exact hnone frames (List.mem_sublists.2 hsub) hpre

/-! ### The sender on a socket -/

/-- The sender of the one is the sender of the other, and the bytes that went are in flight. -/
structure Mirrors (t : Traffic) (s : Sending) : Prop where
  sender : t.sender = s.sender
  written : t.written = s.socket.stream.map (·.1)

end Traffic

namespace Sending

/-- What `send_once` returns for the front frame. -/
def sendResult (s : Sending) (answer : SendAnswer) : Except IoError ℕ :=
  match s.sender.queue with
  | [] => .ok 0
  | frame :: _ => (Socket.sendmsg frame.offered.1 (sendControl frame.offered.2) answer s.socket).1

/-- The turns of a flush: what `send_once` returns in each of them. -/
def flushResults : List SendAnswer → Sending → List (Except IoError ℕ)
  | [], s => [s.sendResult .again]
  | answer :: answers, s => s.sendResult answer ::
    match flushTurn answer s with
    | (.ok none, s') => flushResults answers s'
    | _ => []

def flushActs (answers : List SendAnswer) (s : Sending) : List Traffic.Act :=
  .flush :: if s.sender.failed then [] else (flushResults answers s).map .turn

end Sending

namespace Traffic

/-- The bytes that went are in flight, and no more went than there were. -/
lemma sendmsg_result (bytes control : List UInt8) (answer : SendAnswer) (socket : Socket) :
    let r := Socket.sendmsg bytes control answer socket
    r.1.map (min · bytes.length) = r.1 ∧
      (answer = .again → ∃ e, r.1 = .error e ∧ e ≠ .interrupted) ∧
      ∀ fds, r.2.stream.map (·.1) = socket.stream.map (·.1) ++ SendCall.sent ⟨bytes, fds, r.1⟩ := by
  have hrefused : ∀ e : IoError, (answer = .again → e ≠ .interrupted) →
      (.error e : Except IoError ℕ).map (min · bytes.length) = .error e ∧
      (answer = .again → ∃ e', (.error e : Except IoError ℕ) = .error e' ∧ e' ≠ .interrupted) ∧
      ∀ fds, socket.stream.map (·.1) = socket.stream.map (·.1) ++
        SendCall.sent ⟨bytes, fds, .error e⟩ := fun e he =>
    ⟨rfl, fun ha => ⟨e, rfl, he ha⟩, fun _ => (List.append_nil _).symm⟩
  unfold Socket.sendmsg
  cases parseControl control 0 with
  | error e => exact hrefused _ (by simp)
  | ok fds =>
    by_cases hmany : scmMaxFd < fds.length
    · dsimp only
      rw [failIf_bind_of hmany]
      exact hrefused _ (by simp)
    · dsimp only
      rw [failIf_bind hmany]
      cases answer with
      | interrupted | again | refused errno => exact hrefused _ (by simp)
      | accepted count =>
        refine ⟨congrArg Except.ok (min_eq_left (min_le_right _ _)), fun h => (nomatch h),
          fun fds' => ?_⟩
        show (socket.stream ++ load (bytes.take count) fds).map (·.1) =
          socket.stream.map (·.1) ++ bytes.take (min count bytes.length)
        simp [← List.take_eq_take_min]

/-- A turn of a flush on a socket: a send for the front frame, and what becomes of it. -/
lemma flushTurn_settle {s : Sending} {q : SendFrame} {rest : List SendFrame} {answer : SendAnswer}
    {r : Except IoError ℕ} {socket : Socket} (hqueue : s.sender.queue = q :: rest)
    (hsend : Socket.sendmsg q.offered.1 (sendControl q.offered.2) answer s.socket = (r, socket)) :
    Sending.flushTurn answer s = ((FrameSender.settle q rest q.includeFds r s.sender).1,
      ⟨(FrameSender.settle q rest q.includeFds r s.sender).2, socket⟩) := by
  have hattempt : (Sending.sendOnce q.offered.1 q.offered.2 answer).attempt s =
      ((.ok r : Except FrameError (Except IoError ℕ)), { s with socket }) := by
    unfold attempt Sending.sendOnce zoom
    rw [hsend]
  unfold Sending.flushTurn
  rw [get_bind, hqueue]
  refine (bind_ok hattempt).trans ?_
  cases r with
  | error e => cases e <;> rfl
  | ok n =>
    unfold FrameSender.settle
    by_cases hzero : n = 0
    · subst hzero
      rfl
    · simp only [hzero, if_false]
      rfl

/-- One turn of the machine for one of the flush, which is over when there is no room. -/
lemma Mirrors.turn {t : Traffic} {s : Sending} (h : Mirrors t s) (hflushing : t.flushing = true)
    (answer : SendAnswer) :
    Mirrors (t.turn (s.sendResult answer)) (Sending.flushTurn answer s).2 ∧
      (t.turn (s.sendResult answer)).flushing =
        (settled (Sending.flushTurn answer s).1).isNone ∧
      t.out (.turn (s.sendResult answer)) = settled (Sending.flushTurn answer s).1 ∧
      (answer = .again → (Sending.flushTurn answer s).1 ≠ .ok none) := by
  cases hqueue : s.sender.queue with
  | nil =>
    have hturn : Sending.flushTurn answer s = (.ok (some .drained), s) := by
      unfold Sending.flushTurn
      rw [get_bind, hqueue]
      rfl
    rw [hturn, turn_nil hflushing (h.sender ▸ hqueue), out, if_pos hflushing, h.sender, hqueue]
    exact ⟨⟨rfl, h.written⟩, rfl, rfl, fun _ h => nomatch h⟩
  | cons q rest =>
    obtain ⟨hmin, hagain, hsocket⟩ :=
      sendmsg_result q.offered.1 (sendControl q.offered.2) answer s.socket
    rcases hsend : Socket.sendmsg q.offered.1 (sendControl q.offered.2) answer s.socket with
      ⟨r, socket⟩
    have hresult : s.sendResult answer = r := by
      rw [Sending.sendResult, hqueue]
      exact congrArg Prod.fst hsend
    rw [hsend] at hmin hagain hsocket
    rw [flushTurn_settle hqueue hsend, turn_cons hflushing (h.sender ▸ hqueue), out,
      if_pos hflushing, h.sender, hqueue, send, hresult, hmin, ← h.sender]
    refine ⟨⟨rfl, ?_⟩, rfl, congrArg (fun r => settled (FrameSender.settle q rest q.includeFds r
      t.sender).1) hmin, fun ha hnone => ?_⟩
    · simp only [Traffic.written, List.flatMap_append, List.flatMap_singleton]
      exact (congrArg (· ++ _) h.written).trans (hsocket q.offered.2).symm
    · obtain ⟨e, rfl, he⟩ := hagain ha
      cases e <;> first | exact he rfl | cases hnone

lemma Mirrors.flushLoop {t : Traffic} {s : Sending} (h : Mirrors t s) (hflushing : t.flushing = true)
    (answers : List SendAnswer) :
    let acts := (Sending.flushResults answers s).map Act.turn
    Mirrors (after step acts t) (Sending.flushLoop answers s).2 ∧
      (after step acts t).flushing = false ∧
      outcome out step acts t = some (Sending.flushLoop answers s).1 := by
  induction answers generalizing t s with
  | nil =>
    obtain ⟨hturn, hgoes, hout, hover⟩ := h.turn hflushing .again
    unfold Sending.flushLoop Sending.flushResults
    rcases hrun : Sending.flushTurn .again s with ⟨_ | _ | o, s'⟩ <;> rw [hrun] at hturn hgoes hout
    · rw [bind_error hrun]
      exact ⟨hturn, hgoes, by simp [outcome, hout, settled]⟩
    · rw [hrun] at hover
      exact absurd rfl (hover rfl)
    · rw [bind_ok hrun]
      exact ⟨hturn, hgoes, by simp [outcome, hout, settled]; rfl⟩
  | cons answer answers ih =>
    obtain ⟨hturn, hgoes, hout, -⟩ := h.turn hflushing answer
    unfold Sending.flushLoop Sending.flushResults
    rcases hrun : Sending.flushTurn answer s with ⟨_ | _ | o, s'⟩ <;> rw [hrun] at hturn hgoes hout
    · rw [bind_error hrun]
      exact ⟨hturn, hgoes, by simp [outcome, hout, settled]⟩
    · obtain ⟨hmirrors, hidle, hend⟩ := ih hturn hgoes
      rw [bind_ok hrun]
      refine ⟨hmirrors, hidle, ?_⟩
      simp only [List.map_cons, outcome, hout, settled, Option.none_or]
      exact hend
    · rw [bind_ok hrun]
      exact ⟨hturn, hgoes, by simp [outcome, hout, settled]; rfl⟩

/-- **A flush on a socket** is a run of the machine with what the calls of `send_once` return. The
outcome is that of the run, and the bytes that went are in flight. -/
theorem Mirrors.flush_runs {t : Traffic} {s : Sending} (h : Mirrors t s) (hidle : t.flushing = false)
    (answers : List SendAnswer) :
    let acts := s.flushActs answers
    Mirrors (after step acts t) (Sending.flush answers s).2 ∧
      (after step acts t).flushing = false ∧
      outcome out step acts t = some (Sending.flush answers s).1 := by
  unfold Sending.flush Sending.flushActs
  rw [get_bind]
  by_cases hfailed : s.sender.failed = true
  · have hflush : after step [.flush] t = t := if_pos (.inr (h.sender ▸ hfailed))
    rw [failIf_bind_of hfailed, if_pos hfailed]
    dsimp only
    rw [hflush]
    refine ⟨h, hidle, ?_⟩
    rw [outcome, out, h.sender, if_pos hfailed]
    rfl
  · rw [failIf_bind hfailed, if_neg hfailed]
    have hstart : t.step .flush = { t with flushing := true } := by
      refine if_neg ?_
      rw [h.sender]
      simp [hidle, hfailed]
    have hmirrors : Mirrors (t.step .flush) s := by
      rw [hstart]
      exact ⟨h.sender, h.written⟩
    obtain ⟨hends, hover, hout⟩ := hmirrors.flushLoop (by rw [hstart]) answers
    refine ⟨hends, hover, ?_⟩
    rw [outcome, out, h.sender, if_neg hfailed]
    exact hout

/-- One byte of a frame goes, and then there is no room. -/
theorem Mirrors.flush_runs_partial :
    let t := (start .standard).enqueue (bare 1)
    let s : Sending := ⟨t.sender, ⟨[], false⟩⟩
    let acts := s.flushActs [.accepted 1, .again]
    Mirrors (after step acts t) (Sending.flush [.accepted 1, .again] s).2 ∧
      (after step acts t).flushing = false ∧
      outcome out step acts t = some (Sending.flush [.accepted 1, .again] s).1 :=
  Mirrors.flush_runs ⟨rfl, rfl⟩ rfl [.accepted 1, .again]

end Traffic

end PipewireNative.Frame
