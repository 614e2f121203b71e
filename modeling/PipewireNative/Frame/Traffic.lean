import PipewireNative.Lib.Run
import PipewireNative.Frame.Flush

/-!
The sender call by call: frames are enqueued, the queue is flushed turn by turn against whatever
the kernel answers, and it is cleared. What the sender holds is at every moment determined by the
frames it has accepted and by the number of bytes that went; so are its counters, and what the
next call of `send_once` is given.
-/

namespace PipewireNative.Frame

open Lib Prog

/-- A call of `send_once`: what it was given, and what came back. -/
structure SendCall where
  bytes : List UInt8
  fds : Option (List OwnedFd)
  result : Except IoError ℕ

def SendCall.sent (c : SendCall) : List UInt8 :=
  match c.result with
  | .ok n => c.bytes.take n
  | .error _ => []

namespace FrameSender

/-- `FrameSender::fail`. -/
def fail {α : Type} (e : FrameError) : Prog FrameSender FrameError α := do
  .modify fun s => { s.clear with failed := true }
  .fail e

/-- What flushing makes of the result of a send for the front frame; there is an outcome when
flushing is over. -/
def settle (frame : SendFrame) (rest : List SendFrame) (includeFds : Bool)
    (result : Except IoError ℕ) : Prog FrameSender FrameError (Option FlushOutcome) :=
  match result with
  | .error .interrupted => pure none
  | .error .wouldBlock => pure (some .wouldBlock)
  | .error e => fail (.io e)
  | .ok sent =>
    if sent = 0 then fail .writeZero
    else do
      .modify fun s => s.advance frame rest includeFds sent
      pure none

end FrameSender

namespace SendFrame

variable (q : SendFrame)

def includeFds : Bool := !q.ancillarySent && !q.fds.isEmpty

/-- What `send_once` is given for a frame. -/
def offered : List UInt8 × Option (List OwnedFd) :=
  (q.bytes.drop q.offset, if q.includeFds then some q.fds else none)

def unsent : ℕ := q.bytes.length - q.offset

/-- A frame when so many more of its bytes went. -/
def moved (sent : ℕ) : SendFrame :=
  { q with
    offset := q.offset + sent
    fds := if q.includeFds then [] else q.fds
    ancillarySent := q.ancillarySent || q.includeFds }

end SendFrame

/-- A sender, whether it is flushing, the frames it has accepted and the sends it has made. -/
structure Traffic where
  sender : FrameSender
  flushing : Bool
  accepted : List OutboundFrame
  calls : List SendCall

namespace Traffic

/-- What happens to a sender. A `turn` is one call of `send_once` of a flush that is going on, and
what becomes of it. -/
inductive Act where
  | enqueue (frame : OutboundFrame)
  | flush
  | turn (result : Except IoError ℕ)

def start (limits : FrameLimits) : Traffic := ⟨.new limits, false, [], []⟩

variable (t : Traffic)

def written : List UInt8 := t.calls.flatMap SendCall.sent

/-- A send for the front frame. It returns at most the number of bytes it was offered. -/
def send (frame : SendFrame) (rest : List SendFrame) (result : Except IoError ℕ) : Traffic :=
  let result := result.map (min · frame.offered.1.length)
  let r := FrameSender.settle frame rest frame.includeFds result t.sender
  { t with
    sender := r.2
    flushing := (settled r.1).isNone
    calls := t.calls ++ [⟨frame.offered.1, frame.offered.2, result⟩] }

/-- A flush has the sender to itself until it is over. -/
def enqueue (frame : OutboundFrame) : Traffic :=
  if t.flushing then t
  else
    let r := FrameSender.enqueue frame t.sender
    { t with sender := r.2, accepted := if r.1.isOk then t.accepted ++ [frame] else t.accepted }

def flush : Traffic :=
  if t.flushing ∨ t.sender.failed then t else { t with flushing := true }

def turn (result : Except IoError ℕ) : Traffic :=
  if t.flushing then
    match t.sender.queue with
    | [] => { t with flushing := false }
    | frame :: rest => t.send frame rest result
  else t

def clear : Traffic := if t.flushing then t else { t with sender := t.sender.clear }

def step : Act → Traffic
  | .enqueue frame => t.enqueue frame
  | .flush => t.flush
  | .turn result => t.turn result

/-- What an act comes to, if it ends a call of `flush`. -/
def out : Act → Option (Except FrameError FlushOutcome)
  | .enqueue _ => none
  | .flush => if t.sender.failed then some (.error .poisoned) else none
  | .turn result =>
    if t.flushing then
      match t.sender.queue with
      | [] => some (.ok .drained)
      | frame :: rest => settled (FrameSender.settle frame rest frame.includeFds
          (result.map (min · frame.offered.1.length)) t.sender).1
    else none

/-- The acts and `clear`. -/
inductive Move where
  | act (a : Act)
  | clear

def move : Move → Traffic
  | .act a => t.step a
  | .clear => t.clear

end Traffic

/-! ### Where the stream is -/

def OutboundFrame.fresh (f : OutboundFrame) : SendFrame := ⟨f.bytes, 0, f.fds, false⟩

/-- A frame of which some bytes went: the descriptors went with the first of them. -/
def OutboundFrame.partly (f : OutboundFrame) (n : ℕ) : SendFrame :=
  ⟨f.bytes, n, if n = 0 then f.fds else [], decide (0 < n) && !f.fds.isEmpty⟩

/-- What is left of some frames after so many of their bytes went. -/
def remaining : List OutboundFrame → ℕ → List SendFrame
  | [], _ => []
  | f :: fs, n =>
    if n < f.bytes.length then f.partly n :: fs.map OutboundFrame.fresh
    else remaining fs (n - f.bytes.length)

/-- What is to be sent next of a frame of which some bytes went: the other ones, with the
descriptors as long as nothing went. -/
def OutboundFrame.due (f : OutboundFrame) (n : ℕ) : List UInt8 × Option (List OwnedFd) :=
  (f.bytes.drop n, if n = 0 ∧ f.fds ≠ [] then some f.fds else none)

/-- What is to be sent next of some frames after so many of their bytes went. -/
def due : List OutboundFrame → ℕ → Option (List UInt8 × Option (List OwnedFd))
  | [], _ => none
  | f :: fs, n => if n < f.bytes.length then some (f.due n) else due fs (n - f.bytes.length)

/-- The descriptors of the frames of which nothing went. -/
def unattached : List OutboundFrame → ℕ → List OwnedFd
  | [], _ => []
  | f :: fs, n =>
    if n = 0 then f.fds ++ unattached fs 0 else unattached fs (n - f.bytes.length)

/-- The bytes of some frames. -/
def flat (fs : List OutboundFrame) : List UInt8 := fs.flatMap (·.bytes)

section Remaining

variable {f : OutboundFrame} {fs : List OutboundFrame} {n : ℕ} {q : SendFrame}
  {rest : List SendFrame}

lemma OutboundFrame.length_pos (f : OutboundFrame) : 0 < f.bytes.length := by
  obtain ⟨payload, -, -, -, hbytes⟩ := f.made
  rw [hbytes, List.length_append, Header.bytes_length]
  unfold headerLen
  omega

@[simp] lemma OutboundFrame.partly_bytes (f : OutboundFrame) (n : ℕ) : (f.partly n).bytes = f.bytes :=
  rfl

@[simp] lemma OutboundFrame.partly_offset (f : OutboundFrame) (n : ℕ) : (f.partly n).offset = n := rfl

lemma OutboundFrame.partly_offered (f : OutboundFrame) (n : ℕ) : (f.partly n).offered = f.due n := by
  by_cases hzero : n = 0
  · by_cases hfds : f.fds = [] <;>
      simp [SendFrame.offered, SendFrame.includeFds, partly, due, hzero, hfds]
  · simp [SendFrame.offered, SendFrame.includeFds, partly, due, hzero]

@[simp] lemma flat_cons : flat (f :: fs) = f.bytes ++ flat fs := rfl

lemma flat_append (fs gs : List OutboundFrame) : flat (fs ++ gs) = flat fs ++ flat gs :=
  List.flatMap_append

lemma remaining_zero (fs : List OutboundFrame) : remaining fs 0 = fs.map OutboundFrame.fresh := by
  cases fs with
  | nil => rfl
  | cons f fs =>
    simp [remaining, f.length_pos, OutboundFrame.fresh, OutboundFrame.partly]

lemma due_of_remaining (h : remaining fs n = q :: rest) : due fs n = some q.offered := by
  induction fs generalizing n with
  | nil => cases h
  | cons f fs ih =>
    unfold remaining at h
    unfold due
    split_ifs at h ⊢ with hn
    · cases h
      rw [f.partly_offered]
    · exact ih h

lemma due_append {gs : List OutboundFrame} {d : List UInt8 × Option (List OwnedFd)}
    (h : due fs n = some d) : due (fs ++ gs) n = some d := by
  induction fs generalizing n with
  | nil => cases h
  | cons f fs ih =>
    rw [List.cons_append]
    unfold due at h ⊢
    split_ifs at h ⊢ with hn
    · exact h
    · exact ih h

lemma remaining_sound (h : q ∈ remaining fs n) :
    q.offset < q.bytes.length ∧ (q.ancillarySent = true → q.fds = []) := by
  have hfresh : ∀ gs : List OutboundFrame, q ∈ gs.map OutboundFrame.fresh →
      q.offset < q.bytes.length ∧ (q.ancillarySent = true → q.fds = []) := by
    intro gs hq
    obtain ⟨g, -, rfl⟩ := List.mem_map.1 hq
    exact ⟨g.length_pos, by simp [OutboundFrame.fresh]⟩
  induction fs generalizing n with
  | nil => cases h
  | cons f fs ih =>
    unfold remaining at h
    split_ifs at h with hn
    · rcases List.mem_cons.1 h with rfl | h
      · refine ⟨hn, ?_⟩
        intro hsent
        have hpos : 0 < n := by
          simp only [OutboundFrame.partly, Bool.and_eq_true, decide_eq_true_eq] at hsent
          exact hsent.1
        exact if_neg (Nat.ne_of_gt hpos)
      · exact hfresh fs h
    · exact ih h

lemma remaining_unsent (h : n ≤ (flat fs).length) :
    ((remaining fs n).map SendFrame.unsent).sum + n = (flat fs).length := by
  have hfresh : ∀ gs : List OutboundFrame,
      ((gs.map OutboundFrame.fresh).map SendFrame.unsent).sum = (flat gs).length := by
    intro gs
    induction gs with
    | nil => rfl
    | cons g gs ih =>
      rw [flat_cons, List.length_append, ← ih]
      simp [SendFrame.unsent, OutboundFrame.fresh]
  induction fs generalizing n with
  | nil =>
    have hzero : n = 0 := Nat.le_zero.1 h
    simp [hzero, remaining, flat]
  | cons f fs ih =>
    rw [flat_cons, List.length_append] at h ⊢
    unfold remaining
    split_ifs with hn
    · rw [List.map_cons, List.sum_cons, hfresh]
      show f.bytes.length - n + (flat fs).length + n = f.bytes.length + (flat fs).length
      omega
    · have hrest := ih (n := n - f.bytes.length) (by omega)
      omega

lemma remaining_fds : (remaining fs n).flatMap (·.fds) = unattached fs n := by
  have hfresh : ∀ gs : List OutboundFrame,
      (gs.map OutboundFrame.fresh).flatMap (·.fds) = unattached gs 0 := by
    intro gs
    induction gs with
    | nil => rfl
    | cons g gs ih =>
      rw [List.map_cons, List.flatMap_cons, ih, unattached, if_pos rfl]
      rfl
  induction fs generalizing n with
  | nil => rfl
  | cons f fs ih =>
    have hpos := f.length_pos
    unfold remaining unattached
    by_cases hzero : n = 0
    · rw [if_pos (by omega), if_pos hzero, List.flatMap_cons, hfresh]
      simp [OutboundFrame.partly, hzero]
    · rw [if_neg hzero]
      split_ifs with hn
      · have hgone : n - f.bytes.length = 0 := by omega
        rw [List.flatMap_cons, hfresh, hgone]
        simp [OutboundFrame.partly, hzero]
      · exact ih

lemma remaining_append (g : OutboundFrame) (h : n ≤ (flat fs).length) :
    remaining (fs ++ [g]) n = remaining fs n ++ [g.fresh] := by
  induction fs generalizing n with
  | nil =>
    have hzero : n = 0 := Nat.le_zero.1 h
    rw [hzero, remaining_zero]
    rfl
  | cons f fs ih =>
    rw [flat_cons, List.length_append] at h
    rw [List.cons_append]
    unfold remaining
    split_ifs with hn
    · simp
    · exact ih (by omega)

lemma flat_of_remaining (h : remaining fs n = q :: rest) :
    ∃ behind, (flat fs).drop n = q.bytes.drop q.offset ++ behind := by
  induction fs generalizing n with
  | nil => cases h
  | cons f fs ih =>
    unfold remaining at h
    split_ifs at h with hn
    · cases h
      exact ⟨flat fs, by
        rw [flat_cons, List.drop_append_of_le_length (Nat.le_of_lt hn), f.partly_bytes,
          f.partly_offset]⟩
    · obtain ⟨behind, hdrop⟩ := ih h
      refine ⟨behind, ?_⟩
      rw [flat_cons, List.drop_append, List.drop_of_length_le (Nat.not_lt.1 hn), List.nil_append,
        hdrop]

lemma OutboundFrame.partly_add (f : OutboundFrame) (n : ℕ) {m : ℕ} (hpos : 0 < m) :
    f.partly (n + m) = (f.partly n).moved m := by
  have hne : m ≠ 0 := Nat.ne_of_gt hpos
  have hsum : 0 < n + m := Nat.add_pos_right n hpos
  by_cases hzero : n = 0
  · by_cases hfds : f.fds = [] <;>
      simp [partly, SendFrame.moved, SendFrame.includeFds, hzero, hfds, hpos, hne]
  · have hn : 0 < n := Nat.pos_of_ne_zero hzero
    by_cases hfds : f.fds = [] <;>
      simp [partly, SendFrame.moved, SendFrame.includeFds, hzero, hfds, hn, hsum]

lemma remaining_add {m : ℕ} (h : remaining fs n = q :: rest) (hpos : 0 < m) (hm : m ≤ q.unsent) :
    remaining fs (n + m) =
      if q.offset + m = q.bytes.length then rest else q.moved m :: rest := by
  induction fs generalizing n with
  | nil => cases h
  | cons f fs ih =>
    unfold remaining at h
    split_ifs at h with hn
    · cases h
      simp only [SendFrame.unsent, f.partly_bytes, f.partly_offset] at hm
      show remaining (f :: fs) (n + m) = if n + m = f.bytes.length then fs.map OutboundFrame.fresh
        else (f.partly n).moved m :: fs.map OutboundFrame.fresh
      unfold remaining
      by_cases hlt : n + m < f.bytes.length
      · rw [if_pos hlt, if_neg (by omega), f.partly_add n hpos]
      · have hgone : n + m - f.bytes.length = 0 := by omega
        rw [if_neg hlt, if_pos (by omega), hgone, remaining_zero]
    · unfold remaining
      rw [if_neg (by omega), show n + m - f.bytes.length = n - f.bytes.length + m by omega]
      exact ih h

end Remaining

end PipewireNative.Frame
