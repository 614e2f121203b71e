import PipewireNative.Lib.Run
import PipewireNative.Frame.Recv

/-!
The receiver turn by turn: what it holds whatever bytes and descriptors come in and whenever it is
cleared. A turn of `receive` takes a frame out of what is buffered, or reads once more.
-/

namespace PipewireNative.Frame

open Lib Prog

namespace FrameReceiver

/-- What a turn makes of the result of `recv_once`, which fills a buffer of the length of a read. -/
def settle (result : Except Unwind (List UInt8 × List OwnedFd)) :
    Prog FrameReceiver Unwind (Option ReceiveOutcome) :=
  match result with
  | .ok (bytes, fds) => do
    let r ← .get
    absorb (bytes.take r.chunkLen) fds
  | .error (.error (.io .wouldBlock)) => pure (some .wouldBlock)
  | .error (.error e) => fail e
  | .error .panic => .fail .panic

/-- One turn of the loop of `receive`; there is an outcome when it is over. -/
def turn (result : Except Unwind (List UInt8 × List OwnedFd)) :
    Prog FrameReceiver Unwind (Option ReceiveOutcome) := do
  match ← advance with
  | some frame => pure (some (.frame frame))
  | none => settle result

end FrameReceiver

/-- A receiver, and whether a call of `receive` is going on. -/
structure Intake where
  receiver : FrameReceiver
  receiving : Bool

namespace Intake

inductive Act where
  | receive
  | turn (result : Except Unwind (List UInt8 × List OwnedFd))
  | clear

def start (limits : FrameLimits) : Intake := ⟨.new limits, false⟩

variable (m : Intake)

/-- A call of `receive` comes back at once when the receiver has failed or is at the end. -/
def receive : Intake :=
  if m.receiver.state = .failed ∨ m.receiver.state = .eof then m else { m with receiving := true }

def turn (result : Except Unwind (List UInt8 × List OwnedFd)) : Intake :=
  if m.receiving then
    let r := FrameReceiver.turn result m.receiver
    ⟨r.2, (settled r.1).isNone⟩
  else m

/-- `receive` has the receiver to itself until it is over. -/
def clear : Intake := if m.receiving then m else ⟨m.receiver.clear, false⟩

def step : Act → Intake
  | .receive => m.receive
  | .turn result => m.turn result
  | .clear => m.clear

/-- What an act comes to, if it ends a call of `receive`. -/
def out : Act → Option (Except Unwind ReceiveOutcome)
  | .receive =>
    match m.receiver.state with
    | .failed => some (.error (.error .poisoned))
    | .eof => some (.ok .closed)
    | _ => none
  | .turn result =>
    if m.receiving then settled (FrameReceiver.turn result m.receiver).1 else none
  | .clear => none

end Intake

/-! ### Taking descriptors -/

/-- The batches that came in with bytes before the end of a frame, and the others. -/
def early (frameEnd : ℕ) (batches : List FdBatch) : List FdBatch :=
  batches.filter fun b => b.pos < frameEnd

def behind (frameEnd : ℕ) (batches : List FdBatch) : List FdBatch :=
  batches.filter fun b => frameEnd ≤ b.pos

/-- The descriptors of some batches. -/
def held (batches : List FdBatch) : List OwnedFd := batches.flatMap (·.fds)

/-- The batches are in the order of their positions. -/
def Ordered (batches : List FdBatch) : Prop := (batches.map (·.pos)).Pairwise (· ≤ ·)

section Take

variable {frameEnd n : ℕ} {b : FdBatch} {batches batches' : List FdBatch} {fds : List OwnedFd}

lemma held_length (batches : List FdBatch) :
    (held batches).length = (batches.map (·.fds.length)).sum := by
  simp [held, List.length_flatMap]

/-- What taking descriptors does: they are those of the first batches before the end of the
frame, and nothing else changes. -/
lemma takeFds_takes (h : FrameReceiver.takeFds frameEnd n batches = some (fds, batches')) :
    fds.length = n ∧ held batches = fds ++ held batches' ∧
      behind frameEnd batches' = behind frameEnd batches ∧
      held (early frameEnd batches) = fds ++ held (early frameEnd batches') ∧
      (batches'.map (·.pos)).Sublist (batches.map (·.pos)) := by
  induction batches generalizing n fds with
  | nil =>
    cases n with
    | zero =>
      simp only [FrameReceiver.takeFds, Option.some.injEq, Prod.mk.injEq] at h
      obtain ⟨rfl, rfl⟩ := h
      exact ⟨rfl, rfl, rfl, rfl, List.Sublist.refl _⟩
    | succ n => cases h
  | cons b batches ih =>
    cases n with
    | zero =>
      simp only [FrameReceiver.takeFds, Option.some.injEq, Prod.mk.injEq] at h
      obtain ⟨rfl, rfl⟩ := h
      exact ⟨rfl, rfl, rfl, rfl, List.Sublist.refl _⟩
    | succ n =>
      unfold FrameReceiver.takeFds at h
      split_ifs at h with hpos hlen
      · have hearly : b.pos < frameEnd := Nat.not_le.1 hpos
        simp only [Option.map_eq_some_iff, Prod.mk.injEq] at h
        obtain ⟨⟨more, rest⟩, hrest, rfl, rfl⟩ := h
        obtain ⟨hmore, hheld, hbehind, hfirst, hsub⟩ := ih hrest
        refine ⟨?_, ?_, ?_, ?_, ?_⟩
        · rw [List.length_append, hmore]
          omega
        · simp only [held, List.flatMap_cons, List.append_assoc] at hheld ⊢
          rw [hheld]
        · rw [hbehind]
          simp [behind, hpos]
        · simp only [early, held] at hfirst ⊢
          rw [List.filter_cons_of_pos (by simpa using hearly), List.flatMap_cons, hfirst,
            List.append_assoc]
        · exact hsub.trans (List.sublist_cons_self _ _)
      · have hearly : b.pos < frameEnd := Nat.not_le.1 hpos
        simp only [Option.some.injEq, Prod.mk.injEq] at h
        obtain ⟨rfl, rfl⟩ := h
        refine ⟨?_, ?_, ?_, ?_, List.Sublist.refl _⟩
        · rw [List.length_take]
          omega
        · simp only [held, List.flatMap_cons, ← List.append_assoc, List.take_append_drop]
        · simp [behind, hpos]
        · simp only [early, held]
          rw [List.filter_cons_of_pos (by simpa using hearly),
            List.filter_cons_of_pos (by simpa using hearly), List.flatMap_cons, List.flatMap_cons,
            ← List.append_assoc, List.take_append_drop]

/-- There are as many descriptors to take as batches before the end of the frame hold. -/
lemma takeFds_ne_none (hordered : Ordered batches) (hn : n ≤ (held (early frameEnd batches)).length) :
    FrameReceiver.takeFds frameEnd n batches ≠ none := by
  induction batches generalizing n with
  | nil =>
    cases n with
    | zero => simp [FrameReceiver.takeFds]
    | succ n => simp [held, early] at hn
  | cons b batches ih =>
    cases n with
    | zero => simp [FrameReceiver.takeFds]
    | succ n =>
      obtain ⟨hfirst, hrest⟩ := List.pairwise_cons.1 hordered
      unfold FrameReceiver.takeFds
      by_cases hpos : frameEnd ≤ b.pos
      · -- no batch is before the end of the frame
        have hnone : early frameEnd (b :: batches) = [] := by
          refine List.filter_eq_nil_iff.2 ?_
          intro c hc
          rcases List.mem_cons.1 hc with rfl | hc
          · simpa using hpos
          · have hle : b.pos ≤ c.pos := hfirst c.pos (List.mem_map_of_mem hc)
            simp only [decide_eq_true_eq, Nat.not_lt]
            omega
        rw [hnone] at hn
        simp [held] at hn
      · have hearly : b.pos < frameEnd := Nat.not_le.1 hpos
        rw [if_neg hpos]
        split_ifs with hlen
        · have hmore : n + 1 - b.fds.length ≤ (held (early frameEnd batches)).length := by
            simp only [early, held] at hn ⊢
            rw [List.filter_cons_of_pos (by simpa using hearly), List.flatMap_cons,
              List.length_append] at hn
            omega
          simpa using ih hrest hmore
        · simp

end Take

/-! ### What a receiver holds -/

namespace FrameReceiver

/-- A receiver that has neither failed nor come to the end. -/
def Live (r : FrameReceiver) : Prop := r.state ≠ .failed ∧ r.state ≠ .eof

/-- More bytes are needed for the next frame. -/
def Hungry (r : FrameReceiver) : Prop :=
  match r.state with
  | .payload _ frameStart frameEnd => r.bytes.length < frameEnd - frameStart
  | _ => r.bytes.length < headerLen

/-- What a receiver with these limits keeps to. -/
structure Sound (limits : FrameLimits) (r : FrameReceiver) : Prop where
  limits_eq : r.limits = limits
  position : r.state ≠ .failed → r.byteBase + r.bytes.length = r.streamEnd
  bytes_le : r.bytes.length ≤ headerLen + limits.maxPayload
  pending : r.pendingFds ≤ limits.maxPendingFds ∨ usizeMax ≤ limits.maxPendingFds
  ordered : Ordered r.fdBatches
  before : ∀ b ∈ r.fdBatches, b.pos ≤ r.streamEnd
  frame : ∀ header frameStart frameEnd, r.state = .payload header frameStart frameEnd →
    frameStart = r.byteBase ∧ frameEnd = frameStart + (headerLen + header.payloadLen.toNat) ∧
      header.payloadLen.toNat ≤ limits.payloadLimit
  failed : r.state = .failed → r.bytes = [] ∧ r.fdBatches = []

/-- The frame `f` was taken out of `r`: its descriptors are those of the first batches before its
end, and the batches behind its end are as they were. -/
structure Takes (r : FrameReceiver) (f : ReceivedFrame) (r' : FrameReceiver) : Prop where
  behind : behind r'.byteBase r'.fdBatches = behind r'.byteBase r.fdBatches
  early : (held (early r'.byteBase r.fdBatches)).map some =
    f.fds ++ (held (Frame.early r'.byteBase r'.fdBatches)).map some

variable {limits : FrameLimits} {r : FrameReceiver}

lemma sound_new (limits : FrameLimits) : Sound limits (new limits) := by
  refine ⟨rfl, fun _ => rfl, Nat.zero_le _, .inl (Nat.zero_le _), .nil, ?_, ?_, ?_⟩
  · simp [new]
  · simp [new]
  · simp [new]

lemma Sound.clear (h : Sound limits r) : Sound limits r.clear := by
  refine ⟨h.limits_eq, fun _ => rfl, Nat.zero_le _, .inl (Nat.zero_le _), .nil, ?_, ?_, ?_⟩
  · simp [FrameReceiver.clear]
  · intro header frameStart frameEnd hstate
    unfold FrameReceiver.clear at hstate
    dsimp only at hstate
    split at hstate <;> cases hstate
  · simp [FrameReceiver.clear]

lemma Sound.fail (h : Sound limits r) :
    Sound limits { r with bytes := [], fdBatches := [], state := .failed } :=
  ⟨h.limits_eq, by simp, Nat.zero_le _, .inl (Nat.zero_le _), .nil, by simp, by simp, by simp⟩

/-- The state, where the receiver has failed with an error. -/
def FailsWell (limits : FrameLimits) (e : Unwind) (r' : FrameReceiver) : Prop :=
  Sound limits r' ∧ r'.state = .failed ∧ ∃ e', e = .error e'

lemma fail_ends (h : Sound limits r) {α : Type} {Q : α → FrameReceiver → Prop} (e : FrameError) :
    (FrameReceiver.fail e : Prog FrameReceiver Unwind α).Ends r Q (FailsWell limits) :=
  ⟨h.fail, rfl, e, rfl⟩

lemma readHeader_sound (h : Sound limits r) (hlive : r.Live) :
    readHeader.Ends r
      (fun _ r' => Sound limits r' ∧ r'.Live ∧ r'.fdBatches = r.fdBatches ∧
        (r'.state = .header → r'.bytes.length < headerLen))
      (FailsWell limits) := by
  unfold readHeader
  rw [ends_bind, ends_get, ends_ite]
  refine ⟨?_, ?_⟩
  · rintro ⟨hstate, hlen⟩
    dsimp only
    simp only [ends_ite]
    refine ⟨fun _ => fail_ends h _, fun hpayload => ⟨fun _ => fail_ends h _, fun _ =>
      ⟨fun hover => ?_, fun _ => ⟨fun _ => fail_ends h _, fun _ => ?_⟩⟩⟩⟩
    · -- a payload within the limit is far from overflowing
      have hsixteen : headerLen = 16 := rfl
      unfold FrameLimits.payloadLimit wireMaxPayload at hpayload
      unfold usizeBound at hover
      omega
    · rw [ends_modify]
      refine ⟨⟨h.limits_eq, fun _ => h.position hlive.1, h.bytes_le, h.pending, h.ordered, h.before,
        ?_, by simp⟩, ⟨by simp, by simp⟩, rfl, by simp⟩
      intro header frameStart frameEnd heq
      cases heq
      refine ⟨rfl, rfl, ?_⟩
      rw [← h.limits_eq]
      exact Nat.not_lt.1 hpayload
  · intro hno
    refine ⟨h, hlive, rfl, ?_⟩
    intro hstate
    exact Nat.not_le.1 fun hlen => hno ⟨hstate, hlen⟩

lemma extract_sound (h : Sound limits r) (hlive : r.Live)
    (hheader : r.state = .header → r.bytes.length < headerLen) :
    extract.Ends r
      (fun o r' => Sound limits r' ∧ r'.Live ∧
        match o with
        | none => r'.Hungry
        | some f => Takes r f r')
      (FailsWell limits) := by
  unfold extract
  rw [ends_bind, ends_get]
  cases hstate : r.state with
  | header =>
    refine ⟨h, hlive, ?_⟩
    show r.Hungry
    unfold Hungry
    rw [hstate]
    exact hheader hstate
  | eof => exact absurd hstate hlive.2
  | failed => exact absurd hstate hlive.1
  | payload header frameStart frameEnd =>
    obtain ⟨hstart, hend, hpayload⟩ := h.frame header frameStart frameEnd hstate
    dsimp only
    rw [ends_ite]
    refine ⟨?_, ?_⟩
    swap
    · intro hshort
      refine ⟨h, hlive, ?_⟩
      show r.Hungry
      unfold Hungry
      rw [hstate]
      exact Nat.not_le.1 hshort
    intro hlen
    rw [ends_ite]
    refine ⟨fun _ => fail_ends h _, ?_⟩
    intro havailable
    have henough : header.nFds.toNat ≤ (held (early frameEnd r.fdBatches)).length := by
      rw [held_length]
      exact Nat.not_lt.1 havailable
    cases htake : takeFds frameEnd header.nFds.toNat r.fdBatches with
    | none => exact absurd htake (takeFds_ne_none h.ordered henough)
    | some got =>
      obtain ⟨fds, batches⟩ := got
      obtain ⟨hfds, hheld, hbehind, hearly, hsub⟩ := takeFds_takes htake
      simp only [ends_bind, ends_modify, ends_pure]
      have hlen' : headerLen + header.payloadLen.toNat ≤ r.bytes.length := by omega
      have hposition := h.position hlive.1
      refine ⟨⟨h.limits_eq, ?_, ?_, ?_, ?_, ?_, by simp, by simp⟩, ⟨by simp, by simp⟩, hbehind, ?_⟩
      · intro _
        dsimp only
        rw [List.length_drop, List.length_drop]
        omega
      · have hle := h.bytes_le
        dsimp only
        rw [List.length_drop, List.length_drop]
        omega
      · have hcount : (held batches).length ≤ (held r.fdBatches).length := by
          rw [hheld, List.length_append]
          omega
        rcases h.pending with hp | hp
        · left
          unfold pendingFds at hp ⊢
          rw [← held_length] at hp ⊢
          exact Nat.le_trans hcount hp
        · exact .inr hp
      · exact List.Pairwise.sublist hsub h.ordered
      · intro b hb
        have hmem : b.pos ∈ r.fdBatches.map (·.pos) := hsub.subset (List.mem_map_of_mem hb)
        obtain ⟨c, hc, hpos⟩ := List.mem_map.1 hmem
        exact hpos ▸ h.before c hc
      · show (held (early frameEnd r.fdBatches)).map some = _
        rw [hearly, List.map_append]

/-- **Taking out a frame** fails with an error or not at all. -/
theorem advance_sound (h : Sound limits r) (hlive : r.Live) :
    advance.Ends r
      (fun o r' => Sound limits r' ∧ r'.Live ∧
        match o with
        | none => r'.Hungry
        | some f => Takes r f r')
      (FailsWell limits) := by
  unfold advance
  rw [ends_bind]
  refine (readHeader_sound h hlive).mono ?_ fun _ _ he => he
  rintro _ r₁ ⟨hsound, hlive₁, hbatches, hheader⟩
  refine (extract_sound hsound hlive₁ hheader).mono ?_ fun _ _ he => he
  rintro o r' ⟨hsound', hlive', ho⟩
  refine ⟨hsound', hlive', ?_⟩
  cases o with
  | none => exact ho
  | some f => exact ⟨by rw [← hbatches]; exact ho.behind, by rw [← hbatches]; exact ho.early⟩

lemma Hungry.chunkLen_le (h : Sound limits r) (hlive : r.Live) (hhungry : r.Hungry) :
    r.bytes.length + r.chunkLen ≤ headerLen + limits.maxPayload := by
  have hlt : r.bytes.length < headerLen + limits.maxPayload := by
    unfold Hungry at hhungry
    cases hstate : r.state with
    | payload header frameStart frameEnd =>
      obtain ⟨-, hend, hpayload⟩ := h.frame header frameStart frameEnd hstate
      rw [hstate] at hhungry
      unfold FrameLimits.payloadLimit at hpayload
      dsimp only at hhungry
      omega
    | header =>
      rw [hstate] at hhungry
      exact Nat.lt_of_lt_of_le hhungry (Nat.le_add_right _ _)
    | eof => exact absurd hstate hlive.2
    | failed => exact absurd hstate hlive.1
  unfold chunkLen
  rw [h.limits_eq]
  omega

lemma absorb_sound (h : Sound limits r) (hlive : r.Live) {bytes : List UInt8} (fds : List OwnedFd)
    (hroom : r.bytes.length + bytes.length ≤ headerLen + limits.maxPayload) :
    (absorb bytes fds).Ends r (fun o r' => Sound limits r' ∧ (o = none → r'.Live))
      (fun _ r' => Sound limits r') := by
  have hfails : ∀ e (Q : Option ReceiveOutcome → FrameReceiver → Prop),
      (FrameReceiver.fail e).Ends r Q (fun _ r' => Sound limits r') := fun e Q => h.fail
  unfold absorb
  rw [ends_bind, ends_get, ends_ite]
  refine ⟨fun _ => ?_, fun _ => ?_⟩
  · simp only [ends_ite]
    refine ⟨fun _ => h, fun _ => ⟨fun _ => hfails _ _, fun hempty => ⟨fun _ => hfails _ _, fun hnone => ?_⟩⟩⟩
    simp only [ends_bind, ends_modify, ends_pure]
    exact ⟨⟨h.limits_eq, fun _ => h.position hlive.1, h.bytes_le, h.pending, h.ordered, h.before,
      by simp, by simp⟩, by simp⟩
  · simp only [ends_ite]
    refine ⟨fun _ => hfails _ _, fun hpending => ⟨fun _ => hfails _ _, fun hend => ?_⟩⟩
    simp only [ends_bind, ends_modify, ends_pure]
    have hposition := h.position hlive.1
    refine ⟨⟨h.limits_eq, fun _ => ?_, ?_, ?_, ?_, ?_, h.frame, fun hfailed => absurd hfailed hlive.1⟩,
      fun _ => hlive⟩
    · dsimp only
      rw [List.length_append]
      omega
    · dsimp only
      rw [List.length_append]
      exact hroom
    · rw [h.limits_eq] at hpending
      have hsum : ((if fds = [] then r.fdBatches
          else r.fdBatches ++ [⟨r.streamEnd, fds⟩]).map (·.fds.length)).sum =
          r.pendingFds + fds.length := by
        unfold pendingFds
        split_ifs with hnil
        · simp [hnil]
        · simp
      have hlimit : r.pendingFds + fds.length ≤ limits.maxPendingFds ∨
          usizeMax ≤ limits.maxPendingFds := by omega
      rw [← hsum] at hlimit
      exact hlimit
    · dsimp only
      split_ifs with hnil
      · exact h.ordered
      · unfold Ordered
        rw [List.map_append, List.pairwise_append]
        refine ⟨h.ordered, by simp, ?_⟩
        intro p hp q hq
        obtain ⟨b, hb, rfl⟩ := List.mem_map.1 hp
        rw [List.map_cons, List.map_nil, List.mem_singleton] at hq
        exact hq ▸ h.before b hb
    · dsimp only
      intro b hb
      have hbound : b.pos ≤ r.streamEnd := by
        split_ifs at hb with hnil
        · exact h.before b hb
        · rcases List.mem_append.1 hb with hb | hb
          · exact h.before b hb
          · exact Nat.le_of_eq (by rw [List.mem_singleton.1 hb])
      exact Nat.le_trans hbound (Nat.le_add_right _ _)

/-- **One turn** of `receive`, whatever comes in. -/
theorem turn_sound (h : Sound limits r) (hlive : r.Live)
    (result : Except Unwind (List UInt8 × List OwnedFd)) :
    (turn result).Ends r (fun o r' => Sound limits r' ∧ (o = none → r'.Live))
      (fun _ r' => Sound limits r') := by
  unfold turn
  rw [ends_bind]
  refine (advance_sound h hlive).mono ?_ fun _ _ he => he.1
  rintro (_ | frame) r₁ ⟨hsound, hlive₁, ho⟩
  swap
  · exact ⟨hsound, by simp⟩
  show (settle result).Ends r₁ _ _
  unfold settle
  split
  · rename_i bytes fds
    rw [ends_bind, ends_get]
    refine absorb_sound hsound hlive₁ fds ?_
    have hroom := Hungry.chunkLen_le hsound hlive₁ ho
    rw [List.length_take]
    omega
  · exact ⟨hsound, by simp⟩
  · exact hsound.fail
  · exact hsound

end FrameReceiver

/-! ### Runs -/

namespace Intake

variable {limits : FrameLimits} {m : Intake}

/-- A receiver that keeps to its limits, and that works while `receive` goes on. -/
structure Sound (limits : FrameLimits) (m : Intake) : Prop where
  receiver : m.receiver.Sound limits
  live : m.receiving = true → m.receiver.Live

lemma Sound.step (h : Sound limits m) (a : Act) : Sound limits (m.step a) := by
  cases a with
  | receive =>
    show Sound limits m.receive
    unfold Intake.receive
    split_ifs with hover
    · exact h
    · exact ⟨h.receiver, fun _ => not_or.1 hover⟩
  | turn result =>
    show Sound limits (m.turn result)
    unfold Intake.turn
    split_ifs with hreceiving
    · have hturn := FrameReceiver.turn_sound h.receiver (h.live hreceiving) result
      rcases hrun : FrameReceiver.turn result m.receiver with ⟨_ | _ | o, r⟩
      · exact ⟨hturn.run_error hrun, by simp [settled]⟩
      · obtain ⟨hsound, hlive⟩ := hturn.run_ok hrun
        exact ⟨hsound, fun _ => hlive rfl⟩
      · exact ⟨(hturn.run_ok hrun).1, by simp [settled]⟩
    · exact h
  | clear =>
    show Sound limits m.clear
    unfold Intake.clear
    split_ifs with hreceiving
    · exact h
    · exact ⟨h.receiver.clear, by simp⟩

lemma step_over {state : RecvState} (hover : state = .failed ∨ state = .eof) (a : Act)
    (h : m.receiver.state = state ∧ m.receiving = false) :
    (m.step a).receiver.state = state ∧ (m.step a).receiving = false := by
  obtain ⟨hstate, hreceiving⟩ := h
  cases a with
  | receive =>
    have hsame : m.receive = m := if_pos (hstate ▸ hover)
    exact ⟨(congrArg (·.receiver.state) hsame).trans hstate,
      (congrArg (·.receiving) hsame).trans hreceiving⟩
  | turn result =>
    have hsame : m.turn result = m := if_neg (by simp [hreceiving])
    exact ⟨(congrArg (·.receiver.state) hsame).trans hstate,
      (congrArg (·.receiving) hsame).trans hreceiving⟩
  | clear =>
    have hclear : m.clear = ⟨m.receiver.clear, false⟩ := if_neg (by simp [hreceiving])
    refine ⟨(congrArg (·.receiver.state) hclear).trans ?_, congrArg (·.receiving) hclear⟩
    unfold FrameReceiver.clear
    dsimp only
    rw [hstate]
    rcases hover with rfl | rfl <;> rfl

/-- What holds of a receiver at every moment of every run. -/
structure Upholds (limits : FrameLimits) (m : Intake) : Prop where
  position : m.receiver.state ≠ .failed →
    m.receiver.byteBase + m.receiver.bytes.length = m.receiver.streamEnd
  bytes_le : m.receiver.bytes.length ≤ headerLen + limits.maxPayload
  /-- A limit of `usize::MAX` is none. -/
  pending : m.receiver.pendingFds ≤ limits.maxPendingFds ∨ usizeMax ≤ limits.maxPendingFds
  ordered : Ordered m.receiver.fdBatches
  takes : ∀ f r, m.receiving = true → FrameReceiver.advance m.receiver = (.ok (some f), r) →
    m.receiver.Takes f r
  /-- The size of a frame is a `usize`, and its bytes are there when it is taken out. -/
  frame : ∀ header frameStart frameEnd, m.receiver.state = .payload header frameStart frameEnd →
    frameStart ≤ frameEnd ∧ frameEnd - frameStart < usizeBound ∧
      headerLen + header.payloadLen.toNat ≤ frameEnd - frameStart
  calm : ∀ r, m.receiving = true → FrameReceiver.advance m.receiver ≠ (.error .panic, r)
  absorbing : ∀ state, m.receiver.state = state → state = .failed ∨ state = .eof →
    ∀ acts, (after step acts m).receiver.state = state
  failed : m.receiver.state = .failed → m.receiver.bytes = [] ∧ m.receiver.fdBatches = []

/-- **The receiver.** Whatever bytes and descriptors come in, and whenever it is cleared. -/
theorem after_upholds (limits : FrameLimits) (acts : List Act) :
    Upholds limits (after step acts (start limits)) := by
  have h : Sound limits (after step acts (start limits)) :=
    after_keeps (fun m a hm => hm.step a) acts ⟨FrameReceiver.sound_new limits, by simp [start]⟩
  generalize after step acts (start limits) = m at h
  have hadvance : m.receiving = true → _ := fun hreceiving =>
    FrameReceiver.advance_sound h.receiver (h.live hreceiving)
  refine ⟨h.receiver.position, h.receiver.bytes_le, h.receiver.pending, h.receiver.ordered, ?_, ?_,
    ?_, ?_, h.receiver.failed⟩
  · intro f r hreceiving hrun
    exact ((hadvance hreceiving).run_ok hrun).2.2
  · intro header frameStart frameEnd hstate
    obtain ⟨-, hend, hpayload⟩ := h.receiver.frame header frameStart frameEnd hstate
    have hsixteen : headerLen = 16 := rfl
    unfold FrameLimits.payloadLimit wireMaxPayload at hpayload
    unfold usizeBound
    omega
  · intro r hreceiving hrun
    obtain ⟨-, -, e, he⟩ := (hadvance hreceiving).run_error hrun
    cases he
  · intro state hstate hover acts
    have hidle : m.receiving = false := by
      cases hreceiving : m.receiving with
      | false => rfl
      | true =>
        have hlive := h.live hreceiving
        rcases hover with rfl | rfl
        · exact absurd hstate hlive.1
        · exact absurd hstate hlive.2
    exact (after_keeps (I := fun m : Intake => m.receiver.state = state ∧ m.receiving = false)
      (fun m a hm => step_over hover a hm) acts ⟨hstate, hidle⟩).1

/-! ### The receiver on a socket -/

lemma gather_length_le (room count : ℕ) (taken rest : List Loaded) :
    (Socket.gather room count taken rest).1.length ≤ taken.length + count := by
  induction count generalizing taken rest with
  | zero => exact Nat.le_refl _
  | succ count ih =>
    cases rest with
    | nil => exact Nat.le_add_right _ _
    | cons byte rest =>
      unfold Socket.gather
      split_ifs
      · have hlen := ih (taken ++ [byte]) rest
        rw [List.length_append] at hlen
        simp only [List.length_singleton] at hlen
        omega
      · exact Nat.le_add_right _ _

lemma recvmsg_fits (chunkLen capacity : ℕ) (hpos : 0 < chunkLen) (answer : RecvAnswer)
    (socket : Socket) :
    (Socket.recvmsg chunkLen capacity answer).Ends socket
      (fun got _ => got.1.length ≤ chunkLen ∧ answer ≠ .again) (fun _ _ => True) := by
  unfold Socket.recvmsg
  cases answer with
  | interrupted | again | refused _ => exact trivial
  | delivered count =>
    simp only [ends_bind, ends_get, ends_ite, ends_modify, ends_pure, ends_fail]
    refine ⟨fun _ => ⟨fun _ => ⟨Nat.zero_le _, by simp⟩, fun _ => trivial⟩, fun _ => ⟨?_, by simp⟩⟩
    have hlen := gather_length_le (Socket.room capacity) (max 1 (min count chunkLen)) [] socket.stream
    rw [List.length_map]
    simp only [List.length_nil, Nat.zero_add] at hlen
    omega

lemma recvOnce_fits (s : Receiving) (controlFds : ℕ) (answer : RecvAnswer) :
    (Receiving.recvOnce s.receiver.chunkLen controlFds answer).Ends s
      (fun got s' => (got.1.length ≤ s.receiver.chunkLen ∧ answer ≠ .again) ∧ s'.receiver = s.receiver)
      (fun _ s' => s'.receiver = s.receiver) := by
  have hpos : 0 < s.receiver.chunkLen := by
    unfold FrameReceiver.chunkLen
    omega
  unfold Receiving.recvOnce
  simp only [ends_bind, ends_failIf, ends_mapErr, ends_ofExcept, ends_zoom]
  refine ⟨fun _ => trivial, fun _ => ?_⟩
  cases Receiving.controlLen controlFds with
  | error e => trivial
  | ok capacity =>
    dsimp only
    refine ⟨fun _ => trivial, fun _ => ?_⟩
    refine (recvmsg_fits s.receiver.chunkLen capacity hpos answer s.socket).mono ?_
      fun _ _ _ => trivial
    rintro ⟨bytes, control, flags⟩ socket hfits
    dsimp only
    split
    · rfl
    · exact ⟨hfits, rfl⟩

end Intake

namespace Receiving

/-- What `recv_once` returns. -/
def recvResult (s : Receiving) (answer : RecvAnswer) : Except Unwind (List UInt8 × List OwnedFd) :=
  (recvOnce s.receiver.chunkLen s.receiver.limits.recvControlFds answer s).1

/-- The turns behind an `advance`: what `recv_once` returns in each of them. A turn that takes a
frame, or fails at it, does not read. -/
def advanceResults (rest : Receiving → List (Except Unwind (List UInt8 × List OwnedFd)))
    (s : Receiving) : List (Except Unwind (List UInt8 × List OwnedFd)) :=
  match FrameReceiver.advance s.receiver with
  | (.ok none, r) => rest { s with receiver := r }
  | _ => [.ok ([], [])]

def waitResults : List RecvAnswer → Receiving → List (Except Unwind (List UInt8 × List OwnedFd))
  | [], s => [s.recvResult .again]
  | answer :: answers, s =>
    if answer = .interrupted then waitResults answers s
    else s.recvResult answer ::
      match readTurn answer s with
      | (.ok none, s') => advanceResults (waitResults answers) s'
      | _ => []

def receiveActs (answers : List RecvAnswer) (s : Receiving) : List Intake.Act :=
  .receive :: if s.receiver.state = .failed ∨ s.receiver.state = .eof then []
    else (advanceResults (waitResults answers) s).map .turn

end Receiving

namespace Intake

variable {m : Intake}

lemma readTurn_settle (s : Receiving) (answer : RecvAnswer) :
    (Receiving.readTurn answer s).1 =
        (FrameReceiver.settle (s.recvResult answer) s.receiver).1 ∧
      (Receiving.readTurn answer s).2.receiver =
        (FrameReceiver.settle (s.recvResult answer) s.receiver).2 ∧
      (answer = .again → (Receiving.readTurn answer s).1 ≠ .ok none) := by
  have hfits := recvOnce_fits s s.receiver.limits.recvControlFds answer
  rcases hrun : Receiving.recvOnce s.receiver.chunkLen s.receiver.limits.recvControlFds answer s with
    ⟨result, s₁⟩
  have hattempt : (Receiving.recvOnce s.receiver.chunkLen s.receiver.limits.recvControlFds
      answer).attempt s = ((.ok result : Except Unwind _), s₁) := by
    unfold attempt
    rw [hrun]
  have hturn := bind_ok (f := fun result => match result with
    | .ok (bytes, fds) => Receiving.ofReceiver (FrameReceiver.absorb bytes fds)
    | .error (.error (.io .wouldBlock)) => pure (some .wouldBlock)
    | .error (.error e) => Receiving.ofReceiver (FrameReceiver.fail e)
    | .error .panic => .fail .panic) hattempt
  have hturn' : Receiving.readTurn answer s = _ := hturn
  rw [hturn', Receiving.recvResult, hrun]
  cases result with
  | ok got =>
    obtain ⟨bytes, fds⟩ := got
    obtain ⟨⟨hlen, hagain⟩, hreceiver⟩ := hfits.run_ok hrun
    have htake : bytes.take s.receiver.chunkLen = bytes := List.take_of_length_le hlen
    have hsettle : FrameReceiver.settle (.ok (bytes, fds)) s.receiver =
        FrameReceiver.absorb bytes fds s.receiver := by
      show FrameReceiver.absorb (bytes.take s.receiver.chunkLen) fds s.receiver = _
      rw [htake]
    rw [hsettle, ← hreceiver]
    exact ⟨rfl, rfl, fun h => absurd h hagain⟩
  | error e =>
    have hreceiver : s₁.receiver = s.receiver := hfits.run_error hrun
    rw [← hreceiver]
    rcases e with e | _
    · cases e with
      | io e => cases e <;> exact ⟨rfl, rfl, fun _ h => nomatch h⟩
      | _ => exact ⟨rfl, rfl, fun _ h => nomatch h⟩
    · exact ⟨rfl, rfl, fun _ h => nomatch h⟩

lemma turn_settle (hreceiving : m.receiving = true) {r : FrameReceiver}
    (hadvance : FrameReceiver.advance m.receiver = (.ok none, r))
    (result : Except Unwind (List UInt8 × List OwnedFd)) :
    m.step (.turn result) = ⟨(FrameReceiver.settle result r).2,
        (settled (FrameReceiver.settle result r).1).isNone⟩ ∧
      m.out (.turn result) = settled (FrameReceiver.settle result r).1 := by
  unfold step out Intake.turn FrameReceiver.turn
  dsimp only
  rw [if_pos hreceiving, if_pos hreceiving, bind_ok hadvance]
  exact ⟨rfl, rfl⟩

/-- The machine comes to where a program on a socket has come to, and to its outcome. -/
structure Runs (m : Intake) (acts : List Act) (x : Except Unwind ReceiveOutcome × Receiving) :
    Prop where
  receiver : (after step acts m).receiver = x.2.receiver
  idle : (after step acts m).receiving = false
  outcome : outcome out step acts m = some x.1

section Runs

variable {x : Except Unwind ReceiveOutcome × Receiving} {a : Act} {acts : List Act} {s : Receiving}

lemma runs_last (hstep : m.step a = ⟨x.2.receiver, false⟩) (hout : m.out a = some x.1) :
    Runs m [a] x := by
  constructor <;> simp [Lib.outcome, hstep, hout]

lemma Runs.cons (h : Runs (m.step a) acts x) (hout : m.out a = none) : Runs m (a :: acts) x :=
  ⟨h.receiver, h.idle, by rw [Lib.outcome, hout, Option.none_or, h.outcome]⟩

lemma runs_advance (hreceiving : m.receiving = true) (hs : m.receiver = s.receiver)
    {p : Prog Receiving Unwind ReceiveOutcome}
    {rest : Receiving → List (Except Unwind (List UInt8 × List OwnedFd))}
    (hp : ∀ r, FrameReceiver.advance m.receiver = (.ok none, r) →
      Runs m ((rest { s with receiver := r }).map .turn) (p { s with receiver := r })) :
    Runs m ((Receiving.advanceResults rest s).map .turn)
      ((Receiving.ofReceiver FrameReceiver.advance >>= fun o => match o with
        | some frame => pure (.frame frame)
        | none => p) s) := by
  rcases hadvance : FrameReceiver.advance m.receiver with ⟨o, r⟩
  have hof : Receiving.ofReceiver FrameReceiver.advance s = (o, { s with receiver := r }) := by
    unfold Receiving.ofReceiver zoom
    rw [← hs, hadvance]
  -- a turn that does not get to its read
  have hlast : ∀ {x : Except Unwind ReceiveOutcome} {o'},
      FrameReceiver.turn (.ok ([], [])) m.receiver = (o', r) → settled o' = some x →
      Runs m [.turn (.ok ([], []))] (x, { s with receiver := r }) := by
    intro x o' hrun ho'
    refine runs_last ((if_pos hreceiving).trans ?_) ((if_pos hreceiving).trans ?_)
    · simp only [hrun, ho', Option.isNone_some]
    · rw [hrun, ho']
  unfold Receiving.advanceResults
  rw [← hs, hadvance]
  rcases o with e | _ | frame
  · rw [bind_error hof]
    exact hlast (bind_error hadvance) rfl
  · rw [bind_ok hof]
    exact hp r hadvance
  · rw [bind_ok hof]
    exact hlast (bind_ok hadvance) rfl

lemma waitLoop_runs (hreceiving : m.receiving = true)
    (hadvance : FrameReceiver.advance m.receiver = (.ok none, s.receiver))
    (answers : List RecvAnswer) :
    Runs m ((Receiving.waitResults answers s).map .turn) (Receiving.waitLoop answers s) := by
  induction answers generalizing m s with
  | nil =>
    obtain ⟨hout, hreceiver, hover⟩ := readTurn_settle s .again
    obtain ⟨hstep, hend⟩ := turn_settle hreceiving hadvance (s.recvResult .again)
    rw [← hout] at hstep hend
    rw [← hreceiver] at hstep
    unfold Receiving.waitLoop Receiving.waitResults
    rcases hrun : Receiving.readTurn .again s with ⟨_ | _ | o, s'⟩ <;> rw [hrun] at hstep hend hover
    · rw [bind_error hrun]
      exact runs_last hstep hend
    · exact absurd rfl (hover rfl)
    · rw [bind_ok hrun]
      exact runs_last hstep hend
  | cons answer answers ih =>
    unfold Receiving.waitResults
    by_cases hinterrupted : answer = .interrupted
    · subst hinterrupted
      rw [if_pos rfl]
      exact ih hreceiving hadvance
    obtain ⟨hout, hreceiver, -⟩ := readTurn_settle s answer
    obtain ⟨hstep, hend⟩ := turn_settle hreceiving hadvance (s.recvResult answer)
    rw [← hout] at hstep hend
    rw [← hreceiver] at hstep
    rw [Receiving.waitLoop_cons hinterrupted, if_neg hinterrupted]
    rcases hrun : Receiving.readTurn answer s with ⟨_ | _ | o, s'⟩ <;> rw [hrun] at hstep hend
    · rw [bind_error hrun]
      exact runs_last hstep hend
    · rw [bind_ok hrun]
      refine Runs.cons ?_ hend
      rw [hstep]
      exact runs_advance rfl rfl (p := Receiving.waitLoop answers) fun r hagain => ih rfl hagain
    · rw [bind_ok hrun]
      exact runs_last hstep hend

/-- **Receiving from a socket** is a run of the machine with what the calls of `recv_once` return,
and the outcome is that of the run. -/
theorem receive_runs (hs : m.receiver = s.receiver) (hidle : m.receiving = false)
    (answers : List RecvAnswer) : Runs m (s.receiveActs answers) (Receiving.receive answers s) := by
  unfold Receiving.receiveActs
  by_cases hover : s.receiver.state = .failed ∨ s.receiver.state = .eof
  · have hstart : m.step .receive = ⟨s.receiver, false⟩ := by
      rw [← hs, ← hidle]
      exact if_pos (hs ▸ hover)
    rw [if_pos hover]
    unfold Receiving.receive
    rw [get_bind]
    rcases hover with hstate | hstate <;> rw [hstate] <;> refine runs_last hstart ?_ <;>
      rw [out, hs, hstate] <;> rfl
  · have hstart : m.step .receive = { m with receiving := true } := if_neg (hs ▸ hover)
    obtain ⟨hfailed, heof⟩ := not_or.1 hover
    rw [if_neg hover, Receiving.receive_eq hfailed heof]
    refine Runs.cons ?_ ?_
    · rw [hstart]
      exact runs_advance (m := { m with receiving := true }) rfl hs
        (p := Receiving.waitLoop answers) fun r hadvance => waitLoop_runs rfl hadvance answers
    · rw [out, hs]
      cases hstate : s.receiver.state <;> first | rfl | contradiction

end Runs

/-- Three bytes of a header come in, and then nothing. -/
theorem receive_runs_partial :
    let s : Receiving := ⟨.new .standard, ⟨[(1, []), (2, []), (3, [])], false⟩⟩
    Runs (start .standard) (s.receiveActs [.delivered 3]) (Receiving.receive [.delivered 3] s) :=
  receive_runs rfl rfl [.delivered 3]

end Intake

end PipewireNative.Frame
