import PipewireNative.Node.Lifecycle

/-!
What is published. A token says that some cycle committed it; it can be kept and handed in again in
another one. Publication checks that it names the buffer that is selected and that its stride lies
in the buffer, and takes the rest from the token. Where callbacks only hand in tokens that fit the
cycle they are called for, every chunk that is published lies in its buffer.
-/

namespace PipewireNative.Node

open Lib Lib.Word World Sys

/-! ### What the log tells -/

namespace World

variable {P : List Event → Prop} {w w₁ w' : World}

/-- Whatever told the server that data is there, in what the log has grown by, came upon a log
of `P`. -/
def Tells (P : List Event → Prop) (w w' : World) : Prop :=
  ∃ new, w'.log = new ++ w.log ∧
    ∀ post a pre, new = post ++ .own a :: pre → IsHaveData a → P (pre ++ w.log)

lemma Logs.tells {Q : Action → Prop} (h : Logs Q w w') (hQ : ∀ a, Q a → ¬ IsHaveData a) :
    Tells P w w' := by
  obtain ⟨new, hl, hn⟩ := h
  refine ⟨new, hl, fun post a pre e ha => absurd ha (hQ a (hn a ?_))⟩
  rw [e]
  exact List.mem_append_right _ List.mem_cons_self

lemma Tells.perform {a : Action} (h : IsHaveData a → P w.log) : Tells P w (w.perform a) := by
  refine ⟨[.own a], rfl, fun post b pre e hb => ?_⟩
  obtain ⟨rfl, e⟩ | ⟨post', rfl, e⟩ := List.append_eq_cons_iff.1 e.symm
  · cases e
    exact h hb
  · exact absurd e.symm (by simp)

lemma Tells.trans (h : Tells P w w₁) (h' : Tells P w₁ w') : Tells P w w' := by
  obtain ⟨new, hl, hn⟩ := h
  obtain ⟨new', hl', hn'⟩ := h'
  refine ⟨new' ++ new, by rw [hl', hl, List.append_assoc], fun post a pre e ha => ?_⟩
  rcases List.append_eq_append_iff.1 e with ⟨mid, hpost, hnew⟩ | ⟨mid, hnew', hrest⟩
  · exact hn mid a pre hnew ha
  · cases mid with
    | nil => exact hn [] a pre (by simpa using hrest.symm) ha
    | cons b mid =>
      obtain ⟨rfl, rfl⟩ : Event.own a = b ∧ pre = mid ++ new := by simpa using hrest
      have := hn' post a mid hnew' ha
      rwa [hl, ← List.append_assoc] at this

end World

/-! ### Chunks inside their buffer -/

/-- What the log left in a buffer of `g` and in its IO record: the chunk lies in the buffer, from
the offset of the cycle on, and counts whole frames of the format, with its stride. -/
def OutputGeneration.Within (g : OutputGeneration) (log : List Event) : Prop :=
  ∃ (bound : BoundBuffer) (id offset size : ℕ), g.buffers[id]? = some bound ∧
    lastStored .ioBufferId log = some (g.io.at_ Abi.ioBufferId, leBytes 4 id) ∧
    lastStored .chunkOffset log =
      some (bound.metadata.at_ (bound.chunkOffset + Abi.chunkOffset), leBytes 4 offset) ∧
    lastStored .chunkSize log =
      some (bound.metadata.at_ (bound.chunkOffset + Abi.chunkDataSize), leBytes 4 size) ∧
    lastStored .chunkStride log = some (bound.metadata.at_ (bound.chunkOffset + Abi.chunkStride),
      leBytes 4 (ofI32 g.format.frameStride)) ∧
    offset ≤ u32Max ∧ size ≤ u32Max ∧ offset + size ≤ bound.media.len ∧
    size ≤ bound.media.len - offset ∧ g.format.frameStride ∣ size

/-- The latest callback has not handed in a token that names the buffer of its cycle and does not
fit the cycle. -/
def World.Honest (log : List Event) : Prop := ∀ b, (calls log).head? ≠ some (b, .misfit)

section Wakes

variable {r : MemoryInterval} {ivs : List MemoryInterval} {g : OutputGeneration}
  {w w' : World}

lemma Announced.within {c : OutputCycle} {t : CommittedOutput} (h : Announced g c t w)
    (hc : c.Of g) (hfit : c.Fits t) : g.Within w.log := by
  obtain ⟨bound, hb, hof⟩ := hc.buffer
  obtain ⟨hstride, hsize⟩ := hfit
  have hchunk : ∀ field, c.buffer.chunk.at_ field = bound.metadata.at_ (bound.chunkOffset + field) :=
    fun field => by rw [ChunkView.at_, hof.chunk]
  have hcap : c.capacity = bound.media.len - c.buffer.dataOffset := by
    rw [OutputCycle.capacity, OutputBuffer.capacity, hof.maxSize]
  have hlt : c.buffer.dataOffset < bound.media.len := hof.maxSize ▸ c.buffer.offset_lt
  have hmax : bound.media.len ≤ u32Max := hof.maxSize ▸ c.buffer.maxSize_le
  rw [hc.format] at hstride
  refine ⟨bound, t.bufferId, c.buffer.dataOffset, t.bytesUsed, ?_, h.bufferId, ?_, ?_, ?_, ?_,
    t.bytesUsed_le, ?_, ?_, ?_⟩
  · rw [h.names]; exact hb
  · rw [h.offset, hchunk]
  · rw [h.size, hchunk]
  · rw [h.stride, hchunk, hstride]
  · omega
  · omega
  · omega
  · exact hstride ▸ t.whole

lemma Waking.quiet {a : Action} (h : Waking r ivs a) : ¬ IsHaveData a := by
  cases a with
  | store f l bs => exact h.1
  | _ => exact id

lemma Steps.background {P : List Event → Prop} (h : Steps (Waking r ivs) w w') : Tells P w w' :=
  h.log.tells fun _ => Waking.quiet

lemma Steps.calls (h : Steps (Waking r ivs) w w') : calls w'.log = calls w.log := by
  obtain ⟨new, hl, hn⟩ := h.log
  rw [World.calls, hl, List.filterMap_append, List.filterMap_eq_nil_iff.2, List.nil_append]
  · rfl
  · rintro (_ | a) he
    · rfl
    · have ha := hn a he
      cases a <;> first | rfl | exact ha.elim

lemma OutputCycle.handed_eq_misfit {c : OutputCycle} {t : CommittedOutput}
    (hn : t.bufferId = c.bufferId) : c.handed (.returned (.ok t)) = .misfit ↔ ¬ c.Fits t := by
  rw [handed, if_neg (not_not.2 hn)]
  split_ifs with hfit <;> simp [hfit]

theorem Processed.tells (h : Processed r ivs g w w') :
    Tells (fun log => Honest log → g.Within log) w w' := by
  cases h with
  | idle hs => exact Steps.background hs
  | called c _ hsel hs =>
    exact (Steps.background hsel.steps).trans <| (Tells.perform fun h => by exact h.elim).trans <|
      Steps.background hs
  | @published w₁ w₂ _ c t hsel hs hann _ hs' =>
    have hfit : Honest w₂.log → c.Fits t := fun hh => by
      refine not_not.1 fun hfit => hh c.bufferId ?_
      rw [Steps.calls hs, ← (OutputCycle.handed_eq_misfit hann.names).2 hfit]
      rfl
    exact (Steps.background hsel.steps).trans <| (Tells.perform fun h => by exact h.elim).trans <|
      (Steps.background hs).trans <|
        (Tells.perform fun _ hh => hann.within hsel.cycle (hfit hh)).trans (Steps.background hs')

theorem Wakes.tells (h : Wakes r ivs g w w') :
    Tells (fun log => Honest log → g.Within log) w w' := by
  cases h with
  | idle hs => exact Steps.background hs
  | cycle h₁ h₂ h₃ h₄ h₅ =>
    obtain ⟨v, hv, -, rfl⟩ := h₂
    have hread : Tells (fun log => Honest log → g.Within log) _ v := (Steps.log hv).tells fun a ha => by
      cases a <;> first | exact id | exact ha.elim
    exact (Steps.background h₁).trans <| hread.trans <| (Tells.perform fun h => by exact h.elim).trans <|
      (Steps.background h₃).trans <| h₄.tells.trans (Steps.background h₅)

end Wakes

namespace Sys

lemma Tells.scripted {P : List Event → Prop} {s : Sys} {script : List (List ServerAct)}
    {w' : World} (h : Tells P (s.scripted script).world w') : Tells P s.world w' := h

lemma move_tells {s : Sys} (hc : s.session.Coherent) (m : Move) :
    Tells (fun log => ∃ g, s.session.output = some g ∧ (Honest log → g.Within log))
      s.world (s.move m).world := by
  cases m with
  | server a =>
    have hlog : Logs (fun _ => False) s.world (s.world.serve a) := by
      cases a with
      | store l bs => exact ⟨[.server _ _], rfl, by simp⟩
      | signal fd n => exact .refl _
    exact hlog.tells fun _ h => h.elim
  | op o k script =>
    cases o with
    | command c =>
      refine Tells.scripted (((s.exec_command c k script).2.1.logs).tells fun a ha h => ?_)
      cases a with
      | store f l bs => exact absurd (h.1.symm.trans ha) (by decide)
      | _ => exact h
    | wake w =>
      obtain ⟨-, st, -, hw⟩ := s.exec_wake hc w k script
      suffices h : Tells _ (s.scripted script).world (s.exec (.wake w) k script).2.world from
        Tells.scripted h
      generalize (s.exec (.wake w) k script).2 = s' at hw
      cases hw with
      | ignored => exact ⟨[], rfl, by simp⟩
      | drained t w' _ _ hs => exact Steps.background hs
      | cycle t g st w' _ _ _ hG hs =>
        obtain ⟨new, hl, hn⟩ := hs.tells
        exact ⟨new, hl, fun post a pre e ha => ⟨g, hG, hn post a pre e ha⟩⟩

/-- **Published chunks.** In every run, every store of `HAVE_DATA` that a move makes comes upon a
chunk that lies in the buffer named, in the contiguous capacity of its cycle, and that counts whole
frames of the negotiated format with its stride, if the token that the callback of the cycle handed
in fits the cycle. -/
theorem published_within (mem : Shm) (counter : Fd → ℕ) (moves : List Move) (m : Move) :
    let s := (init mem counter).run moves
    ∃ new, (s.move m).world.log = new ++ s.world.log ∧
      ∀ post a pre, new = post ++ .own a :: pre → IsHaveData a →
        ∃ g, s.session.output = some g ∧
          (Honest (pre ++ s.world.log) → g.Within (pre ++ s.world.log)) :=
  move_tells (run_coherent mem counter moves) m

lemma Tells.of_fitting {output : Option OutputGeneration} {w w' : World}
    (h : Tells (fun log => ∃ g, output = some g ∧ (Honest log → g.Within log)) w w')
    (hcalls : ∀ p ∈ calls w'.log, p.2 ≠ .misfit) :
    Tells (fun log => ∃ g, output = some g ∧ g.Within log) w w' := by
  obtain ⟨new, hnew, h⟩ := h
  refine ⟨new, hnew, fun post a pre e ha => ?_⟩
  obtain ⟨g, hG, hin⟩ := h post a pre e ha
  have hs : pre ++ w.log <:+ w'.log := ⟨post ++ [.own a], by rw [hnew, e]; simp⟩
  exact ⟨g, hG, hin fun _ hb => hcalls _ ((hs.filterMap _).subset (List.mem_of_head? hb)) rfl⟩

/-- The cycle of the sample session, whose callback commits one frame of the cycle it is given. -/
theorem published_within_sample :
    let s := (init Sample.mem Sample.counter).run (Sample.start ++ Sample.trigger)
    ∃ new, (s.move Sample.wake).world.log = new ++ s.world.log ∧
      ∀ post a pre, new = post ++ .own a :: pre → IsHaveData a →
        ∃ g, s.session.output = some g ∧ g.Within (pre ++ s.world.log) := by
  have h := published_within Sample.mem Sample.counter (Sample.start ++ Sample.trigger) Sample.wake
  exact Tells.of_fitting h (by decide +kernel)

end Sys

/-! ### A token that was kept -/

/-- The event is a store of `HAVE_DATA`. -/
def Event.haveData : Event → Bool
  | .own (.store f _ bs) => decide (f = .ioStatus ∧ bs = leBytes 4 BufferStatus.haveData.code)
  | _ => false

lemma OutputGeneration.none_within {output : Option OutputGeneration} {log : List Event}
    {offset size : ℕ} {lens : List ℕ}
    (ho : (lastStored .chunkOffset log).map (·.2) = some (leBytes 4 offset))
    (hs : (lastStored .chunkSize log).map (·.2) = some (leBytes 4 size)) (hoffset : offset ≤ u32Max)
    (hsize : size ≤ u32Max) (hlens : output.map (fun g => g.buffers.map (·.media.len)) = some lens)
    (hlen : ∀ n ∈ lens, n < offset + size) : ¬ ∃ g, output = some g ∧ g.Within log := by
  rintro ⟨g, rfl, bound, id, o, z, hb, -, ho', hs', -, hole, hzle, hin, -, -⟩
  have hword : ∀ {a : ℕ}, a ≤ u32Max → a < 256 ^ 4 := fun h => by unfold u32Max at h; omega
  rw [ho'] at ho
  rw [hs'] at hs
  have hoeq : o = offset := leBytes_inj (hword hole) (hword hoffset) (Option.some.inj ho)
  have hzeq : z = size := leBytes_inj (hword hzle) (hword hsize) (Option.some.inj hs)
  have hmem : bound.media.len ∈ lens := by
    rw [← Option.some.inj hlens]
    exact List.mem_map.2 ⟨bound, List.mem_of_getElem? hb, rfl⟩
  have := hlen _ hmem
  omega

namespace Sample

def fullCycle : List Move :=
  start ++ trigger ++ [.op (.wake ⟨1, 5, some 6, fun c _ =>
    ([], .returned (match c.commit 1024 with
      | .ok t => .ok t
      | .error _ => .error "commit"))⟩) kernel []]

/-- The server consumes all but the last frame, asks for data, rearms the peer and triggers. -/
def refill : List Move :=
  [.server (.store ⟨backing, 12288⟩ [252, 15, 0, 0, 0, 0, 0, 0]),
    .server (.store ⟨backing, 8192⟩ [1, 0, 0, 0]),
    .server (.store ⟨backing, 4096⟩ [0, 0, 0, 0]),
    .server (.store ⟨backing, 4112⟩ [1, 0, 0, 0])] ++ trigger

def kept : CommittedOutput := ⟨0, 4096, 4, 0, by decide, format.frameStride_pos, by decide⟩

/-- A wake whose callback hands in the token of the full cycle. -/
def keptWake : Move := .op (.wake ⟨1, 7, some 8, fun _ _ => ([], .returned (.ok kept))⟩) kernel []

end Sample

/-- The sample session fills its buffer of 4096 bytes. When the server asks for data again, at the
offset 4092, the callback hands in the token it had committed before, and the session publishes
4096 bytes from there. -/
theorem Sys.kept_token_published :
    let s := (init Sample.mem Sample.counter).run (Sample.fullCycle ++ Sample.refill)
    let log := (s.move Sample.keptWake).world.log.dropWhile fun e => !e.haveData
    s.session.output.map (fun g => g.buffers.map (·.media.len)) = some [4096] ∧
      s.world.log.length < log.length ∧
      (lastStored .chunkOffset log).map (·.2) = some (leBytes 4 4092) ∧
      (lastStored .chunkSize log).map (·.2) = some (leBytes 4 4096) ∧
      ¬ ∃ g, s.session.output = some g ∧ g.Within log := by
  intro s log
  have hlen : s.session.output.map (fun g => g.buffers.map (·.media.len)) = some [4096] := by
    decide +kernel
  have ho : (lastStored .chunkOffset log).map (·.2) = some (leBytes 4 4092) := by decide +kernel
  have hs : (lastStored .chunkSize log).map (·.2) = some (leBytes 4 4096) := by decide +kernel
  refine ⟨hlen, by decide +kernel, ho, hs, ?_⟩
  exact OutputGeneration.none_within ho hs (by decide) (by decide) hlen (by decide)

end PipewireNative.Node
