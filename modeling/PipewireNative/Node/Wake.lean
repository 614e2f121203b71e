import PipewireNative.Node.Binding
import PipewireNative.Node.Session

/-!
What a wake can do to the world. Everything is background, as `Waking` says, but three actions:
the exchange that claims the cycle, the callback, and the store that publishes `HAVE_DATA`; and
these three come in that order, each at most once.
-/

namespace PipewireNative.Node

open Lib Lib.Word Prog World

namespace World

/-! ### The log -/

/-- The log has grown, and the owner's part of what was added is of `P`. -/
def Logs (P : Action → Prop) (w w' : World) : Prop :=
  ∃ new, w'.log = new ++ w.log ∧ ∀ a, Event.own a ∈ new → P a

lemma Logs.refl {P : Action → Prop} (w : World) : Logs P w w := ⟨[], rfl, by simp⟩

lemma Logs.trans {P : Action → Prop} {w w₁ w' : World} (h : Logs P w w₁) (h' : Logs P w₁ w') :
    Logs P w w' := by
  obtain ⟨new, hl, hn⟩ := h
  obtain ⟨new', hl', hn'⟩ := h'
  refine ⟨new' ++ new, by rw [hl', hl, List.append_assoc], fun a ha => ?_⟩
  rcases List.mem_append.1 ha with ha | ha
  · exact hn' a ha
  · exact hn a ha

lemma Logs.perform {P : Action → Prop} {w : World} {a : Action} (ha : P a) :
    Logs P w (w.perform a) :=
  ⟨[.own a], rfl, fun b hb => by
    rw [List.mem_singleton, Event.own.injEq] at hb
    rw [hb]
    exact ha⟩

/-- Every step adds to the log, and the owner's part of what it adds is permitted. -/
theorem Steps.log {P : Action → Prop} {w w' : World} (h : Steps P w w') : Logs P w w' := by
  refine h.keeps (I := fun w' => ∃ new, w'.log = new ++ w.log ∧ ∀ a, Event.own a ∈ new → P a)
    ⟨[], rfl, by simp⟩ (fun _ _ h => h) (fun v a h => ?_) fun v a h _ ha => ?_
  · obtain ⟨new, hl, hn⟩ := h
    cases a with
    | store l bs => exact ⟨_ :: new, by rw [serve, hl]; rfl, by simpa using hn⟩
    | signal fd n => exact ⟨new, hl, hn⟩
  · obtain ⟨new, hl, hn⟩ := h
    refine ⟨.own a :: new, by rw [perform_log, hl]; rfl, fun b hb => ?_⟩
    rcases List.mem_cons.mp hb with e | hb
    · cases e; exact ha
    · exact hn b hb

/-- Where the owner stored last in a field of this kind, and what. -/
def lastStored (f : Field) : List Event → Option (Addr × List UInt8)
  | [] => none
  | .own (.store f' l bs) :: log => if f' = f then some (l, bs) else lastStored f log
  | _ :: log => lastStored f log

lemma lastStored_interfere (f : Field) (w : World) :
    lastStored f w.interfere.log = lastStored f w.log := by
  refine interfere_keeps (I := fun v => lastStored f v.log = lastStored f w.log) rfl
    (fun _ _ h => h) fun v a h => ?_
  cases a with
  | store _ _ | signal _ _ => exact h

/-! ### Background -/

/-- The store that tells the server that data is there. -/
def IsHaveData : Action → Prop
  | .store f _ bs => f = .ioStatus ∧ bs = leBytes 4 BufferStatus.haveData.code
  | _ => False

/-- What a wake of a session with its own record in `r` and its writable intervals in `ivs` does
in the background: it loads, uses eventfds, writes inside `ivs` and the times and the result of
its own record, ends its own cycle and takes its own record out of scheduling. -/
def Waking (r : MemoryInterval) (ivs : List MemoryInterval) : Action → Prop
  | .load _ _ _ _ | .drain _ _ | .signal _ _ | .failedSignal _ _ => True
  | .store f l bs => ¬ IsHaveData (.store f l bs) ∧ ((∃ i ∈ ivs, i.Covers l bs.length) ∨
      ∃ n, 8 ≤ n ∧ n + bs.length ≤ Abi.serverVersion ∧ l = ⟨r.obj, r.start + n⟩)
  | .exchange _ l expected desired seen => seen ≠ expected ∨ (∃ i ∈ ivs, i.Covers l 4) ∨
      l = statusOf r ∧ expected = ActivationStatus.awake.code ∧
        desired = ActivationStatus.finished.code
  | .swap _ l desired _ => l = statusOf r ∧ desired = ActivationStatus.inactive.code
  | _ => False

variable {r : MemoryInterval} {ivs : List MemoryInterval}

lemma Reads.waking {a : Action} (h : Reads a) : Waking r ivs a := by
  cases a <;> trivial

lemma Steps.waking {w w' : World} (h : Steps Reads w w') : Steps (Waking r ivs) w w' :=
  h.mono fun _ => Reads.waking

lemma waking_store {f : Field} {l : Addr} {bs : List UInt8} (hf : f ≠ .ioStatus)
    {i : MemoryInterval} (hi : i ∈ ivs) (hc : i.Covers l bs.length) :
    Waking r ivs (.store f l bs) :=
  ⟨fun h => hf h.1, Or.inl ⟨i, hi, hc⟩⟩

lemma waking_storeWord {ε : Type} {f : Field} {l : Addr} {n v : ℕ} (hf : f ≠ .ioStatus)
    {i : MemoryInterval} (hi : i ∈ ivs) (hc : i.Covers l n) :
    Does (Waking r ivs) (storeWord f l n v : Prog World ε Unit) :=
  does_store (waking_store hf hi (by rwa [leBytes_length]))

end World

/-! ### Eventfds -/

section Eventfds

variable {r : MemoryInterval} {ivs : List MemoryInterval} (k : Kernel) (fd : Fd)

lemma EventFd.does_signal (value : ℕ) : Does (Waking r ivs) (EventFd.signal k fd value) := by
  intro w
  unfold EventFd.signal
  split
  · exact (steps_interfere _ w).tail (.own _ _ trivial trivial)
  · split_ifs
    · exact (steps_interfere _ w).tail (.own _ _ trivial trivial)
    · exact (steps_interfere _ w).tail (.own _ _ trivial trivial)

end Eventfds

/-! ### Activation records -/

section Peers

variable {r : MemoryInterval} {ivs : List MemoryInterval}

lemma ActivationView.covers (v : ActivationView) {field n : ℕ} (h : field + n ≤ Abi.size) :
    v.region.interval.Covers (v.at_ field) n :=
  v.region.covers (by have := v.fits; omega)

lemma ActivationView.does_transition (v : ActivationView) (hv : v.region.interval ∈ ivs)
    (a b : ActivationStatus) : Does (Waking r ivs) (v.transition a b) := by
  unfold transition
  refine (does_compareExchange fun _ => Or.inr (Or.inl ⟨_, hv, v.covers (by decide)⟩)).bind
    fun seen => ?_
  refine Does.ite (fun _ => does_pure _) fun _ => ?_
  exact (does_ofExcept _).bind fun _ => does_fail _

lemma ActivationView.does_decrementLoop (v : ActivationView) (hv : v.region.interval ∈ ivs)
    (nowNs : ℕ) : ∀ (fuel : ℕ) (current : ℤ),
      Does (Waking r ivs) (v.decrementLoop nowNs fuel current) := by
  intro fuel
  induction fuel with
  | zero => exact fun _ => does_fail _
  | succ fuel ih =>
    intro current
    unfold decrementLoop
    refine (does_failIf _ _).bind fun _ => ?_
    refine (does_compareExchange fun _ => Or.inr (Or.inl ⟨_, hv, v.covers (by decide)⟩)).bind
      fun seen => ?_
    refine Does.ite (fun _ => Does.ite (fun _ => does_pure _) fun _ => ?_) fun _ => ih _
    refine (v.does_transition hv _ _).bind fun _ => ?_
    refine (waking_storeWord (by decide) hv (v.covers (by decide))).bind fun _ => does_pure _

lemma PeerActivation.does_trigger (p : PeerActivation) (hp : p.interval ∈ ivs) (k : Kernel)
    (nowNs : ℕ) : Does (Waking r ivs) (p.trigger k nowNs) := by
  intro w
  unfold trigger
  have hview : (ActivationView.fromRawParts p.mapping).Ends w
      (fun v w' => v.region = p.mapping ∧ Steps (Waking r ivs) w w')
      (fun _ w' => Steps (Waking r ivs) w w') :=
    (ActivationView.fromRawParts_ends w p.mapping).mono
      (fun _ _ h => ⟨h.1, h.2.1.mono fun _ => Reads.waking⟩)
      fun _ _ h => h.1.mono fun _ => Reads.waking
  refine ends_state.1 ?_
  simp only [ends_bind, ends_mapErr]
  refine hview.mono (fun v w₁ h => ?_) fun _ _ h => h
  obtain ⟨hv, hs⟩ := h
  have hmem : v.region.interval ∈ ivs := by rw [hv]; exact hp
  have hdec : Does (Waking r ivs) (v.decrementPendingAndTrigger nowNs) := by
    unfold ActivationView.decrementPendingAndTrigger
    refine Does.bind (fun _ => .refl) fun turns => ?_
    exact (does_load fun _ => trivial).bind fun c => v.does_decrementLoop hmem _ _ _
  refine (hdec.ends hs).mono (fun outcome w₂ h₂ => ?_) fun _ _ h => h
  cases outcome with
  | waiting n => exact h₂
  | triggered =>
    simp only [ends_bind, ends_mapErr, ends_pure]
    exact (EventFd.does_signal k p.signal 1).ends h₂

lemma PeerSet.does_triggerFrom (k : Kernel) (nowNs : ℕ) :
    ∀ (l : List (NodeId × PeerActivation)) (first : Option SessionError),
      (∀ e ∈ l, e.2.interval ∈ ivs) → Does (Waking r ivs) (PeerSet.triggerFrom k nowNs first l) := by
  intro l
  induction l with
  | nil =>
    intro first _
    exact does_ofExcept _
  | cons e l ih =>
    intro first h
    obtain ⟨node, peer⟩ := e
    unfold PeerSet.triggerFrom
    refine (Does.attempt (peer.does_trigger (h (node, peer) (by simp)) k nowNs)).bind fun result => ?_
    exact ih _ fun e he => h e (List.mem_cons_of_mem _ he)

lemma PeerSet.does_triggerAll (peers : PeerSet) (h : ∀ i ∈ peers.intervals, i ∈ ivs) (k : Kernel)
    (nowNs : ℕ) : Does (Waking r ivs) (peers.triggerAll k nowNs) :=
  does_triggerFrom k nowNs _ _ fun _ he => h _ (List.mem_map_of_mem he)

end Peers

/-! ### Output buffers -/

/-- A plane is the one of a bound buffer. -/
structure OutputBuffer.Of (b : OutputBuffer) (bound : BoundBuffer) : Prop where
  chunk : b.chunk = ⟨bound.metadata, bound.chunkOffset⟩
  media : b.media = bound.media
  mapOffset : b.mapOffset = 0
  maxSize : b.maxSize = bound.media.len

lemma OutputBuffer.Of.covers {b : OutputBuffer} {bound : BoundBuffer} (h : b.Of bound) {n : ℕ}
    (hn : n ≤ b.capacity) : bound.media.interval.Covers b.mediaAt n := by
  have hplane := b.plane
  have hoff := b.offset_lt
  unfold mediaAt
  rw [h.media] at hplane ⊢
  refine bound.media.covers ?_
  simp only [capacity] at hn
  omega

/-- A cycle is one of a generation: its buffer is the bound one of its ID. -/
structure OutputCycle.Of (c : OutputCycle) (g : OutputGeneration) : Prop where
  format : c.format = g.format
  buffer : ∃ bound, g.buffers[c.bufferId]? = some bound ∧ c.buffer.Of bound

section Output

variable {r : MemoryInterval} {ivs : List MemoryInterval} {g : OutputGeneration} {w : World}

lemma OutputGeneration.outputBuffers_ends : g.outputBuffers.Ends w
    (fun bs w' => Steps Reads w w' ∧
      ∀ (i : ℕ) (b : OutputBuffer), bs[i]? = some b → ∃ bound, g.buffers[i]? = some bound ∧ b.Of bound)
    (fun _ w' => Steps Reads w w') := by
  unfold outputBuffers
  refine (ends_mapList (I := fun done bs w' => Steps Reads w w' ∧ bs.length = done.length ∧
      ∀ (i : ℕ) (b : OutputBuffer), bs[i]? = some b → ∃ bound, done[i]? = some bound ∧ b.Of bound)
    (fun done bound rest bs w₁ _ h => ?_) ⟨.refl, rfl, by simp⟩).mono
    (fun _ _ h => ⟨h.1, h.2.2⟩) fun _ _ h => h
  obtain ⟨hs, hlen, hof⟩ := h
  refine (OutputBuffer.fromRawParts_ends _ _ _ _ _ _ w₁).mono (fun b w₂ h => ?_)
    fun _ _ h => hs.trans h
  obtain ⟨hs', hc, hm, ho, hmax⟩ := h
  refine ⟨hs.trans hs', by simp [hlen], fun i b' hb' => ?_⟩
  rw [List.getElem?_append] at hb' ⊢
  rw [hlen] at hb'
  split_ifs at hb' ⊢ with hi
  · exact hof i b' hb'
  · rw [List.getElem?_singleton] at hb' ⊢
    split_ifs at hb' ⊢
    cases hb'
    exact ⟨bound, rfl, hc, hm, ho, hmax⟩

/-- A cycle is selected only after the IO status was seen to be `NEED_DATA`. -/
lemma select_ends (io : BuffersIoView) (buffers : List OutputBuffer)
    (format : NegotiatedAudioFormat) : (select io buffers format).Ends w
      (fun o w' => Steps Reads w w' ∧ ∀ c, o = some c →
        (∃ new v, w'.log = new ++ w.log ∧
          Event.own (.load .ioStatus (io.region.at_ Abi.ioStatus) 4 v) ∈ new ∧
          asI32 v = BufferStatus.needData.code) ∧
        buffers[c.bufferId]? = some c.buffer ∧ c.format = format)
      (fun _ w' => Steps Reads w w') := by
  unfold select BuffersIoView.state
  simp only [ends_bind, ends_load, ends_pure]
  set w₁ := w.interfere.perform (.load .ioStatus (io.region.at_ Abi.ioStatus) 4
    (w.interfere.mem.word (io.region.at_ Abi.ioStatus) 4)) with hw₁
  have hs₁ : Steps Reads w w₁ := (steps_interfere _ w).tail (.own _ _ rfl trivial)
  set id := w₁.interfere.mem.word (io.region.at_ Abi.ioBufferId) 4
  have hs₂ : Steps Reads w₁ (w₁.interfere.perform
      (.load .ioBufferId (io.region.at_ Abi.ioBufferId) 4 id)) :=
    (steps_interfere _ w₁).tail (.own _ _ rfl trivial)
  rw [ends_ite]
  refine ⟨fun _ => ⟨hs₁.trans hs₂, by simp⟩, fun hst => ?_⟩
  split
  · exact hs₁.trans hs₂
  · rename_i buffer hb
    refine ⟨hs₁.trans hs₂, fun c hc => ?_⟩
    cases hc
    refine ⟨?_, hb, rfl⟩
    obtain ⟨new₀, hl₀, -⟩ := (steps_interfere Reads w).log
    obtain ⟨new, hl, -⟩ := hs₂.log
    refine ⟨new ++ .own (.load .ioStatus (io.region.at_ Abi.ioStatus) 4
      (w.interfere.mem.word (io.region.at_ Abi.ioStatus) 4)) :: new₀, _, ?_, by simp,
      not_not.mp hst⟩
    rw [hl, hw₁, perform_log, hl₀]
    simp

lemma BuffersIoView.fromRawParts_ok {kind : PortIoType} {m : MemoryMapping} {v : BuffersIoView}
    (h : fromRawParts kind m = .ok v) : v.region = m := by
  unfold fromRawParts at h
  split_ifs at h
  split at h
  · simp at h
  · cases h; rfl

lemma OutputGeneration.mem_intervals {bound : BoundBuffer} (h : bound ∈ g.buffers) :
    bound.metadata.interval ∈ g.intervals ∧ bound.media.interval ∈ g.intervals := by
  constructor <;>
    exact List.mem_cons_of_mem _ (List.mem_flatMap.2 ⟨bound, h, by simp⟩)

section Writes

variable {ε : Type} {c : OutputCycle} (hc : c.Of g) (hg : g.Sound)
  (hivs : ∀ i ∈ g.intervals, i ∈ ivs)
include hc hg hivs

lemma OutputCycle.Of.chunk_covers {field : ℕ} (hf : field + 4 ≤ Abi.chunkSize) :
    ∃ i ∈ ivs, i.Covers (c.buffer.chunk.at_ field) 4 := by
  obtain ⟨bound, hb, hof⟩ := hc.buffer
  have hmem := List.mem_of_getElem? hb
  refine ⟨bound.metadata.interval, hivs _ (OutputGeneration.mem_intervals hmem).1, ?_⟩
  rw [hof.chunk]
  refine bound.metadata.covers ?_
  have := hg.chunk_fits bound hmem
  show bound.chunkOffset + field + 4 ≤ _
  omega

omit hg in
lemma OutputCycle.Of.media_covers {n : ℕ} (hn : n ≤ c.capacity) :
    ∃ i ∈ ivs, i.Covers c.buffer.mediaAt n := by
  obtain ⟨bound, hb, hof⟩ := hc.buffer
  have hmem := List.mem_of_getElem? hb
  exact ⟨bound.media.interval, hivs _ (OutputGeneration.mem_intervals hmem).2, hof.covers hn⟩

lemma OutputCycle.Of.does_chunkStore {f : Field} {field v : ℕ} (hne : f ≠ .ioStatus)
    (hf : field + 4 ≤ Abi.chunkSize) :
    Does (Waking r ivs) (storeWord f (c.buffer.chunk.at_ field) 4 v : Prog World ε Unit) := by
  obtain ⟨i, hi, hcov⟩ := hc.chunk_covers hg hivs hf
  exact waking_storeWord hne hi hcov

lemma OutputCycle.Of.does_chunkPublish (st : ChunkState) :
    Does (Waking r ivs) (c.buffer.chunk.publish st : Prog World ε Unit) := by
  unfold ChunkView.publish
  refine (hc.does_chunkStore hg hivs (by decide) (by decide)).bind fun _ => ?_
  refine (hc.does_chunkStore hg hivs (by decide) (by decide)).bind fun _ => ?_
  refine (hc.does_chunkStore hg hivs (by decide) (by decide)).bind fun _ => ?_
  exact hc.does_chunkStore hg hivs (by decide) (by decide)

lemma OutputCycle.Of.does_abort :
    Does (Waking r ivs) (c.buffer.abort : Prog World ε Unit) := by
  unfold OutputBuffer.abort
  exact ((c.buffer.chunk.does_state).mono fun _ => Reads.waking).bind fun st =>
    hc.does_chunkPublish hg hivs _

omit hc hg in
lemma BuffersIoView.does_publishNeedData {io : BuffersIoView} (hio : io.region = g.io) (id : ℕ) :
    Does (Waking r ivs) (io.publishNeedData id : Prog World ε Unit) := by
  have hmem : io.region.interval ∈ ivs := by rw [hio]; exact hivs _ (List.mem_cons_self ..)
  have hlen := io.size_eq
  refine (waking_storeWord (by decide) hmem (io.region.covers ?_)).bind fun _ => does_store ?_
  · rw [hlen]; decide
  · refine ⟨fun h => by simp [IsHaveData] at h; revert h; decide, Or.inl ⟨_, hmem, ?_⟩⟩
    rw [leBytes_length]
    exact io.region.covers (by rw [hlen]; decide)

end Writes

/-! ### One cycle -/

/-- A cycle has been selected: `NEED_DATA` was seen, and nothing was done but background. -/
structure Selected (r : MemoryInterval) (ivs : List MemoryInterval) (g : OutputGeneration)
    (c : OutputCycle) (w w' : World) : Prop where
  cycle : c.Of g
  steps : Steps (Waking r ivs) w w'
  seen : ∃ new v, w'.log = new ++ w.log ∧
    Event.own (.load .ioStatus (g.io.at_ Abi.ioStatus) 4 v) ∈ new ∧
    asI32 v = BufferStatus.needData.code

/-- The token has been stored as the chunk of the cycle, and its buffer in the IO record. -/
structure Announced (g : OutputGeneration) (c : OutputCycle) (t : CommittedOutput) (w : World) :
    Prop where
  offset : lastStored .chunkOffset w.log =
    some (c.buffer.chunk.at_ Abi.chunkOffset, leBytes 4 c.buffer.dataOffset)
  size : lastStored .chunkSize w.log =
    some (c.buffer.chunk.at_ Abi.chunkDataSize, leBytes 4 t.bytesUsed)
  stride : lastStored .chunkStride w.log =
    some (c.buffer.chunk.at_ Abi.chunkStride, leBytes 4 (ofI32 t.stride))
  bufferId : lastStored .ioBufferId w.log = some (g.io.at_ Abi.ioBufferId, leBytes 4 t.bufferId)
  names : t.bufferId = c.bufferId

/-- The ways through one claimed cycle. -/
inductive Processed (r : MemoryInterval) (ivs : List MemoryInterval) (g : OutputGeneration) :
    World → World → Prop
  | idle {w w' : World} : Steps (Waking r ivs) w w' → Processed r ivs g w w'
  | called {w w₁ w' : World} (c : OutputCycle) (handed : Handed) : Selected r ivs g c w w₁ →
      Steps (Waking r ivs) (w₁.perform (.callback c.bufferId handed)) w' →
      Processed r ivs g w w'
  | published {w w₁ w₂ w' : World} (c : OutputCycle) (t : CommittedOutput) :
      Selected r ivs g c w w₁ → Steps (Waking r ivs) (w₁.perform (.callback c.bufferId
        (c.handed (.returned (.ok t))))) w₂ → Announced g c t w₂ →
      (∃ i ∈ ivs, i.Covers (g.io.at_ Abi.ioStatus) 4) →
      Steps (Waking r ivs) (w₂.perform (.store .ioStatus (g.io.at_ Abi.ioStatus)
        (leBytes 4 BufferStatus.haveData.code))) w' →
      Processed r ivs g w w'

lemma ChunkView.publish_ends {ε : Type} (v : ChunkView) (st : ChunkState) :
    (v.publish st : Prog World ε Unit).Ends w
      (fun _ w' => lastStored .chunkOffset w'.log =
          some (v.at_ Abi.chunkOffset, leBytes 4 st.offset) ∧
        lastStored .chunkSize w'.log = some (v.at_ Abi.chunkDataSize, leBytes 4 st.size) ∧
        lastStored .chunkStride w'.log =
          some (v.at_ Abi.chunkStride, leBytes 4 (ofI32 st.stride)))
      (fun _ _ => False) := by
  simp [publish, storeWord, lastStored, lastStored_interfere]

variable {callback : OutputProcess}

lemma OutputGeneration.processCycle_ends (hg : g.Sound) (hivs : ∀ i ∈ g.intervals, i ∈ ivs)
    {io : BuffersIoView} (hio : io.region = g.io) (count : ℕ) {c : OutputCycle} {w₀ : World}
    (hsel : Selected r ivs g c w₀ w) :
    (processCycle io count callback c).Ends w
      (fun _ w' => Processed r ivs g w₀ w')
      (fun _ w' => Processed r ivs g w₀ (abortSelected io c w').2) := by
  have hc := hsel.cycle
  have habort : Does (Waking r ivs) (abortSelected io c) := by
    unfold abortSelected
    exact (hc.does_abort hg hivs).bind fun _ => BuffersIoView.does_publishNeedData hivs hio _
  have hmem : io.region.interval ∈ ivs := by rw [hio]; exact hivs _ (List.mem_cons_self ..)
  have hlen := io.size_eq
  unfold processCycle runCallback
  simp only [ends_bind, ends_access, ends_store, ends_pure]
  -- the callback runs on what the server left, and its bytes are stored
  set w₁ := w.interfere with hw₁
  have hsel₁ : Selected r ivs g c w₀ w₁ := by
    obtain ⟨new, v, hl, hmem, hv⟩ := hsel.seen
    obtain ⟨new', hl', -⟩ := (steps_interfere (Waking r ivs) w).log
    exact ⟨hc, hsel.steps.trans (steps_interfere _ w),
      new' ++ new, v, by rw [hl', hl]; simp, List.mem_append_right _ hmem, hv⟩
  generalize callback.answer c _ = back
  obtain ⟨bytes, back⟩ := back
  set w₂ := (w₁.perform (.callback c.bufferId (c.handed back))).interfere.perform
    (.store .media c.buffer.mediaAt (bytes.take c.capacity)) with hw₂
  have hs₂ : Steps (Waking r ivs) (w₁.perform (.callback c.bufferId (c.handed back))) w₂ := by
    obtain ⟨i, hi, hcov⟩ := hc.media_covers hivs
      (n := (bytes.take c.capacity).length) (by rw [List.length_take]; exact Nat.min_le_left _ _)
    exact (steps_interfere _ _).tail (.own _ _ trivial (waking_store (by decide) hi hcov))
  have hfail : Processed r ivs g w₀ (abortSelected io c w₂).2 :=
    .called c _ hsel₁ (hs₂.trans (habort w₂))
  cases back with
  | panicked => exact hfail
  | returned res =>
    cases res with
    | error message => exact hfail
    | ok t =>
      simp only [publishCommitted, OutputBuffer.publish, BuffersIoView.publishHaveData,
        BuffersIoView.publish, storeWord, ends_mapErr, ends_bind, ends_failIf,
        ends_store, ends_pure]
      refine ⟨fun _ => hfail, fun hid => ⟨fun _ => hfail, fun _ => ?_⟩⟩
      have hchunk := (ChunkView.publish_ends (ε := PortError) (w := w₂) c.buffer.chunk
        ⟨c.buffer.dataOffset, t.bytesUsed, t.stride, t.flags⟩).and
          ((hc.does_chunkPublish hg hivs _).ends (P := Waking r ivs) .refl)
      refine hchunk.mono (fun _ w₃ h => ?_) fun _ _ h => h.1.elim
      obtain ⟨⟨hoff, hsize, hstride⟩, hs₃⟩ := h
      have hat : io.region.at_ Abi.ioStatus = g.io.at_ Abi.ioStatus := by rw [hio]
      rw [hat]
      have hid' : Waking r ivs (.store .ioBufferId (io.region.at_ Abi.ioBufferId)
          (leBytes 4 t.bufferId)) := by
        refine waking_store (by decide) hmem (io.region.covers ?_)
        rw [hlen, leBytes_length]; decide
      have hs₄ := ((steps_interfere (Waking r ivs) w₃).tail (.own _ _ (by trivial) hid')).trans
        (steps_interfere _ _)
      refine .published c t hsel₁ (hs₂.trans (hs₃.trans hs₄)) ?_ ?_ .refl
      · refine ⟨?_, ?_, ?_, ?_, not_not.mp hid⟩ <;>
          simp [lastStored_interfere, lastStored, hoff, hsize, hstride, hio]
      · rw [← hat]
        exact ⟨_, hmem, io.region.covers (by rw [hlen]; decide)⟩

theorem OutputGeneration.process_ends (hg : g.Sound) (hivs : ∀ i ∈ g.intervals, i ∈ ivs) :
    (g.process callback).Ends w (fun _ w' => Processed r ivs g w w')
      (fun _ w' => Processed r ivs g w w') := by
  unfold process
  simp only [ends_bind, ends_mapErr, ends_ofExcept]
  split
  case h_2 => exact .idle .refl
  rename_i io hio
  have hio' := BuffersIoView.fromRawParts_ok hio
  refine g.outputBuffers_ends.mono (fun bs w₁ h => ?_)
    fun _ _ h => .idle (Steps.waking h)
  obtain ⟨hs₁, hof⟩ := h
  refine (select_ends io bs g.format).mono (fun o w₂ h => ?_)
    fun _ _ h => .idle (Steps.waking (hs₁.trans h))
  obtain ⟨hs₂, hsel⟩ := h
  cases o with
  | none => exact .idle (Steps.waking (hs₁.trans hs₂))
  | some c =>
    obtain ⟨⟨new, v, hl, hmem, hv⟩, hbuf, hfmt⟩ := hsel c rfl
    obtain ⟨new', hl', -⟩ := hs₁.log
    have hc : c.Of g := ⟨hfmt, hof _ _ hbuf⟩
    rw [hio'] at hmem
    have hsel' : Selected r ivs g c w w₂ := ⟨hc, Steps.waking (hs₁.trans hs₂),
      new ++ new', v, by rw [hl, hl']; simp, List.mem_append_left _ hmem, hv⟩
    simp only [ends_bind, ends_onFail, ends_pure]
    exact OutputGeneration.processCycle_ends hg hivs hio' _ hsel'

lemma OutputGeneration.does_abortPublished (hg : g.Sound) (hivs : ∀ i ∈ g.intervals, i ∈ ivs) :
    Does (Waking r ivs) g.abortPublished := by
  intro w
  unfold abortPublished
  refine ends_state.1 ?_
  simp only [ends_bind, ends_mapErr, ends_ofExcept]
  split
  case h_2 => exact .refl
  rename_i io hio
  have hio' := BuffersIoView.fromRawParts_ok hio
  have hstate : Does (Waking r ivs) (io.state : Prog World SessionError _) := by
    unfold BuffersIoView.state
    refine (does_load fun _ => trivial).bind fun _ => ?_
    exact (does_load fun _ => trivial).bind fun _ => does_pure _
  refine (hstate.ends .refl).mono (fun st w₁ h₁ => ?_) fun _ _ h => h
  rw [ends_ite]
  refine ⟨fun _ => h₁, fun _ => ?_⟩
  split
  · exact h₁
  · rename_i bound hb
    simp only [ends_bind, ends_mapErr]
    refine (OutputBuffer.fromRawParts_ends _ _ _ _ _ _ w₁).mono (fun b w₂ h => ?_)
      fun _ _ h => h₁.trans (Steps.waking h)
    obtain ⟨hs, hchunk, hmedia, hoff, hmax⟩ := h
    let c : OutputCycle := ⟨b, st.bufferId, g.format⟩
    have hc : c.Of g := ⟨rfl, bound, hb, hchunk, hmedia, hoff, hmax⟩
    have hdo : Does (Waking r ivs) (do b.abort; io.publishNeedData st.bufferId :
        Prog World SessionError Unit) :=
      (hc.does_abort hg hivs).bind fun _ => BuffersIoView.does_publishNeedData hivs hio' _
    have hend := hdo.ends (h₁.trans (Steps.waking hs))
    rwa [ends_bind] at hend

end Output

/-! ### One wake -/

/-- The ways through a wake: nothing is claimed, or one cycle is claimed and processed. -/
inductive Wakes (r : MemoryInterval) (ivs : List MemoryInterval) (g : OutputGeneration) :
    World → World → Prop
  | idle {w w' : World} : Steps (Waking r ivs) w w' → Wakes r ivs g w w'
  | cycle {w w₁ w₂ w₃ w₄ w' : World} : Steps (Waking r ivs) w w₁ →
      Moved r .triggered .awake w₁ w₂ → Steps (Waking r ivs) w₂ w₃ →
      Processed r ivs g w₃ w₄ → Steps (Waking r ivs) w₄ w' → Wakes r ivs g w w'

section Wakes

variable {r : MemoryInterval} {ivs : List MemoryInterval} {g : OutputGeneration}
  {w w₀ w' : World}

lemma Wakes.tail (h : Wakes r ivs g w w₀) (h' : Steps (Waking r ivs) w₀ w') :
    Wakes r ivs g w w' := by
  cases h with
  | idle hs => exact .idle (hs.trans h')
  | cycle h₁ h₂ h₃ h₄ h₅ => exact .cycle h₁ h₂ h₃ h₄ (h₅.trans h')

end Wakes

/-- What a wake leaves: the same system, when there is no transport or the wake is tagged with
another generation; the same session, when it drained in vain; or the session of before, running
or failed, after a cycle. -/
inductive Woke (wake : Owner.Wake) (s : Sys) : SessionState → Sys → Prop
  | ignored : (∀ t, s.session.transport = some t → t.id ≠ wake.generation) →
      Woke wake s s.session.state s
  | drained (t : TransportGeneration) (w : World) : s.session.transport = some t →
      t.id = wake.generation → Steps (Waking t.interval []) s.world w →
      Woke wake s s.session.state ⟨s.session, w⟩
  | cycle (t : TransportGeneration) (g : OutputGeneration) (state : SessionState) (w : World) :
      s.session.transport = some t → t.id = wake.generation → s.session.state = .running →
      s.session.output = some g →
      Wakes t.interval (g.intervals ++ s.session.peers.intervals) g s.world w →
      Woke wake s state ⟨{ s.session with state := state }, w⟩

end PipewireNative.Node
