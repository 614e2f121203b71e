import PipewireNative.Node.Publish
import PipewireNative.Node.Spared
import Mathlib.Data.List.Pairwise

/-!
What a cycle leaves in the IO record and in the chunk of the buffer it selected, while the server
spares both: a publication, or the selection taken back.
-/

namespace PipewireNative.Node

open Lib Lib.Word Prog World

/-! ### Chunks and IO records as parts of memory -/

def ChunkView.write (v : ChunkView) (st : ChunkState) (m : Shm) : Shm :=
  (((m.setWord (v.at_ Abi.chunkOffset) 4 st.offset).setWord (v.at_ Abi.chunkDataSize) 4
    st.size).setWord (v.at_ Abi.chunkStride) 4 (ofI32 st.stride)).setWord (v.at_ Abi.chunkFlags) 4
      st.flags

def ChunkView.span (v : ChunkView) : MemoryInterval := storeSpan (v.at_ 0) Abi.chunkSize

def ioWrite (io : MemoryMapping) (status : BufferStatus) (id : ℕ) (m : Shm) : Shm :=
  (m.setWord (io.at_ Abi.ioBufferId) 4 id).setWord (io.at_ Abi.ioStatus) 4 status.code

def BoundBuffer.chunk (b : BoundBuffer) : ChunkView := ⟨b.metadata, b.chunkOffset⟩

section Words

variable {v : ChunkView} {st : ChunkState} {m : Shm} {io : MemoryMapping} {status : BufferStatus}
  {id : ℕ}

lemma BufferStatus.code_lt (s : BufferStatus) : s.code < 256 ^ 4 := by cases s <;> decide

lemma ChunkView.covers (v : ChunkView) {field : ℕ} (h : field + 4 ≤ Abi.chunkSize) :
    v.span.Covers (v.at_ field) 4 := by
  refine ⟨rfl, ?_, ?_⟩ <;> simp only [span, storeSpan, at_, MemoryMapping.at_] <;> omega

lemma ChunkView.apart_fields (v : ChunkView) {f f' : ℕ} (h : f + 4 ≤ f' ∨ f' + 4 ≤ f) :
    Apart (v.at_ f) 4 (v.at_ f') 4 := by
  intro _
  simp only [at_, MemoryMapping.at_]
  omega

lemma ChunkView.write_offset (h : st.offset < 2 ^ 32) :
    (v.write st m).word (v.at_ Abi.chunkOffset) 4 = st.offset := by
  unfold write
  rw [Memory.word_setWord_apart (v.apart_fields (by decide)),
    Memory.word_setWord_apart (v.apart_fields (by decide)),
    Memory.word_setWord_apart (v.apart_fields (by decide)), Memory.word_setWord_same h]

lemma ChunkView.write_size (h : st.size < 2 ^ 32) :
    (v.write st m).word (v.at_ Abi.chunkDataSize) 4 = st.size := by
  unfold write
  rw [Memory.word_setWord_apart (v.apart_fields (by decide)),
    Memory.word_setWord_apart (v.apart_fields (by decide)), Memory.word_setWord_same h]

lemma ChunkView.write_stride :
    (v.write st m).word (v.at_ Abi.chunkStride) 4 = ofI32 st.stride := by
  unfold write
  rw [Memory.word_setWord_apart (v.apart_fields (by decide)),
    Memory.word_setWord_same (ofI32_lt _)]

lemma ChunkView.write_agree {r : MemoryInterval} (h : r.Disjoint v.span) :
    Memory.Agree r (v.write st m) m := by
  have hfield : ∀ {field n}, field + 4 ≤ Abi.chunkSize →
      r.Disjoint ⟨(v.at_ field).obj, (v.at_ field).addr, (v.at_ field).addr + (leBytes 4 n).length⟩ := by
    intro field n hf ho
    have := h ho
    rw [leBytes_length]
    simp only [span, storeSpan, at_, MemoryMapping.at_] at this ⊢
    omega
  unfold write Memory.setWord
  refine Memory.Agree.write_beside ?_ (hfield (by decide))
  refine Memory.Agree.write_beside ?_ (hfield (by decide))
  refine Memory.Agree.write_beside ?_ (hfield (by decide))
  exact Memory.Agree.write_beside (.refl r m) (hfield (by decide))

lemma ioWrite_status : (ioWrite io status id m).word (io.at_ Abi.ioStatus) 4 = status.code :=
  Memory.word_setWord_same status.code_lt

lemma ioWrite_bufferId (h : id < 2 ^ 32) :
    (ioWrite io status id m).word (io.at_ Abi.ioBufferId) 4 = id := by
  unfold ioWrite
  rw [Memory.word_setWord_apart, Memory.word_setWord_same h]
  intro _
  simp only [MemoryMapping.at_, Abi.ioStatus, Abi.ioBufferId]
  omega

lemma ioWrite_agree {r : MemoryInterval} (hlen : io.len = Abi.ioBuffersSize)
    (h : r.Disjoint io.interval) : Memory.Agree r (ioWrite io status id m) m := by
  have hfield : ∀ {field n}, field + 4 ≤ Abi.ioBuffersSize → r.Disjoint
      ⟨(io.at_ field).obj, (io.at_ field).addr, (io.at_ field).addr + (leBytes 4 n).length⟩ := by
    intro field n hf ho
    have := h ho
    rw [leBytes_length]
    simp only [MemoryMapping.interval, MemoryMapping.at_, MemoryMapping.len] at this hlen ⊢
    omega
  unfold ioWrite Memory.setWord
  refine Memory.Agree.write_beside ?_ (hfield (by decide))
  exact Memory.Agree.write_beside (.refl r m) (hfield (by decide))

end Words

/-! ### The accesses while the server spares their places -/

section Accesses

variable {ivs : List MemoryInterval} {m : Shm} {ids : List (ℕ × Handed)} {w : World} {ε : Type}

lemma ChunkView.state_on {v : ChunkView} (hv : v.span ∈ ivs) (hw : On ivs m ids w) :
    (v.state : Prog World ε ChunkState).Ends w (fun st w' => st = v.read m ∧ On ivs m ids w')
      (fun _ _ => False) := by
  unfold state
  simp only [ends_bind, ends_pure]
  refine hw.ends_load hv (v.covers (by decide)) fun w₁ hw₁ => ?_
  refine hw₁.ends_load hv (v.covers (by decide)) fun w₂ hw₂ => ?_
  refine hw₂.ends_load hv (v.covers (by decide)) fun w₃ hw₃ => ?_
  exact hw₃.ends_load hv (v.covers (by decide)) fun w₄ hw₄ => ⟨rfl, hw₄⟩

lemma ChunkView.publish_on (v : ChunkView) (st : ChunkState) (hw : On ivs m ids w) :
    (v.publish st : Prog World ε Unit).Ends w (fun _ w' => On ivs (v.write st m) ids w')
      (fun _ _ => False) := by
  unfold publish
  simp only [ends_bind]
  refine hw.ends_storeWord fun w₁ hw₁ => hw₁.ends_storeWord fun w₂ hw₂ =>
    hw₂.ends_storeWord fun w₃ hw₃ => hw₃.ends_storeWord fun w₄ hw₄ => hw₄

lemma OutputBuffer.abort_on {b : OutputBuffer} (hb : b.chunk.span ∈ ivs) (hw : On ivs m ids w) :
    (b.abort : Prog World ε Unit).Ends w
      (fun _ w' => On ivs (b.chunk.write { b.chunk.read m with size := 0 } m) ids w')
      (fun _ _ => False) := by
  unfold abort
  rw [ends_bind]
  refine (ChunkView.state_on hb hw).mono (fun st w₁ h => ?_) fun _ _ h => h
  rw [h.1]
  exact b.chunk.publish_on _ h.2

variable {io : BuffersIoView}

lemma BuffersIoView.covers (io : BuffersIoView) {field : ℕ} (h : field + 4 ≤ Abi.ioBuffersSize) :
    io.region.interval.Covers (io.region.at_ field) 4 :=
  io.region.covers (by rw [io.size_eq]; exact h)

lemma BuffersIoView.state_on (hio : io.region.interval ∈ ivs) (hw : On ivs m ids w) :
    (io.state : Prog World ε BuffersIoState).Ends w
      (fun st w' => st = ⟨asI32 (m.word (io.region.at_ Abi.ioStatus) 4),
        m.word (io.region.at_ Abi.ioBufferId) 4⟩ ∧ On ivs m ids w') (fun _ _ => False) := by
  unfold state
  simp only [ends_bind, ends_pure]
  refine hw.ends_load hio (io.covers (by decide)) fun w₁ hw₁ => ?_
  exact hw₁.ends_load hio (io.covers (by decide)) fun w₂ hw₂ => ⟨rfl, hw₂⟩

lemma BuffersIoView.publish_on (io : BuffersIoView) (status : BufferStatus) (id : ℕ)
    (hw : On ivs m ids w) : (io.publish status id : Prog World ε Unit).Ends w
      (fun _ w' => On ivs (ioWrite io.region status id m) ids w') (fun _ _ => False) := by
  unfold publish
  simp only [ends_bind]
  exact hw.ends_storeWord fun w₁ hw₁ => hw₁.ends_storeWord fun w₂ hw₂ => hw₂

lemma select_on (hio : io.region.interval ∈ ivs) (buffers : List OutputBuffer)
    (format : NegotiatedAudioFormat) (hw : On ivs m ids w) : (select io buffers format).Ends w
      (fun o w' => On ivs m ids w' ∧ (o = none ↔
          asI32 (m.word (io.region.at_ Abi.ioStatus) 4) ≠ BufferStatus.needData.code) ∧
        ∀ c, o = some c → c.bufferId = m.word (io.region.at_ Abi.ioBufferId) 4 ∧
          buffers[c.bufferId]? = some c.buffer ∧ c.format = format)
      (fun _ w' => On ivs m ids w' ∧
        asI32 (m.word (io.region.at_ Abi.ioStatus) 4) = BufferStatus.needData.code ∧
        buffers[m.word (io.region.at_ Abi.ioBufferId) 4]? = none) := by
  unfold select
  rw [ends_bind]
  refine (BuffersIoView.state_on hio hw).mono (fun st w₁ h => ?_) fun _ _ h => h.elim
  obtain ⟨rfl, hw₁⟩ := h
  rw [ends_ite]
  refine ⟨fun hst => ⟨hw₁, by simpa using hst, by simp⟩, fun hst => ?_⟩
  have hst' := not_not.mp hst
  split
  · rename_i hnone
    exact ⟨hw₁, hst', hnone⟩
  · rename_i b hb
    refine ⟨hw₁, by simpa using hst', fun c hc => ?_⟩
    cases hc
    exact ⟨rfl, hb, rfl⟩

end Accesses

/-! ### Selections taken back and publications -/

namespace OutputGeneration

variable (g : OutputGeneration)

/-- The selection of a buffer has been taken back: the IO record, which the checks accept, asks
for its data, and its chunk is empty. -/
structure Vacated (id : ℕ) (m : Shm) : Prop where
  view : ∃ io, BuffersIoView.fromRawParts .buffers g.io = .ok io
  status : m.word (g.io.at_ Abi.ioStatus) 4 = BufferStatus.needData.code
  bufferId : m.word (g.io.at_ Abi.ioBufferId) 4 = id
  size : ∀ b, g.buffers[id]? = some b → m.word (b.chunk.at_ Abi.chunkDataSize) 4 = 0

/-- The IO record announces a buffer, and the checks accept both the record and the chunk. -/
structure Presents (id : ℕ) (m : Shm) : Prop where
  view : ∃ io, BuffersIoView.fromRawParts .buffers g.io = .ok io
  status : m.word (g.io.at_ Abi.ioStatus) 4 = BufferStatus.haveData.code
  bufferId : m.word (g.io.at_ Abi.ioBufferId) 4 = id
  plane : ∃ b, g.buffers[id]? = some b ∧ PlaneAccepted m b.metadata b.chunkOffset b.media

/-- Nothing was changed but in the intervals of the output. -/
def Confines (m m' : Shm) : Prop :=
  ∀ r : MemoryInterval, (∀ i ∈ g.intervals, r.Disjoint i) → Memory.Agree r m' m

/-- Memory after a selection has been taken back. -/
def vacate (b : BoundBuffer) (id : ℕ) (m : Shm) : Shm :=
  ioWrite g.io .needData id (b.chunk.write { b.chunk.read m with size := 0 } m)

variable {g} {b : BoundBuffer} {id : ℕ} {m m' : Shm}

lemma Sound.beside_chunk (hg : g.Sound) (hb : b ∈ g.buffers) {r : MemoryInterval}
    (h : r.Disjoint b.metadata.interval) : r.Disjoint b.chunk.span := by
  have hfit := hg.chunk_fits b hb
  intro ho
  have := h ho
  simp only [ChunkView.span, storeSpan, ChunkView.at_, MemoryMapping.at_, BoundBuffer.chunk,
    MemoryMapping.interval, MemoryMapping.len] at this hfit ⊢
  omega

lemma Sound.io_beside_chunk (hg : g.Sound) (hb : b ∈ g.buffers) :
    b.chunk.span.Disjoint g.io.interval := by
  refine Span.Disjoint.symm (hg.beside_chunk hb ?_)
  exact (List.pairwise_cons.1 hg.disjoint).1 _
    (List.mem_flatMap.2 ⟨b, hb, List.mem_cons_self ..⟩)

lemma Sound.metadata_media (hg : g.Sound) {b' : BoundBuffer} (hb : b ∈ g.buffers)
    (hb' : b' ∈ g.buffers) : b.metadata.interval.Disjoint b'.media.interval := by
  obtain ⟨hsame, hdiff⟩ := List.pairwise_flatMap.1 (List.pairwise_cons.1 hg.disjoint).2
  let R : BoundBuffer → BoundBuffer → Prop := fun b b' =>
    b.metadata.interval.Disjoint b'.media.interval ∧
      b'.metadata.interval.Disjoint b.media.interval
  have : Std.Symm R := ⟨fun _ _ h => ⟨h.2, h.1⟩⟩
  have hself : ∀ a ∈ g.buffers, R a a := fun a ha => by
    have := (List.pairwise_cons.1 (hsame a ha)).1 a.media.interval (by simp)
    exact ⟨this, this⟩
  have hpair : g.buffers.Pairwise R :=
    hdiff.imp fun h => ⟨h _ (by simp) _ (by simp), (h _ (by simp) _ (by simp)).symm⟩
  exact (hpair.forall_of_forall hself hb hb').1

lemma Sound.confines_write (hg : g.Sound) (hlen : g.io.len = Abi.ioBuffersSize)
    (hb : b ∈ g.buffers) (st : ChunkState) (status : BufferStatus) :
    g.Confines m (ioWrite g.io status id (b.chunk.write st m)) := by
  intro r hr
  refine (ioWrite_agree hlen (hr _ (List.mem_cons_self ..))).trans (ChunkView.write_agree ?_)
  exact hg.beside_chunk hb (hr _ (mem_intervals hb).1)

lemma Sound.read_ioWrite (hg : g.Sound) (hlen : g.io.len = Abi.ioBuffersSize)
    (hb : b ∈ g.buffers) (status : BufferStatus) {field : ℕ} (hf : field + 4 ≤ Abi.chunkSize) :
    (ioWrite g.io status id m).word (b.chunk.at_ field) 4 = m.word (b.chunk.at_ field) 4 :=
  (ioWrite_agree hlen (hg.io_beside_chunk hb)).word (b.chunk.covers hf)

lemma len_of_view {io : BuffersIoView} (h : BuffersIoView.fromRawParts .buffers g.io = .ok io) :
    g.io.len = Abi.ioBuffersSize := by
  rw [← BuffersIoView.fromRawParts_ok h]
  exact io.size_eq

lemma Sound.vacated (hg : g.Sound) {io : BuffersIoView}
    (hio : BuffersIoView.fromRawParts .buffers g.io = .ok io) (hb : g.buffers[id]? = some b)
    (hid : id < 2 ^ 32) : g.Vacated id (g.vacate b id m) where
  view := ⟨io, hio⟩
  status := ioWrite_status
  bufferId := ioWrite_bufferId hid
  size := by
    intro b' hb'
    obtain rfl : b = b' := Option.some.inj (hb.symm.trans hb')
    unfold vacate
    rw [hg.read_ioWrite (len_of_view hio) (List.mem_of_getElem? hb) _ (by decide)]
    exact ChunkView.write_size (by simp)

/-- A token that fits its cycle is published as a chunk the checks accept. -/
lemma Sound.presents (hg : g.Sound) {io : BuffersIoView}
    (hio : BuffersIoView.fromRawParts .buffers g.io = .ok io) {c : OutputCycle}
    (hb : g.buffers[c.bufferId]? = some b) (hof : c.buffer.Of b)
    (halign : 4 ∣ b.metadata.offset + b.chunkOffset) (hid : c.bufferId < 2 ^ 32)
    {t : CommittedOutput} (hfit : c.Fits t) (hmax : t.stride ≤ c.buffer.maxSize)
    (hi32 : t.stride ≤ i32Max) : g.Presents c.bufferId (ioWrite g.io .haveData c.bufferId
      (b.chunk.write ⟨c.buffer.dataOffset, t.bytesUsed, t.stride, t.flags⟩ m)) where
  view := ⟨io, hio⟩
  status := ioWrite_status
  bufferId := ioWrite_bufferId hid
  plane := by
    have hmem := List.mem_of_getElem? hb
    have hlen := len_of_view hio
    have hlt := c.buffer.offset_lt
    have hle := c.buffer.maxSize_le
    have hsize := hfit.2
    have hbytes := t.bytesUsed_le
    simp only [OutputCycle.capacity, OutputBuffer.capacity] at hsize
    rw [hof.maxSize] at hlt hle hsize hmax
    unfold u32Max at hle hbytes
    unfold i32Max at hi32
    refine ⟨b, hb, halign, by unfold u32Max; omega, ?_⟩
    set st : ChunkState := ⟨c.buffer.dataOffset, t.bytesUsed, t.stride, t.flags⟩ with hst
    have hoffset : (b.chunk.write st m).word (b.chunk.at_ Abi.chunkOffset) 4 =
        c.buffer.dataOffset := ChunkView.write_offset (by simp only [hst]; omega)
    have hdata : (b.chunk.write st m).word (b.chunk.at_ Abi.chunkDataSize) 4 = t.bytesUsed :=
      ChunkView.write_size (by simp only [hst]; omega)
    have hstride : asI32 ((b.chunk.write st m).word (b.chunk.at_ Abi.chunkStride) 4) = t.stride := by
      rw [ChunkView.write_stride]
      exact asI32_ofI32 (by simp only [hst]; omega) (by simp only [hst]; omega)
    simp only [OutputBuffer.checkChunk, except_bind_eq_ok, rejectIf_eq_ok, exists_const]
    simp only [ChunkView.read, show (⟨b.metadata, b.chunkOffset⟩ : ChunkView) = b.chunk from rfl]
    rw [hg.read_ioWrite hlen hmem _ (by decide), hg.read_ioWrite hlen hmem _ (by decide),
      hg.read_ioWrite hlen hmem _ (by decide), hoffset, hdata, hstride, Nat.mod_eq_of_lt hlt]
    omega

section Agree

variable (hg : g.Sound) (ha : ∀ i ∈ g.intervals, Memory.Agree i m' m)
include ha

lemma io_word_of_agree (hview : ∃ io, BuffersIoView.fromRawParts .buffers g.io = .ok io)
    {field : ℕ} (hf : field + 4 ≤ Abi.ioBuffersSize) :
    m'.word (g.io.at_ field) 4 = m.word (g.io.at_ field) 4 := by
  obtain ⟨io, hio⟩ := hview
  refine (ha _ (List.mem_cons_self ..)).word (g.io.covers ?_)
  rw [len_of_view hio]
  exact hf

include hg

lemma chunk_word_of_agree (hb : b ∈ g.buffers) {field : ℕ} (hf : field + 4 ≤ Abi.chunkSize) :
    m'.word (b.chunk.at_ field) 4 = m.word (b.chunk.at_ field) 4 := by
  refine (ha _ (mem_intervals hb).1).word (b.metadata.covers ?_)
  have := hg.chunk_fits b hb
  simp only [BoundBuffer.chunk]
  omega

/-- What the intervals of the output hold decides whether a selection has been taken back. -/
lemma Vacated.of_agree (h : g.Vacated id m) : g.Vacated id m' where
  view := h.view
  status := by rw [io_word_of_agree ha h.view (by decide)]; exact h.status
  bufferId := by rw [io_word_of_agree ha h.view (by decide)]; exact h.bufferId
  size b hb := by
    rw [chunk_word_of_agree hg ha (List.mem_of_getElem? hb) (by decide)]
    exact h.size b hb

lemma Presents.of_agree (h : g.Presents id m) : g.Presents id m' where
  view := h.view
  status := by rw [io_word_of_agree ha h.view (by decide)]; exact h.status
  bufferId := by rw [io_word_of_agree ha h.view (by decide)]; exact h.bufferId
  plane := by
    obtain ⟨b, hb, halign, hbound, hchunk⟩ := h.plane
    have hmem := List.mem_of_getElem? hb
    refine ⟨b, hb, halign, hbound, ?_⟩
    have hread : ChunkView.read ⟨b.metadata, b.chunkOffset⟩ m' =
        ChunkView.read ⟨b.metadata, b.chunkOffset⟩ m := by
      show b.chunk.read m' = b.chunk.read m
      unfold ChunkView.read
      rw [chunk_word_of_agree hg ha hmem (by decide), chunk_word_of_agree hg ha hmem (by decide),
        chunk_word_of_agree hg ha hmem (by decide), chunk_word_of_agree hg ha hmem (by decide)]
    rw [hread]
    exact hchunk

end Agree

end OutputGeneration

/-! ### One cycle -/

/-- The intervals hold the IO record and the chunk of the buffer `id`, and no media. -/
structure OutputGeneration.Watched (g : OutputGeneration) (id : ℕ) (ivs : List MemoryInterval) :
    Prop where
  io : g.io.interval ∈ ivs
  chunk : ∀ b, g.buffers[id]? = some b → b.chunk.span ∈ ivs
  media : ∀ i ∈ ivs, ∀ b ∈ g.buffers, i.Disjoint b.media.interval

section Cycle

variable {g : OutputGeneration} {ivs : List MemoryInterval} {m : Shm} {ids : List (ℕ × Handed)} {w : World}
  {io : BuffersIoView} {c : OutputCycle} {b : BoundBuffer} {callback : OutputProcess}

lemma abortSelected_on (hio : io.region = g.io) (hof : c.buffer.Of b) (hb : b.chunk.span ∈ ivs)
    (hw : On ivs m ids w) : On ivs (g.vacate b c.bufferId m) ids (abortSelected io c w).2 := by
  have hchunk : c.buffer.chunk = b.chunk := hof.chunk
  refine Prog.Ends.state (Q := fun _ w' => On ivs (g.vacate b c.bufferId m) ids w')
    (E := fun _ _ => False) ?_ (fun _ _ h => h) fun _ _ h => h.elim
  unfold abortSelected BuffersIoView.publishNeedData
  rw [ends_bind]
  refine (OutputBuffer.abort_on (by rw [hchunk]; exact hb) hw).mono (fun _ w₁ hw₁ => ?_)
    fun _ _ h => h
  rw [hchunk] at hw₁
  have := io.publish_on .needData c.bufferId hw₁ (ε := Empty)
  rw [hio] at this
  exact this

/-- What follows the selection of a cycle: a publication, or the selection taken back. -/
lemma OutputGeneration.processCycle_on (hg : g.Sound)
    (hview : BuffersIoView.fromRawParts .buffers g.io = .ok io)
    (W : g.Watched c.bufferId ivs) (hc : c.Of g) (hid : c.bufferId < 2 ^ 32)
    (halign : ∀ b ∈ g.buffers, 4 ∣ b.metadata.offset + b.chunkOffset) (count : ℕ)
    (hw : On ivs m ids w) :
    (processCycle io count callback c).Ends w
      (fun _ w' => ∃ m' handed, On ivs m' ((c.bufferId, handed) :: ids) w' ∧ g.Confines m m' ∧
        m'.word (g.io.at_ Abi.ioBufferId) 4 = c.bufferId ∧
        (handed ≠ .misfit → g.Presents c.bufferId m'))
      (fun _ w' => ∃ m' handed,
        On ivs m' ((c.bufferId, handed) :: ids) (abortSelected io c w').2 ∧ g.Confines m m' ∧
        g.Vacated c.bufferId m') := by
  obtain ⟨b, hb, hof⟩ := hc.buffer
  have hmem := List.mem_of_getElem? hb
  have hchunk : c.buffer.chunk = b.chunk := hof.chunk
  have hio := BuffersIoView.fromRawParts_ok hview
  have hlen := OutputGeneration.len_of_view hview
  unfold processCycle runCallback
  simp only [ends_bind, ends_access, ends_store, ends_pure]
  generalize callback.answer c _ = back
  obtain ⟨bytes, back⟩ := back
  set w₂ := (w.interfere.perform (.callback c.bufferId (c.handed back))).interfere.perform
    (.store .media c.buffer.mediaAt (bytes.take c.capacity)) with hw₂
  -- the media lie beside what is watched
  have hon : On ivs m ((c.bufferId, c.handed back) :: ids) w₂ := by
    refine (hw.interfere.callback c.bufferId _).stored_beside .media fun i hi => ?_
    refine (W.media i hi b hmem).of_covers (hof.covers ?_)
    rw [List.length_take]
    exact Nat.min_le_left _ _
  have hfail : ∃ m' handed, On ivs m' ((c.bufferId, handed) :: ids) (abortSelected io c w₂).2 ∧
      g.Confines m m' ∧ g.Vacated c.bufferId m' :=
    ⟨_, _, abortSelected_on hio hof (W.chunk b hb) hon, hg.confines_write hlen hmem _ _,
      hg.vacated hview hb hid⟩
  cases back with
  | panicked => exact hfail
  | returned res =>
    cases res with
    | error message => exact hfail
    | ok t =>
      simp only [publishCommitted, OutputBuffer.publish, ends_mapErr, ends_bind,
        ends_failIf, ends_pure]
      refine ⟨fun _ => hfail, fun hname => ⟨fun _ => hfail, fun hstride => ?_⟩⟩
      have hname := not_not.mp hname
      refine (c.buffer.chunk.publish_on _ hon).mono (fun _ w₃ hw₃ => ?_) fun _ _ h => h.elim
      rw [hchunk] at hw₃
      refine (io.publish_on .haveData t.bufferId hw₃).mono (fun _ w₄ hw₄ => ?_) fun _ _ h => h.elim
      rw [hio, hname] at hw₄
      have hstride := not_or.mp hstride
      refine ⟨_, _, hw₄, hg.confines_write hlen hmem _ _, ioWrite_bufferId hid, fun hfit => ?_⟩
      rw [ne_eq, OutputCycle.handed_eq_misfit hname, not_not] at hfit
      exact hg.presents hview hb hof (halign b hmem) hid hfit (Nat.le_of_not_lt hstride.1)
        (Nat.le_of_not_lt hstride.2)

/-- The chunks of the buffers are aligned, if the buffers of a cycle could be made. -/
lemma OutputGeneration.outputBuffers_aligned : g.outputBuffers.Ends w
    (fun _ _ => ∀ b ∈ g.buffers, 4 ∣ b.metadata.offset + b.chunkOffset) (fun _ _ => True) := by
  unfold outputBuffers
  refine ends_mapList (I := fun done _ _ => ∀ b : BoundBuffer, b ∈ done →
    4 ∣ b.metadata.offset + b.chunkOffset) (fun done b rest bs w₁ _ h => ?_) (by simp)
  unfold OutputBuffer.fromRawParts
  simp only [ends_bind, ends_ofExcept]
  split
  case h_2 => trivial
  rename_i chunk hchunk
  simp only [ChunkView.fromRawParts, except_bind_eq_ok] at hchunk
  obtain ⟨_, hrec, -⟩ := hchunk
  have halign := (checkedRecord_ok.1 hrec).2.2
  have hmod := b.metadata.ptr_mod
  have hb : ∀ b' ∈ done ++ [b], 4 ∣ b'.metadata.offset + b'.chunkOffset := by
    intro b' hb'
    rcases List.mem_append.1 hb' with hb' | hb'
    · exact h b' hb'
    · rw [List.mem_singleton] at hb'
      subst hb'
      simp only [Abi.chunkAlign] at halign
      omega
  rw [ends_failIf]
  refine ⟨fun _ => trivial, fun _ => ?_⟩
  split
  · trivial
  · simp only [ends_bind, ends_ofExcept, ends_pure]
    refine ends_of_forall (fun st w' => ?_) fun _ _ => trivial
    split
    · exact hb
    · trivial

/-- **A claimed cycle.** It selects nothing and leaves what is watched, or it selects the buffer
the IO record names, and then what it leaves is a publication or the selection taken back. -/
theorem OutputGeneration.process_on (callback : OutputProcess) (hg : g.Sound)
    (W : g.Watched (m.word (g.io.at_ Abi.ioBufferId) 4) ivs) (hw : On ivs m ids w) :
    (g.process callback).Ends w
      (fun _ w' => ∃ m' ids', On ivs m' ids' w' ∧ g.Confines m m' ∧
        ((m' = m ∧ ids' = ids) ∨ ∃ id handed, id = m.word (g.io.at_ Abi.ioBufferId) 4 ∧
          ids' = (id, handed) :: ids ∧ m'.word (g.io.at_ Abi.ioBufferId) 4 = id ∧
          (handed ≠ .misfit → g.Presents id m')))
      (fun _ w' => ∃ m' ids', On ivs m' ids' w' ∧ g.Confines m m' ∧
        ((m' = m ∧ ids' = ids) ∨ ∃ id handed, id = m.word (g.io.at_ Abi.ioBufferId) 4 ∧
          ids' = (id, handed) :: ids ∧ g.Vacated id m')) := by
  have hrefl : g.Confines m m := fun r _ => .refl r m
  unfold process
  simp only [ends_bind, ends_mapErr, ends_ofExcept]
  split
  case h_2 => exact ⟨m, ids, hw, hrefl, Or.inl ⟨rfl, rfl⟩⟩
  rename_i io hio
  have hio' := BuffersIoView.fromRawParts_ok hio
  refine (g.outputBuffers_ends.and g.outputBuffers_aligned).mono (fun bs w₁ h => ?_)
    fun _ _ h => ⟨m, ids, hw.reads h.1, hrefl, Or.inl ⟨rfl, rfl⟩⟩
  obtain ⟨⟨hs, hof⟩, halign⟩ := h
  have hmem : io.region.interval ∈ ivs := by rw [hio']; exact W.io
  refine (select_on hmem bs g.format (hw.reads hs)).mono (fun o w₂ h => ?_)
    fun _ _ h => ⟨m, ids, h.1, hrefl, Or.inl ⟨rfl, rfl⟩⟩
  obtain ⟨hw₂, -, hsel⟩ := h
  cases o with
  | none => exact ⟨m, ids, hw₂, hrefl, Or.inl ⟨rfl, rfl⟩⟩
  | some c =>
    obtain ⟨hid, hbuf, hfmt⟩ := hsel c rfl
    rw [hio'] at hid
    have hc : c.Of g := ⟨hfmt, hof _ _ hbuf⟩
    have hlt : c.bufferId < 2 ^ 32 := by rw [hid]; exact Memory.word_lt32 _ _
    simp only [ends_bind, ends_onFail, ends_pure]
    refine (processCycle_on hg hio (by rw [hid]; exact W) hc hlt halign _ hw₂).mono
      (fun _ w' h => ?_) fun _ w' h => ?_
    · obtain ⟨m', handed, hon, hconf, hpres⟩ := h
      exact ⟨m', _, hon, hconf, Or.inr ⟨_, handed, hid, rfl, hpres⟩⟩
    · obtain ⟨m', handed, hon, hconf, hvac⟩ := h
      exact ⟨m', _, hon, hconf, Or.inr ⟨_, handed, hid, rfl, hvac⟩⟩

/-- **The rollback after the exchange.** It takes back what the IO record announces, in whichever
cycle that was published; where nothing is announced that the checks accept, it only reads. -/
theorem OutputGeneration.abortPublished_cases
    (hW : (∃ io, BuffersIoView.fromRawParts .buffers g.io = .ok io) → g.io.interval ∈ ivs ∧
      ∀ b, g.buffers[m.word (g.io.at_ Abi.ioBufferId) 4]? = some b → b.chunk.span ∈ ivs)
    (hw : On ivs m ids w) :
    let id := m.word (g.io.at_ Abi.ioBufferId) 4
    (∃ b, g.buffers[id]? = some b ∧ g.Presents id m ∧
      On ivs (g.vacate b id m) ids (g.abortPublished w).2) ∨
    (∀ id, ¬ g.Presents id m) ∧ On ivs m ids (g.abortPublished w).2 := by
  intro id
  refine (ends_state (I := fun w' => (∃ b, g.buffers[id]? = some b ∧ g.Presents id m ∧
    On ivs (g.vacate b id m) ids w') ∨ (∀ id, ¬ g.Presents id m) ∧ On ivs m ids w')).1 ?_
  unfold abortPublished
  simp only [ends_bind, ends_mapErr, ends_ofExcept]
  split
  case h_2 =>
    rename_i e hio
    refine Or.inr ⟨fun id h => ?_, hw⟩
    obtain ⟨io, hok⟩ := h.view
    exact absurd (hio.symm.trans hok) (by simp)
  rename_i io hview
  obtain ⟨hmem, hchunk⟩ := hW ⟨io, hview⟩
  have hio := BuffersIoView.fromRawParts_ok hview
  rw [← hio] at hmem
  refine (BuffersIoView.state_on hmem hw).mono (fun st w₁ h => ?_) fun _ _ h => h.elim
  obtain ⟨rfl, hw₁⟩ := h
  rw [hio, ends_ite]
  refine ⟨fun hst => Or.inr ⟨fun id h => ?_, hw₁⟩, fun hst => ?_⟩
  · rw [h.status] at hst
    exact absurd rfl hst
  split
  · rename_i hnone
    refine Or.inr ⟨fun id h => ?_, hw₁⟩
    obtain ⟨b, hb, -⟩ := h.plane
    rw [← h.bufferId] at hb
    exact absurd (hnone.symm.trans hb) (by simp)
  · rename_i b hb
    have hspan := hchunk b hb
    have hplane := ((OutputBuffer.fromRawParts_of b.metadata b.media b.chunkOffset hw₁
      (ChunkView.state_on hspan hw₁)).and
        (OutputBuffer.fromRawParts_ends b.metadata b.media b.chunkOffset Abi.chunkSize 0
          b.media.len w₁))
    simp only [ends_bind, ends_mapErr]
    refine hplane.mono (fun o w₂ h => ?_) fun _ w₂ h => ?_
    · obtain ⟨⟨hacc, hw₂, -⟩, -, hchunk, -⟩ := h
      have hchunk' : o.chunk = b.chunk := hchunk
      have hstatus : m.word (g.io.at_ Abi.ioStatus) 4 = BufferStatus.haveData.code := by
        have hst : asI32 (m.word (g.io.at_ Abi.ioStatus) 4) = _ := not_not.mp hst
        rw [← ofI32_asI32 (Memory.word_lt32 m _), hst]
        rfl
      have hpres : g.Presents id m := ⟨⟨io, hview⟩, hstatus, rfl, b, hb, hacc⟩
      refine (OutputBuffer.abort_on (by rw [hchunk']; exact hspan) hw₂).mono (fun _ w₃ hw₃ => ?_)
        fun _ _ h => h.elim
      rw [hchunk'] at hw₃
      refine (io.publish_on .needData _ hw₃).mono (fun _ w₄ hw₄ => ?_) fun _ _ h => h.elim
      rw [hio] at hw₄
      exact Or.inl ⟨b, hb, hpres, hw₄⟩
    · obtain ⟨⟨hna, hw₂⟩, -⟩ := h
      refine Or.inr ⟨fun id h => ?_, hw₂⟩
      obtain ⟨b', hb', hacc⟩ := h.plane
      rw [← h.bufferId, hb] at hb'
      cases hb'
      exact hna hacc

/-- It leaves nothing announced, and a selection that has been taken back as it is. -/
theorem OutputGeneration.abortPublished_on (hg : g.Sound)
    (hW : (∃ io, BuffersIoView.fromRawParts .buffers g.io = .ok io) →
      g.Watched (m.word (g.io.at_ Abi.ioBufferId) 4) ivs) (hw : On ivs m ids w) :
    ∃ m', On ivs m' ids (g.abortPublished w).2 ∧ g.Confines m m' ∧
      ∀ id, g.Presents id m ∨ g.Vacated id m → g.Vacated id m' := by
  rcases g.abortPublished_cases (fun h => ⟨(hW h).io, (hW h).chunk⟩) hw with
    ⟨b, hb, hpres, hw'⟩ | ⟨hnot, hw'⟩
  · obtain ⟨io, hview⟩ := hpres.view
    refine ⟨_, hw', hg.confines_write (len_of_view hview) (List.mem_of_getElem? hb) _ _,
      fun id h => ?_⟩
    have hid : m.word (g.io.at_ Abi.ioBufferId) 4 = id := h.elim (·.bufferId) (·.bufferId)
    rw [← hid]
    exact hg.vacated hview hb (Memory.word_lt32 _ _)
  · exact ⟨m, hw', fun r _ => .refl r m, fun id h => h.resolve_left (hnot id)⟩

end Cycle

end PipewireNative.Node
