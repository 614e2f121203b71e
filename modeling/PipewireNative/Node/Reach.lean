import PipewireNative.Node.Phases

/-!
Where the phases of a cycle reach. Processing a cycle, and rolling one back, loads and stores in
the writable intervals of the output and nowhere else.
-/

namespace PipewireNative.Node

open Lib Lib.Word Prog World

namespace World

/-- Loads and stores inside the intervals, and callbacks. -/
def Within (ivs : List MemoryInterval) : Action → Prop
  | .load _ l n _ => ∃ i ∈ ivs, i.Covers l n
  | .store _ l bs => ∃ i ∈ ivs, i.Covers l bs.length
  | .callback _ _ => True
  | _ => False

variable {ivs : List MemoryInterval} {ε : Type}

lemma does_load_within {f : Field} {l : Addr} {n : ℕ} {i : MemoryInterval} (hi : i ∈ ivs)
    (hl : i.Covers l n) : Does (Within ivs) (load f l n : Prog World ε ℕ) :=
  does_load fun _ => ⟨i, hi, hl⟩

lemma does_storeWord_within {f : Field} {l : Addr} {n v : ℕ} {i : MemoryInterval} (hi : i ∈ ivs)
    (hl : i.Covers l n) : Does (Within ivs) (storeWord f l n v : Prog World ε Unit) :=
  does_store ⟨i, hi, by rwa [leBytes_length]⟩

end World

section Reach

variable {ivs : List MemoryInterval} {ε : Type} {g : OutputGeneration} {w : World}

/-! ### Chunks, planes and IO records -/

lemma ChunkView.covers_region {v : ChunkView} (hv : v.base + Abi.chunkSize ≤ v.region.len)
    {field : ℕ} (hf : field + 4 ≤ Abi.chunkSize) : v.region.interval.Covers (v.at_ field) 4 :=
  v.region.covers (by omega)

section Chunk

variable {v : ChunkView} (hv : v.base + Abi.chunkSize ≤ v.region.len)
  (hi : v.region.interval ∈ ivs)
include hv hi

lemma ChunkView.does_state_within : Does (Within ivs) (v.state : Prog World ε ChunkState) := by
  unfold state
  refine (does_load_within hi (v.covers_region hv (by decide))).bind fun _ => ?_
  refine (does_load_within hi (v.covers_region hv (by decide))).bind fun _ => ?_
  refine (does_load_within hi (v.covers_region hv (by decide))).bind fun _ => ?_
  exact (does_load_within hi (v.covers_region hv (by decide))).bind fun _ => does_pure _

lemma ChunkView.does_publish_within (st : ChunkState) :
    Does (Within ivs) (v.publish st : Prog World ε Unit) := by
  unfold publish
  refine (does_storeWord_within hi (v.covers_region hv (by decide))).bind fun _ => ?_
  refine (does_storeWord_within hi (v.covers_region hv (by decide))).bind fun _ => ?_
  refine (does_storeWord_within hi (v.covers_region hv (by decide))).bind fun _ => ?_
  exact does_storeWord_within hi (v.covers_region hv (by decide))

end Chunk

lemma OutputBuffer.does_fromRawParts_within {metadata media : MemoryMapping}
    {base len mapOffset maxSize : ℕ} (hv : base + Abi.chunkSize ≤ metadata.len)
    (hi : metadata.interval ∈ ivs) :
    Does (Within ivs) (fromRawParts metadata base len media mapOffset maxSize) := by
  intro w
  refine ends_state.1 ?_
  unfold fromRawParts
  simp only [ends_bind, ends_ofExcept]
  split
  case h_2 => exact .refl
  rename_i chunk hchunk
  obtain rfl : (⟨metadata, base⟩ : ChunkView) = chunk := by
    simp only [ChunkView.fromRawParts, except_bind_eq_ok] at hchunk
    obtain ⟨_, -, h⟩ := hchunk
    exact Except.ok.inj h
  rw [ends_failIf]
  refine ⟨fun _ => .refl, fun _ => ?_⟩
  split
  · exact .refl
  · simp only [ends_bind, ends_ofExcept, ends_pure]
    have hstate : Does (Within ivs)
        ((⟨metadata, base⟩ : ChunkView).state : Prog World PortError ChunkState) :=
      ChunkView.does_state_within hv hi
    refine (hstate.ends .refl).mono (fun st w' h => ?_) fun _ _ h => h
    split <;> exact h

section View

variable {io : BuffersIoView} (hi : io.region.interval ∈ ivs)
include hi

lemma BuffersIoView.does_state_within :
    Does (Within ivs) (io.state : Prog World ε BuffersIoState) := by
  unfold state
  have hlen := io.size_eq
  refine (does_load_within hi (io.region.covers (by rw [hlen]; decide))).bind fun _ => ?_
  exact (does_load_within hi (io.region.covers (by rw [hlen]; decide))).bind fun _ => does_pure _

lemma BuffersIoView.does_publish_within (status : BufferStatus) (id : ℕ) :
    Does (Within ivs) (io.publish status id : Prog World ε Unit) := by
  unfold publish
  have hlen := io.size_eq
  refine (does_storeWord_within hi (io.region.covers (by rw [hlen]; decide))).bind fun _ => ?_
  exact does_storeWord_within hi (io.region.covers (by rw [hlen]; decide))

end View

/-! ### Cycles -/

variable (hg : g.Sound)
include hg

lemma OutputCycle.Of.chunk_within {c : OutputCycle} (hc : c.Of g) :
    c.buffer.chunk.base + Abi.chunkSize ≤ c.buffer.chunk.region.len ∧
      c.buffer.chunk.region.interval ∈ g.intervals := by
  obtain ⟨b, hb, hof⟩ := hc.buffer
  have hmem := List.mem_of_getElem? hb
  rw [hof.chunk]
  exact ⟨hg.chunk_fits b hmem, (OutputGeneration.mem_intervals hmem).1⟩

lemma OutputCycle.Of.does_abort_within {c : OutputCycle} (hc : c.Of g) :
    Does (Within g.intervals) (c.buffer.abort : Prog World ε Unit) := by
  obtain ⟨hv, hi⟩ := hc.chunk_within hg
  unfold OutputBuffer.abort
  exact (ChunkView.does_state_within hv hi).bind fun st => ChunkView.does_publish_within hv hi _

lemma OutputGeneration.does_outputBuffers_within :
    Does (Within g.intervals) g.outputBuffers := by
  refine Does.mapList fun b hb => ?_
  exact OutputBuffer.does_fromRawParts_within (hg.chunk_fits b hb) (mem_intervals hb).1

lemma OutputGeneration.does_processCycle_within {io : BuffersIoView} (hio : io.region = g.io)
    (count : ℕ) (callback : OutputProcess) {c : OutputCycle} (hc : c.Of g) :
    Does (Within g.intervals)
      ((processCycle io count callback c).onFail (abortSelected io c)) := by
  obtain ⟨hv, hi⟩ := hc.chunk_within hg
  have hmem : io.region.interval ∈ g.intervals := by rw [hio]; exact List.mem_cons_self ..
  refine Does.onFail ?_ ?_
  · unfold processCycle runCallback
    refine Does.bind ?_ fun back => ?_
    · refine Does.bind (does_access (fun _ => trivial) fun _ => trivial) fun _ => ?_
      refine Does.bind (does_store ?_) fun _ => does_pure _
      exact hc.media_covers (fun i hi => hi) (by rw [List.length_take]; exact Nat.min_le_left _ _)
    · split
      · exact does_fail _
      · exact does_fail _
      · refine Does.mapErr ?_
        unfold publishCommitted OutputBuffer.publish
        refine (does_failIf _ _).bind fun _ => ?_
        refine Does.bind (Does.mapErr ?_) fun _ => ?_
        · exact (does_failIf _ _).bind fun _ => ChunkView.does_publish_within hv hi _
        · exact (BuffersIoView.does_publish_within hmem _ _).bind fun _ => does_pure _
  · unfold abortSelected
    exact (hc.does_abort_within hg).bind fun _ => BuffersIoView.does_publish_within hmem _ _

/-- **Processing a cycle** reaches nothing but the output. -/
theorem OutputGeneration.does_process_within (callback : OutputProcess) :
    Does (Within g.intervals) (g.process callback) := by
  intro w
  refine ends_state.1 ?_
  unfold process
  simp only [ends_bind, ends_mapErr, ends_ofExcept]
  split
  case h_2 => exact .refl
  rename_i io hio
  have hio' := BuffersIoView.fromRawParts_ok hio
  have hmem : io.region.interval ∈ g.intervals := by rw [hio']; exact List.mem_cons_self ..
  refine (g.outputBuffers_ends.and ((does_outputBuffers_within hg).ends .refl)).mono
    (fun bs w₁ h => ?_) fun _ _ h => h.2
  obtain ⟨⟨-, hof⟩, hs₁⟩ := h
  have hselect : Does (Within g.intervals) (select io bs g.format) := by
    unfold select
    refine (BuffersIoView.does_state_within hmem).bind fun st => ?_
    refine Does.ite (fun _ => does_pure _) fun _ => ?_
    split
    · exact does_fail _
    · exact does_pure _
  refine ((select_ends io bs g.format).and (hselect.ends hs₁)).mono (fun o w₂ h => ?_)
    fun _ _ h => h.2
  obtain ⟨⟨-, hsel⟩, hs₂⟩ := h
  cases o with
  | none => exact hs₂
  | some c =>
    obtain ⟨-, hbuf, hfmt⟩ := hsel c rfl
    have hdo := does_processCycle_within hg hio' bs.length callback ⟨hfmt, hof _ _ hbuf⟩
    have hend := hdo.ends hs₂
    simp only [ends_bind, ends_pure]
    exact hend

/-- **The rollback after the exchange** reaches nothing but the output. -/
theorem OutputGeneration.does_abortPublished_within :
    Does (Within g.intervals) g.abortPublished := by
  intro w
  refine ends_state.1 ?_
  unfold abortPublished
  simp only [ends_bind, ends_mapErr, ends_ofExcept]
  split
  case h_2 => exact .refl
  rename_i io hio
  have hio' := BuffersIoView.fromRawParts_ok hio
  have hmem : io.region.interval ∈ g.intervals := by rw [hio']; exact List.mem_cons_self ..
  have hstate : Does (Within g.intervals) (io.state : Prog World SessionError _) :=
    BuffersIoView.does_state_within hmem
  refine (hstate.ends .refl).mono (fun st w₁ hs₁ => ?_) fun _ _ h => h
  rw [ends_ite]
  refine ⟨fun _ => hs₁, fun _ => ?_⟩
  split
  · exact hs₁
  · rename_i b hb
    have hbm := List.mem_of_getElem? hb
    have hplane : Does (Within g.intervals) (OutputBuffer.fromRawParts b.metadata b.chunkOffset
        Abi.chunkSize b.media 0 b.media.len) :=
      OutputBuffer.does_fromRawParts_within (hg.chunk_fits b hbm) (mem_intervals hbm).1
    simp only [ends_bind, ends_mapErr]
    refine ((OutputBuffer.fromRawParts_ends b.metadata b.media b.chunkOffset Abi.chunkSize 0
      b.media.len w₁).and (hplane.ends hs₁)).mono (fun o w₂ h => ?_) fun _ _ h => h.2
    obtain ⟨⟨-, hchunk, hmedia, hoff, hmax⟩, hs₂⟩ := h
    let c : OutputCycle := ⟨o, st.bufferId, g.format⟩
    have hc : c.Of g := ⟨rfl, b, hb, hchunk, hmedia, hoff, hmax⟩
    have hdo : Does (Within g.intervals) (do o.abort; io.publishNeedData st.bufferId :
        Prog World SessionError Unit) :=
      (hc.does_abort_within hg).bind fun _ => BuffersIoView.does_publish_within hmem _ _
    have hend := hdo.ends hs₂
    rwa [ends_bind] at hend

end Reach

end PipewireNative.Node
