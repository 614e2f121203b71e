import PipewireNative.Node.Record
import PipewireNative.Node.Owner

/-!
What a generation that has been bound satisfies: its keys are those of leases held, its record or
its buffers lie inside what was mapped, and its writable intervals do not meet.
-/

namespace PipewireNative.Node

open Lib Prog World

/-- The lease on exactly this generation is held. -/
def OrderedMemory.Grants (m : OrderedMemory) (key : MemoryKey) : Prop :=
  ∃ lease, m key.id = some lease ∧ lease.key = key

lemma OrderedMemory.grants_of_map {k : MapSyscalls} {m : OrderedMemory} {key : MemoryKey}
    {offset len : ℕ} {r : MemoryMapping} (h : m.map k key offset len = .ok r) : m.Grants key := by
  obtain ⟨⟨lease, hl, he⟩, hk, -⟩ := m.map_ok h
  refine ⟨lease, hl, ?_⟩
  unfold MemoryLease.key
  rw [he]
  exact hk

/-! ### The checks of intervals -/

lemma rejectOverlaps_ok {l : List MemoryInterval} {u : Unit} :
    rejectOverlaps l = .ok u ↔ l.Pairwise Span.Disjoint := by
  induction l with
  | nil => simp [rejectOverlaps]
  | cons left rest ih =>
    unfold rejectOverlaps
    rw [List.pairwise_cons, ← ih]
    have hany : rest.any left.overlaps = false ↔ ∀ r ∈ rest, left.Disjoint r := by
      simp [List.any_eq_false, ← Span.overlaps_eq_false]
    by_cases h : rest.any left.overlaps = true
    · have : ¬ ∀ r ∈ rest, left.Disjoint r := fun hd => by simp [hany.2 hd] at h
      simp [h, this]
    · rw [if_neg h]
      exact (and_iff_right (hany.1 (by simpa using h))).symm

lemma Owner.ensureDisjoint_ok {candidate existing : List MemoryInterval} {u : Unit} :
    ensureDisjoint candidate existing = .ok u ↔
      ∀ l ∈ candidate, ∀ r ∈ existing, l.Disjoint r := by
  simp [ensureDisjoint, ← Span.overlaps_eq_false]

/-! ### Transports and peers -/

namespace World

/-- A record has been mapped as a transport candidate over `r`: its version was the one supported,
and since then nothing was done but to it. -/
def Probed (r : MemoryInterval) (w w' : World) : Prop :=
  ∃ w₁, Steps Reads w w₁ ∧ w₁.mem.word (versionOf r) 4 = 1 ∧
    Steps (Calm (· = r)) (w₁.perform (.candidate r)) w'

lemma Probed.tail {r : MemoryInterval} {w w₁ w' : World} (h : Probed r w w₁)
    (h' : Steps (Calm (· = r)) w₁ w') : Probed r w w' := by
  obtain ⟨w₀, hs, hv, hc⟩ := h
  exact ⟨w₀, hs, hv, hc.trans h'⟩

end World

theorem TransportGeneration.bind_ends (k : Kernel) (id : ℕ) (d : TransportDescriptor)
    (m : OrderedMemory) (w : World) : (bind k id d m).Ends w
      (fun t w' => t.id = id ∧ m.Grants t.activationKey ∧ Probed t.interval w w')
      (fun _ w' => Steps Reads w w' ∨ ∃ r, IsRecord r ∧ Probed r w w') := by
  unfold bind
  simp only [ends_bind, ends_mapErr, ends_ofExcept]
  split
  case h_2 => exact Or.inl .refl
  rename_i key hkey
  split
  case h_2 => exact Or.inl .refl
  rename_i mapping hmap
  refine (ActivationView.fromRawParts_ends w mapping).mono (fun v w₁ h => ?_)
    fun _ _ h => Or.inl h.1
  obtain ⟨rfl, hs, hver⟩ := h
  have hprobed : Probed v.region.interval w ((w₁.perform
      (.candidate v.region.interval)).interfere.perform (.store .clientVersion
        (v.at_ Abi.clientVersion) (Lib.Word.leBytes 4 activationVersion))) := by
    refine ⟨w₁, hs, hver, (steps_interfere _ _).tail (.own _ _ trivial ⟨rfl, ?_, _, rfl, rfl⟩)⟩
    exact Lib.Word.leBytes_length _ _
  simp only [ends_note, ActivationView.initializeClientV1, storeWord, ends_store]
  split
  case h_2 => exact Or.inr ⟨_, v.isRecord, hprobed⟩
  split
  case h_2 => exact Or.inr ⟨_, v.isRecord, hprobed⟩
  exact ⟨rfl, OrderedMemory.grants_of_map hmap, hprobed⟩

theorem PeerActivation.bind_ends (k : Kernel) (id : ℕ) (d : PeerActivationDescriptor)
    (m : OrderedMemory) (w : World) : (bind k id d m).Ends w
      (fun p w' => p.node = d.node ∧ p.generation = id ∧ m.Grants p.key ∧ Steps Reads w w')
      (fun _ w' => Steps Reads w w') := by
  unfold bind
  simp only [ends_bind, ends_mapErr, ends_ofExcept]
  split
  case h_2 => exact .refl
  split
  case h_2 => exact .refl
  rename_i mapping hmap
  refine (ActivationView.fromRawParts_ends w mapping).mono (fun v w₁ h => ?_) fun _ _ h => h.1
  split
  case h_2 => exact h.2.1
  exact ⟨rfl, rfl, OrderedMemory.grants_of_map hmap, h.2.1⟩

/-! ### Outputs -/

section Chunks

variable {ε : Type}

lemma ChunkView.does_state (v : ChunkView) : Does Reads (v.state : Prog World ε ChunkState) := by
  unfold state
  refine (does_load fun _ => trivial).bind fun _ => ?_
  refine (does_load fun _ => trivial).bind fun _ => ?_
  refine (does_load fun _ => trivial).bind fun _ => ?_
  exact (does_load fun _ => trivial).bind fun _ => does_pure _

lemma BuffersIoView.does_state (v : BuffersIoView) :
    Does Reads (v.state : Prog World ε BuffersIoState) := by
  unfold state
  refine (does_load fun _ => trivial).bind fun _ => ?_
  exact (does_load fun _ => trivial).bind fun _ => does_pure _

end Chunks

/-- A plane is made with loads only, over the regions it is asked for. -/
theorem OutputBuffer.fromRawParts_ends (metadata media : MemoryMapping)
    (base len mapOffset maxSize : ℕ) (w : World) :
    (fromRawParts metadata base len media mapOffset maxSize).Ends w
      (fun b w' => Steps Reads w w' ∧ b.chunk = ⟨metadata, base⟩ ∧ b.media = media ∧
        b.mapOffset = mapOffset ∧ b.maxSize = maxSize)
      (fun _ w' => Steps Reads w w') := by
  unfold fromRawParts
  simp only [ends_bind, ends_ofExcept]
  split
  case h_2 => exact .refl
  rename_i chunk hchunk
  have hc : chunk = ⟨metadata, base⟩ := by
    simp only [ChunkView.fromRawParts, except_bind_eq_ok] at hchunk
    obtain ⟨_, -, h⟩ := hchunk
    cases h
    rfl
  rw [ends_failIf]
  refine ⟨fun _ => .refl, fun _ => ?_⟩
  split
  · exact .refl
  · have hs : Steps Reads w (chunk.state (ε := PortError) w).2 := chunk.does_state w
    simp only [ends_bind, ends_ofExcept, ends_pure]
    refine Prog.Ends.mono (Q := fun _ => Steps Reads w) (E := fun _ => Steps Reads w)
      (ends_state.2 hs) (fun st w' h => ?_) fun _ _ h => h
    split
    · exact ⟨h, hc, trivial, trivial, trivial⟩
    · exact h

/-! ### Outputs -/

/-- The buffer a buffer descriptor describes. -/
structure BoundBuffer.For (k : Kernel) (memory : OrderedMemory) (index : ℕ) (d : BufferDescriptor)
    (b : BoundBuffer) : Prop where
  layout : chunkLayout d.metas = .ok b.chunkOffset
  metadataKey : memory.resolve d.metadata.memory = .ok b.metadataKey
  mediaKey : memory.resolve d.mediaMemory = .ok b.mediaKey
  metadata : memory.map (k.map (.metadata index)) b.metadataKey d.metadata.offset d.metadata.len =
    .ok b.metadata
  media : memory.map (k.map (.media index)) b.mediaKey d.mapOffset d.maxSize = .ok b.media

/-- The buffers the descriptors of a set describe, counted from an index on. -/
inductive BuffersFor (k : Kernel) (memory : OrderedMemory) :
    ℕ → List BufferDescriptor → List BoundBuffer → Prop
  | nil {index : ℕ} : BuffersFor k memory index [] []
  | cons {index : ℕ} {d : BufferDescriptor} {ds : List BufferDescriptor} {b : BoundBuffer}
      {bs : List BoundBuffer} : b.For k memory index d → BuffersFor k memory (index + 1) ds bs →
      BuffersFor k memory index (d :: ds) (b :: bs)

lemma BoundBuffer.For.unique {k : Kernel} {memory : OrderedMemory} {index : ℕ}
    {d : BufferDescriptor} {b b' : BoundBuffer} (h : b.For k memory index d)
    (h' : b'.For k memory index d) : b = b' := by
  have h₁ := h.layout.symm.trans h'.layout
  have h₂ := h.metadataKey.symm.trans h'.metadataKey
  have h₃ := h.mediaKey.symm.trans h'.mediaKey
  simp only [Except.ok.injEq] at h₁ h₂ h₃
  have h₄ := h'.metadata
  have h₅ := h'.media
  rw [← h₂, h.metadata] at h₄
  rw [← h₃, h.media] at h₅
  cases b
  cases b'
  simp_all

lemma BuffersFor.unique {k : Kernel} {memory : OrderedMemory} {index : ℕ}
    {ds : List BufferDescriptor} {bs bs' : List BoundBuffer} (h : BuffersFor k memory index ds bs)
    (h' : BuffersFor k memory index ds bs') : bs = bs' := by
  induction h generalizing bs' with
  | nil => cases h'; rfl
  | cons hb _ ih =>
    cases h' with
    | cons hb' hbs' => rw [hb.unique hb', ih hbs']

/-- The output the descriptors of format, buffers and IO describe. -/
structure OutputGeneration.For (k : Kernel) (memory : OrderedMemory)
    (format : NegotiatedAudioFormat) (buffers : BufferSetDescriptor) (io : PortIoDescriptor)
    (g : OutputGeneration) : Prop where
  format : g.format = format
  nonempty : buffers.buffers ≠ []
  ioKey : memory.resolve io.region.memory = .ok g.ioKey
  io : memory.map (k.map .io) g.ioKey io.region.offset io.region.len = .ok g.io
  buffers : BuffersFor k memory 0 buffers.buffers g.buffers

lemma OutputGeneration.For.unique {k : Kernel} {memory : OrderedMemory}
    {format : NegotiatedAudioFormat} {buffers : BufferSetDescriptor} {io : PortIoDescriptor}
    {g g' : OutputGeneration} (h : g.For k memory format buffers io)
    (h' : g'.For k memory format buffers io) : g = { g' with id := g.id } := by
  have h₁ := h.ioKey.symm.trans h'.ioKey
  simp only [Except.ok.injEq] at h₁
  have h₂ := h'.io
  rw [← h₁, h.io] at h₂
  have h₃ := h.buffers.unique h'.buffers
  have h₄ := h.format.trans h'.format.symm
  cases g
  cases g'
  simp_all

lemma BuffersFor.mem {k : Kernel} {memory : OrderedMemory} {index : ℕ} {ds : List BufferDescriptor}
    {bs : List BoundBuffer} (h : BuffersFor k memory index ds bs) {b : BoundBuffer} (hb : b ∈ bs) :
    ∃ i, ∃ d ∈ ds, b.For k memory i d := by
  induction h with
  | nil => cases hb
  | @cons index d ds b' bs hfor _ ih =>
    obtain rfl | hb := List.mem_cons.1 hb
    · exact ⟨index, d, List.mem_cons_self, hfor⟩
    · obtain ⟨i, d', hd, h⟩ := ih hb
      exact ⟨i, d', List.mem_cons_of_mem _ hd, h⟩

namespace OutputGeneration

/-- What binding makes sure of: the chunk of every buffer lies in its metadata, the IO record has
its size, and no two writable intervals meet. -/
structure Sound (g : OutputGeneration) : Prop where
  chunk_fits : ∀ b ∈ g.buffers, b.chunkOffset + Abi.chunkSize ≤ b.metadata.len
  disjoint : g.intervals.Pairwise Span.Disjoint

/-- The memory keys an output pins. -/
def keys (g : OutputGeneration) : List MemoryKey :=
  g.ioKey :: g.buffers.flatMap fun b => [b.metadataKey, b.mediaKey]

lemma dependsOn_iff (g : OutputGeneration) (key : MemoryKey) :
    g.dependsOn key = true ↔ key ∈ g.keys := by
  simp only [dependsOn, keys, Bool.or_eq_true, decide_eq_true_eq, List.any_eq_true, List.mem_cons,
    List.mem_flatMap, List.not_mem_nil, or_false]
  exact or_congr eq_comm (exists_congr fun b => and_congr_right fun _ => or_congr eq_comm eq_comm)

lemma For.grants {k : Kernel} {memory : OrderedMemory} {format : NegotiatedAudioFormat}
    {buffers : BufferSetDescriptor} {io : PortIoDescriptor} {g : OutputGeneration}
    (h : g.For k memory format buffers io) : ∀ key ∈ g.keys, memory.Grants key := by
  intro key hkey
  simp only [keys, List.mem_cons, List.mem_flatMap, List.not_mem_nil, or_false] at hkey
  obtain rfl | ⟨b, hb, hkey⟩ := hkey
  · exact OrderedMemory.grants_of_map h.io
  · obtain ⟨i, d, -, hfor⟩ := h.buffers.mem hb
    obtain rfl | rfl := hkey
    · exact OrderedMemory.grants_of_map hfor.metadata
    · exact OrderedMemory.grants_of_map hfor.media

/-- An output is bound, with buffers of which `P` holds: its IO record has the size and the alignment
of one, its chunks lie in their metadata, and no two of its intervals meet. -/
structure Bound (P : BoundBuffer → Prop) (g : OutputGeneration) : Prop where
  io_size : g.io.len = Abi.ioBuffersSize
  io_aligned : 4 ∣ g.io.offset
  buffers : ∀ b ∈ g.buffers, b.chunkOffset + Abi.chunkSize ≤ b.metadata.len ∧ P b
  disjoint : g.intervals.Pairwise Span.Disjoint

section Of

variable {k : Kernel} {memory : OrderedMemory} {I : World → Prop} {P N : BoundBuffer → Prop}
  (hplane : ∀ (b : BoundBuffer) (w : World), I w →
    (OutputBuffer.fromRawParts b.metadata b.chunkOffset Abi.chunkSize b.media 0 b.media.len).Ends w
      (fun _ w' => P b ∧ I w') (fun _ w' => N b ∧ I w'))

include hplane

/-- **Buffers.** Each is bound beside those before it. -/
theorem bindBuffers_of (ds : List BufferDescriptor) :
    ∀ (index : ℕ) (intervals : List MemoryInterval) (w : World), I w →
    intervals.Pairwise Span.Disjoint →
    (bindBuffers k memory index intervals ds).Ends w
      (fun bs w' => BuffersFor k memory index ds bs ∧
        (∀ b ∈ bs, b.chunkOffset + Abi.chunkSize ≤ b.metadata.len ∧ P b) ∧
        (intervals ++ bs.flatMap fun b => [b.metadata.interval, b.media.interval]).Pairwise
          Span.Disjoint ∧ I w')
      (fun _ w' => (∀ bs, BuffersFor k memory index ds bs →
        (∀ b ∈ bs, b.chunkOffset + Abi.chunkSize ≤ b.metadata.len ∧ ¬ N b) →
        ¬ (intervals ++ bs.flatMap fun b => [b.metadata.interval, b.media.interval]).Pairwise
          Span.Disjoint) ∧ I w') := by
  induction ds with
  | nil =>
    intro index intervals w hw hdis
    exact ⟨.nil, by simp, by simpa using hdis, hw⟩
  | cons d ds ih =>
    intro index intervals w hw _
    -- whatever the buffers are, the first of them is the one described
    have refuse : ∀ {w' : World}, I w' →
        (∀ b : BoundBuffer, b.For k memory index d →
          b.chunkOffset + Abi.chunkSize ≤ b.metadata.len → ¬ N b →
          ¬ (intervals ++ [b.metadata.interval, b.media.interval]).Pairwise Span.Disjoint) →
        (∀ bs, BuffersFor k memory index (d :: ds) bs →
          (∀ b ∈ bs, b.chunkOffset + Abi.chunkSize ≤ b.metadata.len ∧ ¬ N b) →
          ¬ (intervals ++ bs.flatMap fun b => [b.metadata.interval, b.media.interval]).Pairwise
            Span.Disjoint) ∧ I w' := by
      refine fun hw' hno => ⟨fun bs hbs hacc hdis => ?_, hw'⟩
      cases hbs with
      | @cons _ _ _ b bs hb _ =>
        obtain ⟨hfits, hn⟩ := hacc b List.mem_cons_self
        refine hno b hb hfits hn (hdis.sublist ?_)
        rw [List.flatMap_cons, ← List.append_assoc]
        exact List.sublist_append_left _ _
    simp only [bindBuffers, ends_bind, ends_mapErr, ends_ofExcept]
    split
    case h_2 =>
      rename_i e he
      exact refuse hw fun b hb => absurd (he.symm.trans hb.layout) (by simp)
    rename_i chunkOffset hlayout
    have hlayout' : ∀ b : BoundBuffer, b.For k memory index d → b.chunkOffset = chunkOffset :=
      fun b hb => (Except.ok.inj (hlayout.symm.trans hb.layout)).symm
    have hlen : ∀ b : BoundBuffer, b.For k memory index d → b.metadata.len = d.metadata.len :=
      fun b hb => (memory.map_ok hb.metadata).2.2.2
    simp only [ends_failIf]
    refine ⟨fun hbound => refuse hw fun b hb hfits => ?_, fun hbound => ⟨fun hfit => refuse hw
      fun b hb hfits => ?_, fun hfit => ⟨fun hzero => refuse hw fun b hb => ?_, fun _ => ?_⟩⟩⟩
    · have hlt := OrderedMemory.map_len_lt hb.metadata
      rw [hlayout' b hb, hlen b hb] at hfits
      omega
    · rw [hlayout' b hb, hlen b hb] at hfits
      omega
    · have hpos : 0 < b.media.len := b.media.len_pos
      rw [(memory.map_ok hb.media).2.2.2, hzero] at hpos
      exact absurd hpos (by simp)
    split
    case h_2 =>
      rename_i e he
      exact refuse hw fun b hb => absurd (he.symm.trans hb.metadataKey) (by simp)
    rename_i metadataKey hmk
    split
    case h_2 =>
      rename_i e he
      exact refuse hw fun b hb => absurd (he.symm.trans hb.mediaKey) (by simp)
    rename_i mediaKey hdk
    have hmk' : ∀ b : BoundBuffer, b.For k memory index d → b.metadataKey = metadataKey :=
      fun b hb => (Except.ok.inj (hmk.symm.trans hb.metadataKey)).symm
    have hdk' : ∀ b : BoundBuffer, b.For k memory index d → b.mediaKey = mediaKey :=
      fun b hb => (Except.ok.inj (hdk.symm.trans hb.mediaKey)).symm
    split
    case h_2 =>
      rename_i e he
      refine refuse hw fun b hb => absurd hb.metadata ?_
      rw [hmk' b hb, he]
      simp
    rename_i metadata hmeta
    split
    case h_2 =>
      rename_i e he
      refine refuse hw fun b hb => absurd hb.media ?_
      rw [hdk' b hb, he]
      simp
    rename_i media hmedia
    have hb₀ : BoundBuffer.For k memory index d
        ⟨metadataKey, metadata, chunkOffset, mediaKey, media⟩ := ⟨hlayout, hmk, hdk, hmeta, hmedia⟩
    have huniq : ∀ b : BoundBuffer, b.For k memory index d →
        b = ⟨metadataKey, metadata, chunkOffset, mediaKey, media⟩ := fun b hb => hb.unique hb₀
    split
    case h_2 =>
      rename_i e he
      refine refuse hw fun b hb _ _ hdis => ?_
      rw [huniq b hb] at hdis
      exact absurd (he.symm.trans (rejectOverlaps_ok (u := ()).2 hdis)) (by simp)
    rename_i hover
    have hmax : media.len = d.maxSize := (memory.map_ok hmedia).2.2.2
    rw [← hmax]
    refine (hplane ⟨metadataKey, metadata, chunkOffset, mediaKey, media⟩ w hw).mono
      (fun _ w₁ h => ?_) fun _ w₁ h => refuse h.2 fun b hb _ hn => absurd h.1 (huniq b hb ▸ hn)
    obtain ⟨hP, hw₁⟩ := h
    refine (ih (index + 1) _ w₁ hw₁ (rejectOverlaps_ok.1 hover)).mono (fun bs w₂ h => ?_)
      fun _ w₂ h => ⟨fun bs hbs hacc hdis => ?_, h.2⟩
    · obtain ⟨hbs, hacc, hdis, hw₂⟩ := h
      refine ⟨.cons hb₀ hbs, List.forall_mem_cons.2 ⟨⟨?_, hP⟩, hacc⟩, by simpa using hdis, hw₂⟩
      rw [hlen _ hb₀]
      exact Nat.not_lt.mp hfit
    · cases hbs with
      | @cons _ _ _ b bs hb hbs =>
        rw [huniq b hb] at hdis
        refine h.1 bs hbs (fun b' hb' => hacc b' (List.mem_cons_of_mem _ hb')) ?_
        simpa using hdis

/-- **Outputs.** The generation described is bound, unless it cannot be. -/
theorem bind_of (id : ℕ) (format : NegotiatedAudioFormat) (buffers : BufferSetDescriptor)
    (io : PortIoDescriptor) (w : World) (hw : I w) :
    (bind k id format buffers io memory).Ends w
      (fun g w' => g.For k memory format buffers io ∧ g.id = id ∧ g.Bound P ∧ I w')
      (fun _ w' => (∀ g : OutputGeneration, g.For k memory format buffers io →
        ¬ g.Bound fun b => ¬ N b) ∧ I w') := by
  unfold bind
  simp only [ends_bind, ends_mapErr, ends_ofExcept, ends_failIf]
  refine ⟨fun hnil => ⟨fun g hg => absurd hnil hg.nonempty, hw⟩, fun hnil => ?_⟩
  split
  case h_2 =>
    rename_i e he
    exact ⟨fun g hg => absurd (he.symm.trans hg.ioKey) (by simp), hw⟩
  rename_i ioKey hkey
  have hkey' : ∀ g : OutputGeneration, g.For k memory format buffers io → g.ioKey = ioKey :=
    fun g hg => (Except.ok.inj (hkey.symm.trans hg.ioKey)).symm
  split
  case h_2 =>
    rename_i e he
    refine ⟨fun g hg => absurd hg.io ?_, hw⟩
    rw [hkey' g hg, he]
    simp
  rename_i mapping hmap
  have hmap' : ∀ g : OutputGeneration, g.For k memory format buffers io → g.io = mapping :=
    fun g hg => by
      have hio := hg.io
      rw [hkey' g hg, hmap] at hio
      exact (Except.ok.inj hio).symm
  have hmod := mapping.ptr_mod
  split
  case h_2 =>
    rename_i e he
    refine ⟨fun g hg ha => ?_, hw⟩
    have h₁ := ha.io_size
    have h₂ := ha.io_aligned
    rw [hmap' g hg] at h₁ h₂
    have hok : checkedRecord mapping.mapped.ptr mapping.len Abi.ioBuffersSize Abi.ioBuffersAlign
        "spa_io_buffers" = .ok () :=
      checkedRecord_ok.2 ⟨mapping.ptr_ne, h₁, by simp only [Abi.ioBuffersAlign]; omega⟩
    unfold BuffersIoView.fromRawParts at he
    rw [if_neg (by simp)] at he
    split at he
    · rename_i e' he'
      exact absurd (he'.symm.trans hok) (by simp)
    · exact absurd he (by simp)
  rename_i view hview
  have hrec : mapping.len = Abi.ioBuffersSize ∧ mapping.mapped.ptr % Abi.ioBuffersAlign = 0 := by
    unfold BuffersIoView.fromRawParts at hview
    rw [if_neg (by simp)] at hview
    split at hview
    · exact absurd hview (by simp)
    · rename_i h
      exact (checkedRecord_ok.1 h).2
  have halign : 4 ∣ mapping.offset := by
    have := hrec.2
    simp only [Abi.ioBuffersAlign] at this
    omega
  have hlen : mapping.len = io.region.len := (memory.map_ok hmap).2.2.2
  refine ⟨fun h => absurd (hlen.symm.trans hrec.1) h, fun _ => ?_⟩
  refine (bindBuffers_of hplane buffers.buffers 0 [mapping.interval] w hw (by simp)).mono
    (fun bs w' h => ?_) fun _ w' h => ⟨fun g hg ha => ?_, h.2⟩
  · obtain ⟨hbs, hacc, hdis, hw'⟩ := h
    exact ⟨⟨rfl, hnil, hkey, hmap, hbs⟩, rfl, ⟨hrec.1, halign, hacc, hdis⟩, hw'⟩
  · refine h.1 g.buffers hg.buffers ha.buffers ?_
    have hdis := ha.disjoint
    unfold intervals at hdis
    rw [hmap' g hg] at hdis
    exact hdis

end Of

theorem bind_ends (k : Kernel) (id : ℕ) (format : NegotiatedAudioFormat)
    (buffers : BufferSetDescriptor) (io : PortIoDescriptor) (m : OrderedMemory) (w : World) :
    (bind k id format buffers io m).Ends w
      (fun g w' => Steps Reads w w' ∧ g.Bound (fun _ => True) ∧ g.For k m format buffers io ∧
        g.id = id)
      (fun _ w' => Steps Reads w w') := by
  refine (bind_of (I := Steps Reads w) (N := fun _ => True) (fun b w' h => ?_) id format buffers io
    w .refl).mono (fun g w' h => ⟨h.2.2.2, h.2.2.1, h.1, h.2.1⟩) fun _ _ h => h.2
  exact (OutputBuffer.fromRawParts_ends _ _ _ _ _ _ w').mono
    (fun _ _ h' => ⟨trivial, h.trans h'.1⟩) fun _ _ h' => ⟨trivial, h.trans h'⟩

lemma Bound.sound {P : BoundBuffer → Prop} {g : OutputGeneration} (h : g.Bound P) : g.Sound :=
  ⟨fun b hb => (h.buffers b hb).1, h.disjoint⟩

end OutputGeneration

end PipewireNative.Node
