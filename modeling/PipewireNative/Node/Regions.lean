import PipewireNative.Node.Accept

/-!
Where the regions of a session lie: which regions of a file are mapped, which of its bytes a mapped
region shows, and where the chunk, the metadata, the media plane and the IO record of an output are.
-/

namespace PipewireNative.Node

open Lib

/-! ### Mapping -/

namespace MapAnswers

variable (k : MapAnswers)

def page : ℕ := k.pageSize.toNat

def mappingOffset (offset : ℕ) : ℕ := offset / k.page * k.page

def mappingLen (offset len : ℕ) : ℕ := offset % k.page + len

/-- A region of a file of this size may be mapped. -/
structure Allows (policy : ShrinkPolicy) (offset len : ℕ) (size : ℤ) : Prop where
  nonempty : len ≠ 0
  no_overflow : offset + len < usizeBound ∧ k.mappingLen offset len < usizeBound
  isize : len ≤ isizeMax ∧ k.mappingLen offset len ≤ isizeMax ∧ k.mappingOffset offset ≤ isizeMax
  inside : (offset + len : ℕ) ≤ size
  sealed : policy = .requireSealed → (sealStatus k).preventsShrink = true

end MapAnswers

/-- The byte of the file at an address, where `len` bytes from `offset` on are mapped at `start`. -/
def fileByte (start len offset a : ℕ) : Option ℕ :=
  if start ≤ a ∧ a < start + len then some (offset + (a - start)) else none

/-- A region lies in its mapping, and shows the bytes of the file that were asked for. -/
structure MappedRegion.Shows (k : MapAnswers) (offset len : ℕ) (r : MappedRegion) : Prop where
  mapped : k.mmap r.mappingLen (k.mappingOffset offset) = .ok r.mappingPtr
  aligned : k.page ∣ k.mappingOffset offset
  before : k.mappingOffset offset ≤ offset
  len_eq : r.len = len
  ptr : r.ptr = r.mappingPtr + offset % k.page
  inside : r.ptr + r.len ≤ r.mappingPtr + r.mappingLen
  bytes : ∀ i < len, fileByte r.mappingPtr r.mappingLen (k.mappingOffset offset) (r.ptr + i) =
    some (offset + i)

section Mapping

variable {k : MapAnswers} {policy : ShrinkPolicy} {offset len : ℕ}

lemma mapSharedWithPolicy_eq_ok (hpage : 0 < k.pageSize) {r : MappedRegion} :
    mapSharedWithPolicy k offset len policy = .ok r ↔
      ∃ size ptr, k.fstat = .ok size ∧ k.Allows policy offset len size ∧
        k.mmap (k.mappingLen offset len) (k.mappingOffset offset) = .ok ptr ∧ ptr ≠ 0 ∧
        r = ⟨ptr, k.mappingLen offset len, ptr + offset % k.page, len, sealStatus k⟩ := by
  have hlogical : offset - offset / k.pageSize.toNat * k.pageSize.toNat = offset % k.page := by
    rw [MapAnswers.page, Nat.mod_eq_sub_mul_div, Nat.mul_comm]
  simp only [mapSharedWithPolicy, except_bind_eq_ok, rejectIf_eq_ok, exists_const, Except.ok.injEq,
    hlogical, not_and, Bool.not_eq_false]
  constructor
  · rintro ⟨hlen, hsum, hisize, size, hstat, -, hend, hseal, -, -, hphys, hphys', hoff, ptr, hmmap,
      hptr, rfl⟩
    exact ⟨size, ptr, hstat, ⟨hlen, ⟨Nat.not_le.1 hsum, Nat.not_le.1 hphys⟩, ⟨Nat.not_lt.1 hisize,
      Nat.not_lt.1 hphys', Nat.not_lt.1 hoff⟩, Int.not_lt.1 hend, hseal⟩, hmmap, hptr, rfl⟩
  · rintro ⟨size, ptr, hstat, h, hmmap, hptr, rfl⟩
    have hinside := h.inside
    exact ⟨h.nonempty, Nat.not_le.2 h.no_overflow.1, Nat.not_lt.2 h.isize.1, size, hstat, by omega,
      by omega, h.sealed, by omega, by omega, Nat.not_le.2 h.no_overflow.2, Nat.not_lt.2 h.isize.2.1,
      Nat.not_lt.2 h.isize.2.2, ptr, hmmap, hptr, rfl⟩

lemma shows_of_ok (hpage : 0 < k.pageSize) {r : MappedRegion}
    (h : mapSharedWithPolicy k offset len policy = .ok r) : r.Shows k offset len := by
  obtain ⟨size, ptr, -, -, hmmap, -, rfl⟩ := (mapSharedWithPolicy_eq_ok hpage).1 h
  have hdiv : k.mappingOffset offset + offset % k.page = offset := by
    rw [MapAnswers.mappingOffset, Nat.mul_comm]
    exact Nat.div_add_mod offset k.page
  refine ⟨hmmap, Nat.dvd_mul_left _ _, by omega, rfl, rfl, ?_, fun i hi => ?_⟩
  · simp only [MapAnswers.mappingLen]
    omega
  · refine (if_pos ?_).trans (congrArg some ?_) <;> simp only [MapAnswers.mappingLen] <;> omega

/-- **Mapping.** With a page size and a file size, and where the kernel maps what it is asked for, a
region is mapped exactly when it is allowed; it then lies in its mapping, which starts at a page, and
shows the bytes of the file that were asked for. An imported memory is mapped when moreover the
region ends inside the length that the file had when it was imported. -/
theorem mapSharedWithPolicy_shows (k : MapAnswers) (hpage : 0 < k.pageSize) {size : ℤ}
    (hstat : k.fstat = .ok size)
    (hmmap : ∀ len offset, ∃ ptr, k.mmap len offset = .ok ptr ∧ ptr ≠ 0) (policy : ShrinkPolicy)
    (offset len : ℕ) :
    ((∃ r, mapSharedWithPolicy k offset len policy = .ok r) ↔ k.Allows policy offset len size) ∧
    (∀ r, mapSharedWithPolicy k offset len policy = .ok r → r.Shows k offset len) ∧
    ∀ (k' : MapSyscalls) (entry : MemoryEntry), k'.toMapAnswers = k →
      ((∃ m, mapEntry k' entry policy offset len = .ok m) ↔
        offset + len ≤ entry.fileLen ∧ k.Allows policy offset len size) ∧
      ∀ m, mapEntry k' entry policy offset len = .ok m → m.offset = offset ∧
        m.mapped.Shows k offset len := by
  have hiff : (∃ r, mapSharedWithPolicy k offset len policy = .ok r) ↔
      k.Allows policy offset len size := by
    simp only [mapSharedWithPolicy_eq_ok hpage]
    constructor
    · rintro ⟨r, size', ptr, hstat', h, -⟩
      cases hstat.symm.trans hstat'
      exact h
    · intro h
      obtain ⟨ptr, hptr, hne⟩ := hmmap (k.mappingLen offset len) (k.mappingOffset offset)
      exact ⟨_, size, ptr, hstat, h, hptr, hne, rfl⟩
  refine ⟨hiff, fun r => shows_of_ok hpage, ?_⟩
  rintro k' entry rfl
  refine ⟨⟨?_, ?_⟩, ?_⟩
  · rintro ⟨m, hm⟩
    obtain ⟨-, -, -, hfile, hmapped⟩ := mapEntry_ok hm
    exact ⟨hfile, hiff.1 ⟨_, hmapped⟩⟩
  · rintro ⟨hfile, h⟩
    obtain ⟨r, hr⟩ := hiff.2 h
    have hnonempty := h.nonempty
    unfold mapEntry
    rw [if_pos ⟨by omega, h.isize.1, h.no_overflow.1, hfile⟩]
    split
    · next hmapped => cases hr.symm.trans hmapped
    · exact ⟨_, rfl⟩
  · intro m hm
    obtain ⟨-, hoffset, -, -, hmapped⟩ := mapEntry_ok hm
    exact ⟨hoffset, shows_of_ok hpage hmapped⟩

def twoPages : MapAnswers := ⟨.ok 8192, 0, 4096, fun _ _ => .ok 65536⟩

theorem mapSharedWithPolicy_shows_twoPages :
    ∃ r, mapSharedWithPolicy twoPages 5000 100 .allow = .ok r ∧ r.Shows twoPages 5000 100 := by
  obtain ⟨haccepts, hshows, -⟩ := mapSharedWithPolicy_shows twoPages (by decide) rfl
    (fun _ _ => ⟨65536, rfl, by decide⟩) .allow 5000 100
  obtain ⟨r, hr⟩ := haccepts.2 ⟨by decide, by decide, by decide, by decide, nofun⟩
  exact ⟨r, hr, hshows r hr⟩

end Mapping

/-! ### Outputs -/

def MetaDescriptor.padded (m : MetaDescriptor) : ℕ := (m.size + 7) / 8 * 8

/-- Where the next payload lies behind these. -/
def paddedSize (metas : List MetaDescriptor) : ℕ := (metas.map MetaDescriptor.padded).sum

/-- Each payload can be added without an overflow, and ends before `stop`. -/
def Packed (metas : List MetaDescriptor) (stop : ℕ) : Prop :=
  ∀ before m after, metas = before ++ m :: after →
    paddedSize before + m.size + 7 < usizeBound ∧ paddedSize before + m.size ≤ stop

lemma chunkLayout_packed {metas : List MetaDescriptor} {n : ℕ} (h : chunkLayout metas = .ok n) :
    n = paddedSize metas ∧ Packed metas n := by
  -- from any multiple of eight on, the rest is laid out behind it
  suffices hfold : ∀ (metas : List MetaDescriptor) (start : ℕ), 8 ∣ start →
      metas.foldlM (fun offset m => if offset + m.size + 7 < usizeBound then
        .ok ((offset + m.size + 7) / 8 * 8) else .error (.overflow "metadata layout")) start =
        (.ok n : Except SessionError ℕ) →
      n = start + paddedSize metas ∧ ∀ before m after, metas = before ++ m :: after →
        start + paddedSize before + m.size + 7 < usizeBound ∧
        start + paddedSize before + m.size ≤ n by
    simpa only [Packed, Nat.zero_add] using hfold metas 0 (Nat.dvd_zero 8) h
  clear h
  intro metas
  induction metas with
  | nil =>
    intro start _ h
    cases h
    exact ⟨rfl, fun before m after h => by simp at h⟩
  | cons m metas ih =>
    intro start hstart h
    rw [List.foldlM_cons] at h
    split_ifs at h with hlt
    · have hnext : (start + m.size + 7) / 8 * 8 = start + m.padded := by
        unfold MetaDescriptor.padded
        omega
      rw [hnext] at h
      obtain ⟨rfl, hrest⟩ := ih (start + m.padded)
        (Nat.dvd_add hstart (Nat.dvd_mul_left 8 _)) h
      have hcons : ∀ l, paddedSize (m :: l) = m.padded + paddedSize l := fun _ => rfl
      refine ⟨by rw [hcons, Nat.add_assoc], fun before m' after hsplit => ?_⟩
      have hsize : m.size ≤ m.padded := by
        unfold MetaDescriptor.padded
        omega
      cases before with
      | nil =>
        cases hsplit
        simp only [paddedSize, List.map_nil, List.sum_nil]
        omega
      | cons m'' before =>
        cases hsplit
        have h' := hrest before m' after rfl
        rw [hcons]
        omega
    · cases h

/-- A region of an imported memory was mapped: it lies inside the file, with the length that the file
had when it was imported and with the one it has now. -/
structure MemoryMapping.Inside (k : MapSyscalls) (memory : OrderedMemory) (region : RegionRef)
    (r : MemoryMapping) : Prop where
  imported : ∃ key lease, memory.resolve region.memory = .ok key ∧ memory key.id = some lease ∧
    lease.key = key ∧ r.entry = lease.entry
  offset : r.offset = region.offset
  len : r.len = region.len
  file : region.offset + region.len ≤ r.entry.fileLen
  size : ∃ size, k.fstat = .ok size ∧ (region.offset + region.len : ℕ) ≤ size

lemma MemoryMapping.inside_of_map {k : MapSyscalls} {memory : OrderedMemory} {id : MemoryId}
    {offset len : ℕ} {key : MemoryKey} {r : MemoryMapping} (hkey : memory.resolve id = .ok key)
    (h : memory.map k key offset len = .ok r) : r.Inside k memory ⟨id, offset, len⟩ := by
  obtain ⟨lease, hlease, hk, hentry⟩ := OrderedMemory.map_entry h
  obtain ⟨he, ho, hlen, hfile, hmapped⟩ := mapEntry_ok hentry
  refine ⟨⟨key, lease, hkey, hlease, hk, he⟩, ho, hlen, he ▸ hfile, ?_⟩
  simp only [mapSharedWithPolicy, except_bind_eq_ok, rejectIf_eq_ok] at hmapped
  obtain ⟨-, -, -, -, -, -, size, hstat, -, -, -, hend, -⟩ := hmapped
  exact ⟨size, hstat, Int.not_lt.1 hend⟩

/-- How the buffer of a descriptor lies: the chunk behind the metadata, and all inside the files. -/
structure BoundBuffer.Laid (k : Kernel) (memory : OrderedMemory) (index : ℕ) (d : BufferDescriptor)
    (b : BoundBuffer) : Prop where
  chunkOffset : b.chunkOffset = paddedSize d.metas
  packed : Packed d.metas b.chunkOffset
  chunk : b.chunkOffset + Abi.chunkSize ≤ d.metadata.len ∧ d.metadata.len < usizeBound
  metadata : b.metadata.Inside (k.map (.metadata index)) memory d.metadata
  media : b.media.Inside (k.map (.media index)) memory ⟨d.mediaMemory, d.mapOffset, d.maxSize⟩

lemma BoundBuffer.For.laid {k : Kernel} {memory : OrderedMemory} {index : ℕ} {d : BufferDescriptor}
    {b : BoundBuffer} (h : b.For k memory index d)
    (hfits : b.chunkOffset + Abi.chunkSize ≤ b.metadata.len) : b.Laid k memory index d := by
  obtain ⟨hoffset, hpacked⟩ := chunkLayout_packed h.layout
  have hinside := MemoryMapping.inside_of_map h.metadataKey h.metadata
  exact ⟨hoffset, hpacked, ⟨hinside.len ▸ hfits, OrderedMemory.map_len_lt h.metadata⟩, hinside,
    MemoryMapping.inside_of_map h.mediaKey h.media⟩

lemma BuffersFor.get {k : Kernel} {memory : OrderedMemory} {index : ℕ} {ds : List BufferDescriptor}
    {bs : List BoundBuffer} (h : BuffersFor k memory index ds bs) :
    bs.length = ds.length ∧ ∀ (i : ℕ) (d : BufferDescriptor) (b : BoundBuffer), ds[i]? = some d →
      bs[i]? = some b → b.For k memory (index + i) d := by
  induction h with
  | nil => exact ⟨rfl, fun i d b h => by simp at h⟩
  | cons hb _ ih =>
    obtain ⟨hlen, hget⟩ := ih
    refine ⟨congrArg (· + 1) hlen, fun i d b hd hb' => ?_⟩
    cases i with
    | zero =>
      cases hd
      cases hb'
      exact hb
    | succ i =>
      rw [← Nat.add_assoc, Nat.add_right_comm]
      exact hget i d b hd hb'

/-- **Outputs.** Of every output that is bound, the IO record, the metadata and the media plane of
each buffer lie inside their files, the chunk lies in the metadata region behind every payload, and
its offset is the sum of the sizes of the payloads, each rounded up to a multiple of eight. -/
theorem OutputGeneration.bind_laid (k : Kernel) (id : ℕ) (format : NegotiatedAudioFormat)
    (buffers : BufferSetDescriptor) (io : PortIoDescriptor) (memory : OrderedMemory) (w : World) :
    (OutputGeneration.bind k id format buffers io memory).Ends w
      (fun g _ => g.io.Inside (k.map .io) memory io.region ∧
        g.buffers.length = buffers.buffers.length ∧
        ∀ (i : ℕ) (d : BufferDescriptor) (b : BoundBuffer), buffers.buffers[i]? = some d →
          g.buffers[i]? = some b → b.Laid k memory i d)
      (fun _ _ => True) := by
  refine (bind_ends k id format buffers io memory w).mono (fun g _ h => ?_) fun _ _ _ => trivial
  obtain ⟨-, hbound, hfor, -⟩ := h
  obtain ⟨hlen, hget⟩ := hfor.buffers.get
  refine ⟨MemoryMapping.inside_of_map hfor.ioKey hfor.io, hlen, fun i d b hd hb => ?_⟩
  have hb' := hget i d b hd hb
  rw [Nat.zero_add] at hb'
  exact hb'.laid (hbound.buffers b (List.mem_of_getElem? hb)).1

end PipewireNative.Node
