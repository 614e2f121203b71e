import PipewireNative.Node.Refine

/-!
What binding accepts while the server does nothing: for every descriptor a relation says which
generation it describes, and a predicate over shared memory says when that generation is accepted.
The binding functions return exactly the accepted ones.
-/

namespace PipewireNative.Node

open Lib Lib.Word Prog World

namespace World

/-! ### A server that does nothing -/

/-- The server does nothing from here on, and memory is `m`. -/
structure At (m : Shm) (w : World) : Prop where
  quiet : w.script = []
  mem : w.mem = m

section At

variable {m : Shm} {w w' : World}

lemma At.interfere (h : w.At m) : w.interfere = w := interfere_quiet h.quiet

lemma At.perform (h : w.At m) (a : Action) : (w.perform a).At (effect a m) :=
  ⟨h.quiet, by rw [perform_mem, h.mem]⟩

lemma At.reads (h : w.At m) (hw : Steps Reads w w') : w'.At m := by
  have := hw.keeps_quiet (I := fun v => v.mem = m) h.quiet h.mem fun v a hv _ ha => by
    cases a <;> first | exact hv | exact ha.elim
  exact ⟨this.2, this.1⟩

variable {ε : Type} {f : Field} {l : Addr} {n x d : ℕ} {E : ε → World → Prop}

lemma At.ends_load (h : w.At m) {Q : ℕ → World → Prop} (hQ : ∀ w', w'.At m → Q (m.word l n) w') :
    (load f l n : Prog World ε ℕ).Ends w Q E := by
  rw [World.ends_load, h.interfere, h.mem]
  exact hQ _ (h.perform (.load f l n (m.word l n)))

lemma At.ends_store (h : w.At m) {bs : List UInt8} {Q : Unit → World → Prop}
    (hQ : ∀ w', w'.At (m.write l bs) → Q () w') : (store f l bs : Prog World ε Unit).Ends w Q E := by
  rw [World.ends_store, h.interfere]
  exact hQ _ (h.perform (.store f l bs))

lemma At.ends_swap (h : w.At m) {Q : ℕ → World → Prop}
    (hQ : ∀ w', w'.At (m.setWord l 4 d) → Q (m.word l 4) w') :
    (swap f l d : Prog World ε ℕ).Ends w Q E := by
  rw [World.ends_swap, h.interfere, h.mem]
  exact hQ _ (h.perform (.swap f l d (m.word l 4)))

end At

end World

/-! ### Activation records -/

/-- A mapped region holds a record of the version supported. -/
structure MemoryMapping.Record (m : Shm) (mapping : MemoryMapping) : Prop where
  isRecord : IsRecord mapping.interval
  version : m.word (versionOf mapping.interval) 4 = 1

/-- The record in `r` answers: its version is the one supported and its status word a status. -/
def Answers (m : Shm) (r : MemoryInterval) : Prop :=
  m.word (versionOf r) 4 = 1 ∧ m.word (statusOf r) 4 ≤ 4

instance (m : Shm) (r : MemoryInterval) : Decidable (Answers m r) := by
  unfold Answers; infer_instance

/-- Memory with the record in `r` taken out of scheduling. -/
def rested (r : MemoryInterval) (m : Shm) : Shm :=
  m.setWord (statusOf r) 4 ActivationStatus.inactive.code

section Records

variable {m : Shm} {w : World}

lemma ActivationView.fromRawParts_at (hw : w.At m) (mapping : MemoryMapping) :
    (fromRawParts mapping).Ends w (fun v w' => v.region = mapping ∧ mapping.Record m ∧ w'.At m)
      (fun _ w' => ¬ mapping.Record m ∧ w'.At m) := by
  refine (fromRawParts_ends w mapping).mono (fun v w' h => ?_) fun _ w' h => ?_
  · obtain ⟨hv, hs, hver⟩ := h
    have hw' := hw.reads hs
    refine ⟨hv, ⟨?_, by rw [← hw'.mem]; exact hver⟩, hw'⟩
    rw [← hv]
    exact v.isRecord
  · have hw' := hw.reads h.1
    exact ⟨fun hr => h.2 hr.isRecord (by rw [hw'.mem]; exact hr.version), hw'⟩

namespace TransportGeneration

variable (t : TransportGeneration)

lemma activationView_at (hw : w.At m) : t.activationView.Ends w
    (fun v w' => v.region = t.activation ∧ m.word (versionOf t.interval) 4 = 1 ∧ w'.At m)
    (fun _ w' => m.word (versionOf t.interval) 4 ≠ 1 ∧ w'.At m) := by
  unfold activationView
  rw [ends_mapErr]
  refine (ActivationView.fromRawParts_at hw t.activation).mono
    (fun v w' h => ⟨h.1, h.2.1.version, h.2.2⟩) fun _ w' h => ⟨fun hv => h.1 ⟨t.isRecord, hv⟩, h.2⟩

lemma status_at (hw : w.At m) : t.status.Ends w
    (fun st w' => m.word (versionOf t.interval) 4 = 1 ∧ m.word (statusOf t.interval) 4 = st.code ∧
      w'.At m)
    (fun _ w' => ¬ Answers m t.interval ∧ w'.At m) := by
  unfold status
  rw [ends_bind]
  refine (t.activationView_at hw).mono (fun v w₁ h => ?_) fun _ _ h => ⟨fun ha => h.1 ha.1, h.2⟩
  obtain ⟨hv, hver, hw₁⟩ := h
  have hat : v.at_ Abi.status = statusOf t.interval := by rw [ActivationView.at_, hv]; rfl
  simp only [ends_mapErr, ActivationView.status, ends_bind, ends_ofExcept, hat]
  refine hw₁.ends_load fun w₂ hw₂ => ?_
  split
  · rename_i st hst
    exact ⟨hver, activationStatus_ok.1 hst, hw₂⟩
  · rename_i e he
    refine ⟨fun ha => ?_, hw₂⟩
    obtain ⟨st, hst⟩ := activationStatus_isOk.2 ha.2
    exact absurd (he.symm.trans hst) (by simp)

/-- A record whose version is not supported is left alone; any other is taken out of scheduling,
also when its status was none. -/
lemma deactivate_at (hw : w.At m) : t.deactivate.Ends w
    (fun _ w' => Answers m t.interval ∧ w'.At (rested t.interval m))
    (fun _ w' => ¬ Answers m t.interval ∧
      w'.At (if m.word (versionOf t.interval) 4 = 1 then rested t.interval m else m)) := by
  unfold deactivate
  rw [ends_bind]
  refine (t.activationView_at hw).mono (fun v w₁ h => ?_) fun _ _ h =>
    ⟨fun ha => h.1 ha.1, by rw [if_neg h.1]; exact h.2⟩
  obtain ⟨hv, hver, hw₁⟩ := h
  have hat : v.at_ Abi.status = statusOf t.interval := by rw [ActivationView.at_, hv]; rfl
  simp only [ends_mapErr, ActivationView.deactivate, ends_bind, ends_ofExcept, hat]
  refine hw₁.ends_swap fun w₂ hw₂ => ?_
  split
  · rename_i st hst
    exact ⟨⟨hver, activationStatus_isOk.1 ⟨st, hst⟩⟩, hw₂⟩
  · rename_i e he
    refine ⟨fun ha => ?_, by rw [if_pos hver]; exact hw₂⟩
    obtain ⟨st, hst⟩ := activationStatus_isOk.2 ha.2
    exact absurd (he.symm.trans hst) (by simp)

lemma drop_at (hw : w.At m) {ε : Type} : (t.drop : Prog World ε Unit).Ends w
    (fun _ w' => w'.At (if m.word (versionOf t.interval) 4 = 1 then rested t.interval m else m))
    (fun _ _ => False) := by
  unfold drop
  simp only [ends_bind, ends_attempt, ends_pure]
  refine (t.deactivate_at hw).mono (fun _ w' h => ?_) fun _ w' h => h.2
  rw [if_pos h.1.1]
  exact h.2

lemma markReady_at (hw : w.At m) (hver : m.word (versionOf t.interval) 4 = 1)
    (hst : m.word (statusOf t.interval) 4 = ActivationStatus.inactive.code) : t.markReady.Ends w
      (fun _ w' => w'.At (m.setWord (statusOf t.interval) 4 ActivationStatus.finished.code))
      (fun _ _ => False) := by
  unfold markReady
  rw [ends_bind]
  refine (t.activationView_at hw).mono (fun v w₁ h => ?_) fun _ _ h => absurd hver h.1
  obtain ⟨hv, -, hw₁⟩ := h
  have hat : v.at_ Abi.status = statusOf t.interval := by rw [ActivationView.at_, hv]; rfl
  simp only [ends_mapErr, ActivationView.markReady, ActivationView.transition, ends_bind,
    ends_compareExchange, hat, hw₁.interfere, hw₁.mem, hst, if_true, ends_pure]
  have h := hw₁.perform (.exchange .status (statusOf t.interval) ActivationStatus.inactive.code
    ActivationStatus.finished.code ActivationStatus.inactive.code)
  simpa only [effect, if_true] using h

end TransportGeneration

end Records

/-! ### Transports and peers -/

/-- Memory with the version of the client announced in the record in `r`. -/
def greeted (r : MemoryInterval) (m : Shm) : Shm :=
  m.setWord ⟨r.obj, r.start + Abi.clientVersion⟩ 4 activationVersion

/-- The generation a transport descriptor describes. -/
structure TransportGeneration.For (k : Kernel) (memory : OrderedMemory) (d : TransportDescriptor)
    (t : TransportGeneration) : Prop where
  key : memory.resolve d.activation.memory = .ok t.activationKey
  mapping : memory.map (k.map .activation) t.activationKey d.activation.offset d.activation.len =
    .ok t.activation
  trigger : EventFd.fromOwnedFd k d.triggerFd = .ok t.trigger
  completion : EventFd.fromOwnedFd k d.completionFd = .ok t.completion

/-- The generation a peer descriptor describes. -/
structure PeerActivation.For (k : Kernel) (memory : OrderedMemory) (d : PeerActivationDescriptor)
    (p : PeerActivation) : Prop where
  node : p.node = d.node
  key : memory.resolve d.activation.memory = .ok p.key
  mapping : memory.map (k.map (.peer d.node)) p.key d.activation.offset d.activation.len =
    .ok p.mapping
  signal : EventFd.fromOwnedFd k d.signalFd = .ok p.signal

section Binds

variable {m : Shm} {w : World} {k : Kernel} {memory : OrderedMemory}

lemma TransportGeneration.For.unique {d : TransportDescriptor} {t t' : TransportGeneration}
    (h : t.For k memory d) (h' : t'.For k memory d) : t = { t' with id := t.id } := by
  have h₁ := h.key.symm.trans h'.key
  have h₂ := h.trigger.symm.trans h'.trigger
  have h₃ := h.completion.symm.trans h'.completion
  simp only [Except.ok.injEq] at h₁ h₂ h₃
  have h₄ := h'.mapping
  rw [← h₁, h.mapping] at h₄
  cases t
  cases t'
  simp_all

lemma TransportGeneration.For.interval_eq {d : TransportDescriptor} {t t' : TransportGeneration}
    (h : t.For k memory d) (h' : t'.For k memory d) : t.interval = t'.interval := by
  rw [h.unique h']
  rfl

lemma PeerActivation.For.unique {d : PeerActivationDescriptor} {p p' : PeerActivation}
    (h : p.For k memory d) (h' : p'.For k memory d) : p = { p' with generation := p.generation } := by
  have h₁ := h.key.symm.trans h'.key
  have h₂ := h.signal.symm.trans h'.signal
  simp only [Except.ok.injEq] at h₁ h₂
  have h₃ := h'.mapping
  rw [← h₁, h.mapping] at h₃
  have h₄ := h.node.trans h'.node.symm
  cases p
  cases p'
  simp_all

lemma PeerActivation.For.interval_eq {d : PeerActivationDescriptor} {p p' : PeerActivation}
    (h : p.For k memory d) (h' : p'.For k memory d) : p.interval = p'.interval := by
  rw [h.unique h']
  rfl

/-- **Transports.** The generation described is bound exactly when its record is of the version
supported. A refusal may come after the client has announced its version. -/
theorem TransportGeneration.bind_at (hw : w.At m) (id : ℕ) (d : TransportDescriptor) :
    (bind k id d memory).Ends w
      (fun t w' => t.For k memory d ∧ t.id = id ∧ m.word (versionOf t.interval) 4 = 1 ∧
        w'.At (greeted t.interval m))
      (fun _ w' => (∀ t : TransportGeneration, t.For k memory d →
          m.word (versionOf t.interval) 4 ≠ 1) ∧
        (w'.At m ∨ ∃ r, IsRecord r ∧ w'.At (greeted r m))) := by
  unfold bind
  simp only [ends_bind, ends_mapErr, ends_ofExcept]
  split
  case h_2 => exact ⟨fun t ht => by have := ht.key; simp_all, Or.inl hw⟩
  rename_i key hkey
  have hkey' : ∀ t : TransportGeneration, t.For k memory d → t.activationKey = key := fun t ht =>
    (Except.ok.inj (hkey.symm.trans ht.key)).symm
  split
  case h_2 =>
    rename_i e hmap
    refine ⟨fun t ht => ?_, Or.inl hw⟩
    have := ht.mapping
    rw [hkey' t ht, hmap] at this
    exact absurd this (by simp)
  rename_i mapping hmap
  have hmap' : ∀ t : TransportGeneration, t.For k memory d → t.activation = mapping := fun t ht => by
    have := ht.mapping
    rw [hkey' t ht, hmap] at this
    exact (Except.ok.inj this).symm
  refine (ActivationView.fromRawParts_at hw mapping).mono (fun v w₁ h => ?_) fun _ w₁ h => ?_
  · obtain ⟨rfl, hrec, hw₁⟩ := h
    simp only [ends_note, ActivationView.initializeClientV1, storeWord]
    refine (hw₁.perform (.candidate v.region.interval)).ends_store fun w₂ hw₂ => ?_
    have hlate : ∀ e fd, EventFd.fromOwnedFd k fd = .error e →
        (fd = d.triggerFd ∨ fd = d.completionFd) →
        (∀ t : TransportGeneration, t.For k memory d → m.word (versionOf t.interval) 4 ≠ 1) ∧
          (w₂.At m ∨ ∃ r, IsRecord r ∧ w₂.At (greeted r m)) := by
      refine fun e fd hfd heq => ⟨fun t ht => ?_, Or.inr ⟨_, hrec.isRecord, hw₂⟩⟩
      rcases heq with rfl | rfl
      · exact absurd (hfd.symm.trans ht.trigger) (by simp)
      · exact absurd (hfd.symm.trans ht.completion) (by simp)
    split
    case h_2 => rename_i e he; exact hlate e _ he (Or.inl rfl)
    rename_i trigger htrigger
    split
    case h_2 => rename_i e he; exact hlate e _ he (Or.inr rfl)
    rename_i completion hcompletion
    exact ⟨⟨hkey, hmap, htrigger, hcompletion⟩, rfl, hrec.version, hw₂⟩
  · refine ⟨fun t ht hv => h.1 ⟨?_, ?_⟩, Or.inl h.2⟩
    · rw [← hmap' t ht]; exact t.isRecord
    · rw [← hmap' t ht]; exact hv

/-- **Peers.** -/
theorem PeerActivation.bind_at (hw : w.At m) (id : ℕ) (d : PeerActivationDescriptor) :
    (bind k id d memory).Ends w
      (fun p w' => p.For k memory d ∧ p.generation = id ∧ p.mapping.Record m ∧ w'.At m)
      (fun _ w' => (∀ p : PeerActivation, p.For k memory d → ¬ p.mapping.Record m) ∧ w'.At m) := by
  unfold bind
  simp only [ends_bind, ends_mapErr, ends_ofExcept]
  split
  case h_2 => exact ⟨fun p hp => by have := hp.key; simp_all, hw⟩
  rename_i key hkey
  have hkey' : ∀ p : PeerActivation, p.For k memory d → p.key = key := fun p hp =>
    (Except.ok.inj (hkey.symm.trans hp.key)).symm
  split
  case h_2 =>
    rename_i e hmap
    refine ⟨fun p hp => ?_, hw⟩
    have := hp.mapping
    rw [hkey' p hp, hmap] at this
    exact absurd this (by simp)
  rename_i mapping hmap
  have hmap' : ∀ p : PeerActivation, p.For k memory d → p.mapping = mapping := fun p hp => by
    have := hp.mapping
    rw [hkey' p hp, hmap] at this
    exact (Except.ok.inj this).symm
  refine (ActivationView.fromRawParts_at hw mapping).mono (fun v w₁ h => ?_) fun _ w₁ h =>
    ⟨fun p hp hr => h.1 (by rw [← hmap' p hp]; exact hr), h.2⟩
  obtain ⟨rfl, hrec, hw₁⟩ := h
  split
  case h_2 =>
    rename_i e he
    exact ⟨fun p hp => absurd (he.symm.trans hp.signal) (by simp), hw₁⟩
  rename_i signal hsignal
  exact ⟨⟨rfl, hkey, hmap, hsignal⟩, rfl, hrec, hw₁⟩

end Binds

/-! ### Outputs -/

def ChunkView.read (v : ChunkView) (m : Shm) : ChunkState :=
  ⟨m.word (v.at_ Abi.chunkOffset) 4, m.word (v.at_ Abi.chunkDataSize) 4,
    asI32 (m.word (v.at_ Abi.chunkStride) 4), m.word (v.at_ Abi.chunkFlags) 4⟩

/-- A plane is accepted: its chunk is aligned and says what a chunk may say. -/
structure PlaneAccepted (m : Shm) (metadata : MemoryMapping) (base : ℕ) (media : MemoryMapping) :
    Prop where
  aligned : 4 ∣ metadata.offset + base
  bounded : media.len ≤ u32Max
  chunk : OutputBuffer.checkChunk media.len (ChunkView.read ⟨metadata, base⟩ m) = .ok ()

structure BoundBuffer.Accepted (m : Shm) (b : BoundBuffer) : Prop where
  fits : b.chunkOffset + Abi.chunkSize ≤ b.metadata.len
  plane : PlaneAccepted m b.metadata b.chunkOffset b.media

lemma OutputGeneration.For.intervals_eq {k : Kernel} {memory : OrderedMemory}
    {format : NegotiatedAudioFormat} {buffers : BufferSetDescriptor} {io : PortIoDescriptor}
    {g g' : OutputGeneration} (h : g.For k memory format buffers io)
    (h' : g'.For k memory format buffers io) : g.intervals = g'.intervals := by
  rw [h.unique h']
  rfl

/-- An output is accepted: its IO record has the size and the alignment of one, its buffers are
accepted, and no two of its intervals meet. -/
structure OutputGeneration.Accepted (m : Shm) (g : OutputGeneration) : Prop where
  io_size : g.io.len = Abi.ioBuffersSize
  io_aligned : 4 ∣ g.io.offset
  buffers : ∀ b ∈ g.buffers, b.Accepted m
  disjoint : g.intervals.Pairwise Span.Disjoint

section Outputs

variable {m : Shm} {w : World} {k : Kernel} {memory : OrderedMemory}

lemma ChunkView.state_at (v : ChunkView) (hw : w.At m) {ε : Type} :
    (v.state : Prog World ε ChunkState).Ends w (fun st w' => st = v.read m ∧ w'.At m)
      (fun _ _ => False) := by
  unfold state
  simp only [ends_bind, ends_pure]
  refine hw.ends_load fun w₁ hw₁ => hw₁.ends_load fun w₂ hw₂ => hw₂.ends_load fun w₃ hw₃ =>
    hw₃.ends_load fun w₄ hw₄ => ⟨rfl, hw₄⟩

lemma checkPlane_self {media : MemoryMapping} {u : Unit} :
    OutputBuffer.checkPlane media.len 0 media.len = .ok u ↔ media.len ≤ u32Max := by
  have hpos : 0 < media.len := media.len_pos
  simp only [OutputBuffer.checkPlane, except_bind_eq_ok, rejectIf_eq_ok, exists_const]
  unfold u32Max isizeMax usizeBound
  omega

/-- **Planes**, where the chunk is known to read as it does in `m`. -/
theorem OutputBuffer.fromRawParts_of {I : World → Prop} (metadata media : MemoryMapping) (base : ℕ)
    (hw : I w) (hstate : ((⟨metadata, base⟩ : ChunkView).state : Prog World PortError _).Ends w
      (fun st w' => st = ChunkView.read ⟨metadata, base⟩ m ∧ I w') (fun _ _ => False)) :
    (fromRawParts metadata base Abi.chunkSize media 0 media.len).Ends w
      (fun b w' => PlaneAccepted m metadata base media ∧ I w' ∧
        b.dataOffset = (ChunkView.read ⟨metadata, base⟩ m).offset % media.len)
      (fun _ w' => ¬ PlaneAccepted m metadata base media ∧ I w') := by
  have hmod := metadata.ptr_mod
  have hptr := metadata.ptr_ne
  unfold fromRawParts
  simp only [ends_bind, ends_ofExcept]
  split
  case h_2 =>
    rename_i e he
    refine ⟨fun ha => ?_, hw⟩
    have halign := ha.aligned
    have hok : checkedRecord (metadata.mapped.ptr + base) Abi.chunkSize Abi.chunkSize
        Abi.chunkAlign "spa_chunk" = .ok () := by
      refine checkedRecord_ok.2 ⟨by omega, rfl, ?_⟩
      simp only [Abi.chunkAlign]
      omega
    simp [ChunkView.fromRawParts, hok, bind, Except.bind, pure, Except.pure] at he
  rename_i chunk hchunk
  simp only [ChunkView.fromRawParts, except_bind_eq_ok] at hchunk
  obtain ⟨_, hrec, hchunk⟩ := hchunk
  obtain rfl : (⟨metadata, base⟩ : ChunkView) = chunk := Except.ok.inj hchunk
  have halign := (checkedRecord_ok.1 hrec).2.2
  simp only [Abi.chunkAlign] at halign
  rw [ends_failIf]
  refine ⟨fun h => absurd h media.ptr_ne, fun _ => ?_⟩
  split
  · rename_i e he
    refine ⟨fun ha => ?_, hw⟩
    exact absurd (he.symm.trans (checkPlane_self (u := ()).2 ha.bounded)) (by simp)
  · rename_i u hplane
    simp only [ends_bind, ends_ofExcept, ends_pure]
    refine hstate.mono (fun st w₁ h => ?_) fun _ _ h => h.elim
    obtain ⟨rfl, hw₁⟩ := h
    split
    · rename_i hchk
      exact ⟨⟨by omega, checkPlane_self.1 hplane, hchk⟩, hw₁, rfl⟩
    · rename_i e hchk
      exact ⟨fun ha => absurd (hchk.symm.trans ha.chunk) (by simp), hw₁⟩

lemma BoundBuffer.plane_at (b : BoundBuffer) (hw : w.At m) :
    (OutputBuffer.fromRawParts b.metadata b.chunkOffset Abi.chunkSize b.media 0 b.media.len).Ends w
      (fun _ w' => PlaneAccepted m b.metadata b.chunkOffset b.media ∧ w'.At m)
      (fun _ w' => ¬ PlaneAccepted m b.metadata b.chunkOffset b.media ∧ w'.At m) :=
  (OutputBuffer.fromRawParts_of b.metadata b.media b.chunkOffset hw (ChunkView.state_at _ hw)).mono
    (fun _ _ h => ⟨h.1, h.2.1⟩) fun _ _ h => h

/-- **Outputs.** The generation described is bound exactly when it is accepted. -/
theorem OutputGeneration.bind_at (hw : w.At m) (id : ℕ) (format : NegotiatedAudioFormat)
    (buffers : BufferSetDescriptor) (io : PortIoDescriptor) :
    (bind k id format buffers io memory).Ends w
      (fun g w' => g.For k memory format buffers io ∧ g.id = id ∧ g.Accepted m ∧ w'.At m)
      (fun _ w' => (∀ g : OutputGeneration, g.For k memory format buffers io → ¬ g.Accepted m) ∧
        w'.At m) := by
  refine (bind_of (fun b _ => b.plane_at) id format buffers io w hw).mono (fun g w' h => ?_)
    fun _ w' h => ⟨fun g hg ha => h.1 g hg ⟨ha.io_size, ha.io_aligned, fun b hb => ?_, ha.disjoint⟩,
      h.2⟩
  · obtain ⟨hfor, hid, hbound, hw'⟩ := h
    exact ⟨hfor, hid, ⟨hbound.io_size, hbound.io_aligned, fun b hb => ⟨(hbound.buffers b hb).1,
      (hbound.buffers b hb).2⟩, hbound.disjoint⟩, hw'⟩
  · exact ⟨(ha.buffers b hb).fits, not_not.2 (ha.buffers b hb).plane⟩

end Outputs

end PipewireNative.Node
