import PipewireNative.Node.Accept
import PipewireNative.Node.Coherent

/-!
The helpers of the owner while the server does nothing: what each returns and leaves is then a
function of the session and of shared memory, and every one of them is described exactly.
-/

namespace PipewireNative.Node

open Lib Lib.Word Prog World Sys

/-! ### Words of records -/

section Words

variable {m : Shm} {r r' : MemoryInterval}

lemma IsRecord.status_aligned (h : IsRecord r) : 8 ∣ (statusOf r).addr := h.1

lemma IsRecord.version_aligned (h : IsRecord r) : 8 ∣ (versionOf r).addr := by
  have := h.1
  simp only [versionOf, Abi.serverVersion]
  omega

lemma greeted_word {l : Addr} (hr : IsRecord r) (hl : 8 ∣ l.addr) :
    (greeted r m).word l 4 = m.word l 4 := by
  have h8 := hr.1
  exact Memory.word_setWord_apart (apart_of_odd (by simp only [Abi.clientVersion]; omega) hl)

lemma rested_status : (rested r m).word (statusOf r) 4 = ActivationStatus.inactive.code :=
  Memory.word_setWord_same (ActivationStatus.code_lt _)

lemma rested_word {l : Addr} (hr : IsRecord r) (hl : 8 ∣ l.addr) (hne : l ≠ statusOf r) :
    (rested r m).word l 4 = m.word l 4 :=
  Memory.word_setWord_apart (apart_of_aligned hr.1 hl (Ne.symm hne))

lemma rested_rested : rested r (rested r m) = rested r m := by
  funext o a
  simp only [rested, Memory.setWord, Memory.write]
  split_ifs <;> rfl

lemma greeted_answers (hr : IsRecord r) (hr' : IsRecord r') :
    Answers (greeted r m) r' ↔ Answers m r' := by
  unfold Answers
  rw [greeted_word hr hr'.version_aligned, greeted_word hr hr'.status_aligned]

end Words

namespace ClientNodeSession

variable (s : ClientNodeSession)

/-- The own record of the session, if there is one, answers. -/
def Answers (m : Shm) : Prop := ∀ r, s.own = some r → Node.Answers m r

/-- Memory after the own record has been taken out of scheduling. -/
def rest (m : Shm) : Shm :=
  match s.own with
  | none => m
  | some r => rested r m

/-- Memory after an attempt to do so that failed. -/
def resisted (m : Shm) : Shm :=
  match s.own with
  | none => m
  | some r => if m.word (versionOf r) 4 = 1 then rested r m else m

/-- A start of the session goes through: its record is out of scheduling or has finished. -/
def Startable (m : Shm) : Prop :=
  ∃ r, s.own = some r ∧ m.word (versionOf r) 4 = 1 ∧
    (m.word (statusOf r) 4 = ActivationStatus.inactive.code ∨
      m.word (statusOf r) 4 = ActivationStatus.finished.code)

def started (m : Shm) : Shm :=
  match s.own with
  | none => m
  | some r => if m.word (statusOf r) 4 = ActivationStatus.inactive.code then
      m.setWord (statusOf r) 4 ActivationStatus.finished.code else m

end ClientNodeSession

namespace Owner

variable {s : Sys} {m : Shm}

/-! ### Stopping and starting -/

theorem stop_at (hs : s.world.At m) : stop.Ends s
    (fun _ s' => s.session.Answers m ∧ s'.session = s.session.stopped ∧
      s'.world.At (s.session.rest m))
    (fun _ s' => ¬ s.session.Answers m ∧ s'.session = s.session ∧
      s'.world.At (s.session.resisted m)) := by
  unfold stop ClientNodeSession.Answers ClientNodeSession.rest ClientNodeSession.resisted
    ClientNodeSession.own
  rw [ends_bind, ends_session]
  cases hT : s.session.transport with
  | none =>
    rw [ends_edit]
    exact ⟨by simp, rfl, hs⟩
  | some t =>
    simp only [ends_bind, ends_outside, ends_edit]
    refine (t.deactivate_at hs).mono (fun _ w h => ⟨?_, trivial, h.2⟩) fun _ w h => ⟨?_, trivial, h.2⟩
    · intro r hr
      cases hr
      exact h.1
    · exact fun ha => h.1 (ha _ rfl)

theorem ensureRunning_at (hs : s.world.At m) (hw : s.session.wanted) (hr : s.session.isReady) :
    ensureRunning.Ends s
      (fun _ s' => s.session.Startable m ∧ s'.session = { s.session with state := .running } ∧
        s'.world.At (s.session.started m))
      (fun _ s' => ¬ s.session.Startable m ∧ s'.session = s.session ∧ s'.world.At m) := by
  obtain ⟨t, hT⟩ : ∃ t, s.session.transport = some t := by
    simp only [ClientNodeSession.isReady, Bool.and_eq_true] at hr
    exact Option.isSome_iff_exists.1 hr.1.1
  have hown : s.session.own = some t.interval := by simp [ClientNodeSession.own, hT]
  have hun : unwrap s.session.transport = unwrap (some t) := by rw [hT]
  have hstart : s.session.Startable m ↔ m.word (versionOf t.interval) 4 = 1 ∧
      (m.word (statusOf t.interval) 4 = ActivationStatus.inactive.code ∨
        m.word (statusOf t.interval) 4 = ActivationStatus.finished.code) := by
    unfold ClientNodeSession.Startable
    rw [hown]
    refine ⟨?_, fun h => ⟨_, rfl, h⟩⟩
    rintro ⟨r, h, hrest⟩
    cases h
    exact hrest
  have hmem : s.session.started m = if m.word (statusOf t.interval) 4 =
      ActivationStatus.inactive.code then
        m.setWord (statusOf t.interval) 4 ActivationStatus.finished.code else m := by
    unfold ClientNodeSession.started; rw [hown]
  unfold ensureRunning
  rw [ends_bind, ends_session, if_neg (by simp [hw]), if_neg (by simp [hr]), hun, hstart, hmem]
  simp only [ends_bind, ends_unwrap_some, ends_outside]
  refine (t.status_at hs).mono (fun st w h => ?_) fun _ w h =>
    ⟨fun hst => h.1 ⟨hst.1, ?_⟩, trivial, h.2⟩
  · obtain ⟨hver, hst, hw⟩ := h
    cases st with
    | inactive =>
      simp only [ends_bind, ends_outside, ends_edit]
      refine (t.markReady_at hw hver hst).mono (fun _ w' h => ⟨⟨hver, Or.inl hst⟩, trivial, ?_⟩)
        fun _ _ h => h.elim
      rw [if_pos hst]; exact h
    | finished =>
      rw [ends_edit]
      refine ⟨⟨hver, Or.inr hst⟩, rfl, ?_⟩
      rw [if_neg (by rw [hst]; decide)]; exact hw
    | _ =>
      simp only [ends_bind, ends_raise]
      refine ⟨fun h => ?_, trivial, hw⟩
      rcases h.2 with h | h <;> exact absurd (hst.symm.trans h) (by decide)
  · rcases hst.2 with h | h <;> rw [h] <;> decide

/-- **The restart at the end of a command.** -/
theorem restart_at (hs : s.world.At m) : restart.Ends s
    (fun _ s' => ((s.session.wanted && s.session.isReady) = true → s.session.Startable m) ∧
      s'.session = s.session.settled ∧
      s'.world.At (if s.session.wanted && s.session.isReady then s.session.started m else m))
    (fun _ s' => (s.session.wanted && s.session.isReady) = true ∧ ¬ s.session.Startable m ∧
      s'.session = s.session.refreshState ∧ s'.world.At m) := by
  have hwant : s.session.refreshState.wanted = s.session.wanted := by
    rw [ClientNodeSession.refreshState_eq]; rfl
  have hready : s.session.refreshState.isReady = s.session.isReady := by
    rw [ClientNodeSession.refreshState_eq]; rfl
  have hown : s.session.refreshState.own = s.session.own := by
    rw [ClientNodeSession.refreshState_eq]; rfl
  unfold restart ClientNodeSession.settled doIf
  simp only [ends_bind, ends_edit, ends_session]
  rw [hwant, hready]
  by_cases h : (s.session.wanted && s.session.isReady) = true
  · rw [if_pos h, if_pos h, if_pos h]
    rw [Bool.and_eq_true] at h
    refine (ensureRunning_at (s := ⟨s.session.refreshState, s.world⟩) hs (by rw [hwant]; exact h.1)
      (by rw [hready]; exact h.2)).mono (fun _ s' h' => ?_) fun _ s' h' => ?_
    · simp only [ClientNodeSession.Startable, ClientNodeSession.started, hown] at h' ⊢
      exact ⟨fun _ => h'.1, h'.2.1, h'.2.2⟩
    · simp only [ClientNodeSession.Startable, hown] at h' ⊢
      exact ⟨by simp [h], h'.1, h'.2.1, h'.2.2⟩
  · rw [if_neg h, if_neg h, if_neg h]
    exact ⟨fun h' => absurd h' h, rfl, hs⟩

/-! ### Candidates -/

structure TransportFits (k : Kernel) (m : Shm) (s : ClientNodeSession) (d : TransportDescriptor)
    (t : TransportGeneration) : Prop where
  room : s.nextGeneration + 1 < usizeBound
  described : t.For k s.availableMemory d
  version : m.word (versionOf t.interval) 4 = 1
  apart : ∀ i ∈ s.outputIntervals ++ s.peers.intervals, t.interval.Disjoint i

structure OutputFits (k : Kernel) (m : Shm) (s : ClientNodeSession) (format : NegotiatedAudioFormat)
    (buffers : BufferSetDescriptor) (io : PortIoDescriptor) (g : OutputGeneration) : Prop where
  room : s.nextGeneration + 1 < usizeBound
  described : g.For k s.availableMemory format buffers io
  accepted : g.Accepted m
  apart : ∀ i ∈ g.intervals, ∀ j ∈ s.transportIntervals ++ s.peers.intervals, i.Disjoint j

structure PeerFits (k : Kernel) (m : Shm) (s : ClientNodeSession) (node : NodeId)
    (d : PeerActivationDescriptor) (p : PeerActivation) : Prop where
  room : s.nextGeneration + 1 < usizeBound
  described : p.For k s.availableMemory d
  record : p.mapping.Record m
  apart : ∀ i ∈ s.transportIntervals ++ s.outputIntervals ++ s.peers.intervalsExcept node,
    p.interval.Disjoint i

/-- All the memory a buffer set and an IO descriptor refer to is available. -/
def Resolvable (memory : OrderedMemory) (buffers : BufferSetDescriptor) (io : PortIoDescriptor) :
    Prop :=
  ∀ id ∈ bufferMemoryIds buffers ++ [io.region.memory], (memory id).isSome

instance (memory : OrderedMemory) (buffers : BufferSetDescriptor) (io : PortIoDescriptor) :
    Decidable (Resolvable memory buffers io) := List.decidableBAll _ _

variable {k : Kernel}

lemma allocateGeneration_at : allocateGeneration.Ends s
    (fun n s' => s.session.nextGeneration + 1 < usizeBound ∧ n = s.session.nextGeneration ∧
      s' = { s with session := { s.session with nextGeneration := s.session.nextGeneration + 1 } })
    (fun _ s' => ¬ s.session.nextGeneration + 1 < usizeBound ∧ s' = s) := by
  unfold allocateGeneration
  simp only [ends_bind, ends_session, ends_ite, ends_edit, ends_pure, ends_raise]
  exact ⟨fun h => ⟨h, trivial, trivial⟩, fun h => ⟨h, trivial⟩⟩

/-- **An output candidate.** It is built exactly when its memory is there and it fits. -/
theorem outputCandidate_at (hs : s.world.At m) (format : NegotiatedAudioFormat)
    (buffers : BufferSetDescriptor) (io : PortIoDescriptor) :
    (outputCandidate k format buffers io).Ends s
      (fun o s' => s'.world.At m ∧
        match o with
        | none => ¬ Resolvable s.session.availableMemory buffers io ∧ s'.session = s.session
        | some g => Resolvable s.session.availableMemory buffers io ∧
          OutputFits k m s.session format buffers io g ∧ g.id = s.session.nextGeneration ∧
          s'.session = { s.session with nextGeneration := s.session.nextGeneration + 1 })
      (fun _ s' => s'.world.At m ∧ Resolvable s.session.availableMemory buffers io ∧
        (∀ g, ¬ OutputFits k m s.session format buffers io g) ∧
        ∃ n, s'.session = { s.session with nextGeneration := n }) := by
  have hres : ((bufferMemoryIds buffers ++ [io.region.memory]).any
      fun id => (s.session.availableMemory id).isNone) = true ↔
      ¬ Resolvable s.session.availableMemory buffers io := by
    simp only [Resolvable, List.any_eq_true, not_forall, Option.isNone_iff_eq_none,
      Option.isSome_iff_ne_none, exists_prop, not_not]
  unfold outputCandidate
  simp only [ends_bind, ends_session, ends_check, anyUnresolved_eq, ends_ite,
    ends_pure]
  rw [hres, not_not]
  refine ⟨fun h => ⟨hs, h, trivial⟩, fun hr => ?_⟩
  refine allocateGeneration_at.mono (fun n s₁ h => ?_) fun _ s₁ h => ?_
  · obtain ⟨hroom, rfl, rfl⟩ := h
    rw [ends_outside]
    refine (OutputGeneration.bind_at hs _ format buffers io).mono (fun g w h => ?_) fun _ w h =>
      ⟨h.2, hr, fun g hg => h.1 g hg.described hg.accepted, _, rfl⟩
    obtain ⟨hfor, hid, hacc, hw⟩ := h
    split
    · rename_i hdis
      exact ⟨hw, hr, ⟨hroom, hfor, hacc, ensureDisjoint_ok.1 hdis⟩, hid, rfl⟩
    · rename_i e hdis
      refine ⟨hw, hr, fun g' hg' => ?_, _, rfl⟩
      have hsame : g'.intervals = g.intervals := by
        rw [hg'.described.intervals_eq hfor]
      refine absurd (hdis.symm.trans (ensureDisjoint_ok (u := ()).2 ?_)) (by simp)
      rw [← hsame]
      exact hg'.apart
  · rw [h.2]
    exact ⟨hs, hr, fun g hg => h.1 hg.room, _, rfl⟩

/-! ### Binding -/

lemma stopped_next (s : ClientNodeSession) (n : ℕ) :
    ({ s with nextGeneration := n } : ClientNodeSession).stopped =
      { s.stopped with nextGeneration := n } := by
  unfold ClientNodeSession.stopped ClientNodeSession.isReady
  split_ifs <;> rfl

/-- **Binding the output** of a session that has format, buffers and IO. -/
theorem bindOutput_at (hs : s.world.At m) {format : NegotiatedAudioFormat}
    {buffers : BufferSetDescriptor} {io : PortIoDescriptor} (hf : s.session.format = some format)
    (hb : s.session.bufferDescriptor = some buffers) (hi : s.session.ioDescriptor = some io) :
    (bindOutput k).Ends s
      (fun o s' =>
        (o = .pendingMemory ∧ ¬ Resolvable s.session.availableMemory buffers io ∧
          s'.session = s.session ∧ s'.world.At m) ∨
        (o = .applied ∧ Resolvable s.session.availableMemory buffers io ∧ s.session.Answers m ∧
          ∃ g, OutputFits k m s.session format buffers io g ∧ g.id = s.session.nextGeneration ∧
            s'.session = { s.session.stopped with
              output := some g, nextGeneration := s.session.nextGeneration + 1 } ∧
            s'.world.At (s.session.rest m)))
      (fun _ s' => Resolvable s.session.availableMemory buffers io ∧
        (∃ n, s'.session = { s.session with nextGeneration := n }) ∧
        (((∀ g, ¬ OutputFits k m s.session format buffers io g) ∧ s'.world.At m) ∨
          ((∃ g, OutputFits k m s.session format buffers io g) ∧ ¬ s.session.Answers m ∧
            s'.world.At (s.session.resisted m)))) := by
  unfold bindOutput
  rw [ends_bind, ends_session]
  split
  case h_2 => rename_i hno; exact absurd hi (hno format buffers io hf hb)
  rename_i format' buffers' io' hf' hb' hi'
  obtain rfl : format = format' := Option.some.inj (hf.symm.trans hf')
  obtain rfl : buffers = buffers' := Option.some.inj (hb.symm.trans hb')
  obtain rfl : io = io' := Option.some.inj (hi.symm.trans hi')
  rw [ends_bind]
  refine (outputCandidate_at hs format buffers io).mono (fun o s₁ h => ?_) fun _ s₁ h =>
    ⟨h.2.1, h.2.2.2, Or.inl ⟨h.2.2.1, h.1⟩⟩
  obtain ⟨hw₁, h⟩ := h
  cases o with
  | none => exact Or.inl ⟨rfl, h.1, h.2, hw₁⟩
  | some g =>
    obtain ⟨hres, hfits, hid, hses⟩ := h
    simp only [ends_bind, ends_edit, ends_pure]
    refine (stop_at hw₁).mono (fun _ s₂ h => Or.inr ⟨trivial, hres, ?_⟩) fun _ s₂ h =>
      ⟨hres, ⟨s.session.nextGeneration + 1, h.2.1.trans hses⟩, Or.inr ⟨⟨g, hfits⟩, ?_⟩⟩
    · obtain ⟨hans, hst, hw₂⟩ := h
      rw [hses] at hans hst hw₂
      refine ⟨hans, g, hfits, hid, ?_, hw₂⟩
      rw [hst, stopped_next]
    · obtain ⟨hans, -, hw₂⟩ := h
      rw [hses] at hans hw₂
      exact ⟨hans, hw₂⟩

lemma bindOutput_incomplete (h : s.session.format = none ∨ s.session.bufferDescriptor = none ∨
    s.session.ioDescriptor = none) :
    (bindOutput k).Ends s (fun o s' => o = .applied ∧ s' = s) (fun _ _ => False) := by
  unfold bindOutput
  rw [ends_bind, ends_session]
  split
  · simp_all
  · exact ⟨rfl, rfl⟩

/-- **Binding a peer.** -/
theorem bindPeer_at (hs : s.world.At m) (node : NodeId) {d : PeerActivationDescriptor}
    (hd : s.session.pendingPeers[node]? = some d) :
    (bindPeer k node).Ends s
      (fun o s' => s'.world.At m ∧
        ((o = .pendingMemory ∧ s.session.availableMemory d.activation.memory = none ∧
          s'.session = s.session) ∨
        (o = .applied ∧ (s.session.availableMemory d.activation.memory).isSome ∧
          ∃ p, PeerFits k m s.session node d p ∧ p.generation = s.session.nextGeneration ∧
          s'.session = { s.session with
            pendingPeers := s.session.pendingPeers.erase node,
            nextGeneration := s.session.nextGeneration + 1,
            peers := s.session.peers.insert p.node p })))
      (fun _ s' => s'.world.At m ∧ (s.session.availableMemory d.activation.memory).isSome ∧
        (∀ p, ¬ PeerFits k m s.session node d p) ∧
        ∃ n, s'.session = { s.session with
          pendingPeers := s.session.pendingPeers.erase node, nextGeneration := n }) := by
  unfold bindPeer
  rw [ends_bind, ends_session, hd]
  simp only [ends_bind, ends_unwrap_some, ends_check, unresolved_resolve, ends_ite,
    ends_pure, ends_edit, Option.isNone_iff_eq_none]
  refine ⟨fun h => ⟨hs, Or.inl ⟨trivial, h, trivial⟩⟩, fun hres => ?_⟩
  have hres' : (s.session.availableMemory d.activation.memory).isSome :=
    Option.isSome_iff_ne_none.2 hres
  refine allocateGeneration_at.mono (fun n s₁ h => ?_) fun _ s₁ h => ?_
  · obtain ⟨hroom, rfl, rfl⟩ := h
    rw [ends_outside]
    refine (PeerActivation.bind_at hs _ d).mono (fun p w h => ?_) fun _ w h =>
      ⟨h.2, hres', fun p hp => h.1 p hp.described hp.record, _, rfl⟩
    obtain ⟨hfor, hgen, hrec, hw⟩ := h
    split
    · rename_i hdis
      refine ⟨hw, Or.inr ⟨trivial, hres', p, ⟨hroom, hfor, hrec, fun i hi => ?_⟩, hgen, rfl⟩⟩
      exact ensureDisjoint_ok.1 hdis _ (List.mem_singleton.2 rfl) i hi
    · rename_i e hdis
      refine ⟨hw, hres', fun p' hp' => ?_, _, rfl⟩
      refine absurd (hdis.symm.trans (ensureDisjoint_ok (u := ()).2 fun i hi j hj => ?_)) (by simp)
      rw [List.mem_singleton.1 hi, ← hp'.described.interval_eq hfor]
      exact hp'.apart j hj
  · rw [h.2]
    exact ⟨hs, hres', fun p hp => h.1 hp.room, _, rfl⟩

lemma resisted_rest {n : ClientNodeSession} (h : n.Answers m) : n.resisted (n.rest m) = n.rest m := by
  unfold ClientNodeSession.resisted ClientNodeSession.rest
  cases hown : n.own with
  | none => rfl
  | some r =>
    have hr := ClientNodeSession.own_isRecord hown
    have hver : (rested r m).word (versionOf r) 4 = 1 := by
      rw [rested_word hr hr.version_aligned (by simp [versionOf, statusOf, Abi.serverVersion])]
      exact (h r hown).1
    dsimp only
    rw [if_pos hver, rested_rested]

lemma setTransport_at (hs : s.world.At m) (c : Option TransportGeneration) :
    (setTransport c).Ends s (fun _ s' => s'.session = { s.session with transport := c } ∧
      s'.world.At (s.session.resisted m)) (fun _ _ => False) := by
  refine (setTransport_of s c (I := fun w => w.At (s.session.resisted m)) ?_ ?_).mono ?_
    fun _ _ h => h
  · intro hT
    rw [ClientNodeSession.resisted, ClientNodeSession.own, hT]
    exact hs
  · intro t hT
    rw [ClientNodeSession.resisted, ClientNodeSession.own, hT]
    exact t.drop_at hs
  · rintro _ s' ⟨w, hw, rfl⟩
    refine ⟨rfl, ?_⟩
    cases c with
    | none => exact hw.perform .release
    | some t => exact hw.perform (.install _ _ _)

/-- What a refused transport leaves in memory: the version of the client was announced, or also
the candidate was dropped, before or after the own record had been in the way. -/
inductive TransportRefused (k : Kernel) (m : Shm) (s : ClientNodeSession)
    (d : TransportDescriptor) : Shm → Prop
  | unbound {m' : Shm} : (∀ t : TransportGeneration, s.nextGeneration + 1 < usizeBound →
        t.For k s.availableMemory d → m.word (versionOf t.interval) 4 ≠ 1) →
      (m' = m ∨ ∃ r, IsRecord r ∧ m' = greeted r m) → TransportRefused k m s d m'
  | overlapping (t : TransportGeneration) : s.nextGeneration + 1 < usizeBound →
      t.For k s.availableMemory d → m.word (versionOf t.interval) 4 = 1 →
      (¬ ∀ i ∈ s.outputIntervals ++ s.peers.intervals, t.interval.Disjoint i) →
      TransportRefused k m s d (rested t.interval (greeted t.interval m))
  | unstopped {m' : Shm} (t : TransportGeneration) : TransportFits k m s d t → ¬ s.Answers m →
      (m' = s.resisted (greeted t.interval m) ∨
        m' = rested t.interval (s.resisted (greeted t.interval m))) → TransportRefused k m s d m'

lemma TransportRefused.not_installed {n : ClientNodeSession} {d : TransportDescriptor} {m' : Shm}
    (h : TransportRefused k m n d m') : ¬ ((∃ t, TransportFits k m n d t) ∧ n.Answers m) := by
  rintro ⟨⟨t, ht⟩, hans⟩
  cases h with
  | unbound hno _ => exact hno t ht.room ht.described ht.version
  | overlapping t' _ hfor _ hno =>
    refine hno fun i hi => ?_
    rw [hfor.interval_eq ht.described]
    exact ht.apart i hi
  | unstopped _ _ hno _ => exact hno hans

lemma answers_greeted {n : ClientNodeSession} {r : MemoryInterval} (hr : IsRecord r) :
    n.Answers (greeted r m) ↔ n.Answers m :=
  forall_congr' fun _ => forall_congr' fun hown =>
    greeted_answers hr (ClientNodeSession.own_isRecord hown)

/-- **Binding the transport.** -/
theorem bindTransport_at (hs : s.world.At m) {d : TransportDescriptor}
    (hd : s.session.pendingTransport = some d) : (bindTransport k).Ends s
      (fun o s' =>
        (o = .pendingMemory ∧ s.session.availableMemory d.activation.memory = none ∧
          s'.session = s.session ∧ s'.world.At m) ∨
        (o = .applied ∧ (s.session.availableMemory d.activation.memory).isSome ∧
          s.session.Answers m ∧
          ∃ t, TransportFits k m s.session d t ∧ t.id = s.session.nextGeneration ∧
            s'.session = { s.session.stopped with
              transport := some t, pendingTransport := none,
              nextGeneration := s.session.nextGeneration + 1 } ∧
            s'.world.At (s.session.rest (greeted t.interval m))))
      (fun _ s' => (s.session.availableMemory d.activation.memory).isSome ∧
        (∃ n, s'.session = { s.session with pendingTransport := none, nextGeneration := n }) ∧
        ∃ m', s'.world.At m' ∧ TransportRefused k m s.session d m') := by
  unfold bindTransport
  rw [ends_bind, ends_session, hd]
  simp only [ends_bind, ends_check, unresolved_resolve, ends_ite, ends_pure,
    ends_edit, Option.isNone_iff_eq_none]
  refine ⟨fun h => Or.inl ⟨trivial, h, trivial, hs⟩, fun hres => ?_⟩
  have hres' : (s.session.availableMemory d.activation.memory).isSome :=
    Option.isSome_iff_ne_none.2 hres
  refine allocateGeneration_at.mono (fun n s₁ h => ?_) fun _ s₁ h => ?_
  swap
  · rw [h.2]
    exact ⟨hres', ⟨_, rfl⟩, m, hs, .unbound (fun _ hroom => absurd hroom h.1) (Or.inl rfl)⟩
  obtain ⟨hroom, rfl, rfl⟩ := h
  rw [ends_outside]
  refine (TransportGeneration.bind_at hs _ d).mono (fun t w h => ?_) fun _ w h => ?_
  swap
  · refine ⟨hres', ⟨_, rfl⟩, ?_⟩
    rcases h.2 with hw | ⟨r, hr, hw⟩
    · exact ⟨m, hw, .unbound (fun t _ => h.1 t) (Or.inl rfl)⟩
    · exact ⟨_, hw, .unbound (fun t _ => h.1 t) (Or.inr ⟨r, hr, rfl⟩)⟩
  obtain ⟨hfor, hid, hver, hw⟩ := h
  rw [ends_onFail]
  simp only [ends_bind, ends_check]
  split
  · rename_i hdis
    have hfits : TransportFits k m s.session d t := ⟨hroom, hfor, hver, fun i hi =>
      ensureDisjoint_ok.1 hdis _ (List.mem_singleton.2 rfl) i hi⟩
    refine (stop_at hw).mono (fun _ s₂ h => ?_) fun _ s₂ h => ?_
    · obtain ⟨hans, hses, hw₂⟩ := h
      refine (setTransport_at hw₂ (some t)).mono (fun _ s₃ h => ?_) fun _ _ h => h.elim
      have hans' : s.session.Answers m := (answers_greeted t.isRecord).1 hans
      refine Or.inr ⟨trivial, hres', hans', t, hfits, hid, ?_, ?_⟩
      · rw [h.1, hses]
        show { ({ ({ s.session with pendingTransport := none } : ClientNodeSession) with
          nextGeneration := s.session.nextGeneration + 1 } : ClientNodeSession).stopped with
            transport := some t } = _
        unfold ClientNodeSession.stopped ClientNodeSession.isReady
        split_ifs <;> rfl
      · have hw₃ := h.2
        have hown : s₂.session.own = s.session.own := by
          rw [hses]
          exact ClientNodeSession.stopped_own _
        have hrest : s₂.session.resisted (s.session.rest (greeted t.interval m)) =
            s.session.rest (greeted t.interval m) := by
          have := resisted_rest (n := s.session) hans
          unfold ClientNodeSession.resisted at this ⊢
          rw [hown]
          exact this
        rw [← hrest]
        exact hw₃
    · obtain ⟨hans, hses, hw₂⟩ := h
      have hans' : ¬ s.session.Answers m := fun h => hans ((answers_greeted t.isRecord).2 h)
      refine ⟨hres', ⟨s.session.nextGeneration + 1, hses⟩, ?_⟩
      have hdrop : ((t.drop : Prog World Empty Unit) s₂.world).2.At
          (if (s.session.resisted (greeted t.interval m)).word (versionOf t.interval) 4 = 1 then
            rested t.interval (s.session.resisted (greeted t.interval m))
          else s.session.resisted (greeted t.interval m)) :=
        (t.drop_at hw₂).state (fun _ _ h => h) fun _ _ h => h.elim
      refine ⟨_, hdrop, .unstopped t hfits hans' ?_⟩
      split_ifs
      · exact Or.inr rfl
      · exact Or.inl rfl
  · rename_i e hdis
    refine ⟨hres', ⟨s.session.nextGeneration + 1, rfl⟩, ?_⟩
    have hver' : (greeted t.interval m).word (versionOf t.interval) 4 = 1 := by
      rw [greeted_word t.isRecord t.isRecord.version_aligned]; exact hver
    have hdrop : ((t.drop : Prog World Empty Unit) w).2.At
        (rested t.interval (greeted t.interval m)) :=
      (t.drop_at hw).state (fun _ _ h => by rw [if_pos hver'] at h; exact h) fun _ _ h => h.elim
    refine ⟨_, hdrop, .overlapping t hroom hfor hver fun hap => ?_⟩
    refine absurd (hdis.symm.trans (ensureDisjoint_ok (u := ()).2 fun i hi j hj => ?_)) (by simp)
    rw [List.mem_singleton.1 hi]
    exact hap j hj

/-! ### Commands -/

lemma apply_open (hd : s.session.state ≠ .disconnected) (hc : s.session.state ≠ .cycleClaimed)
    (c : SessionCommand) {Q : ApplyOutcome → Sys → Prop} {E : Unwind → Sys → Prop} :
    (apply k c).Ends s Q E ↔
      (dispatch k c).Ends s (fun o s₁ => restart.Ends s₁ (fun _ => Q o) E) E := by
  unfold apply
  rw [ends_bind, ends_session]
  cases h : s.session.state
  case disconnected => exact absurd h hd
  case cycleClaimed => exact absurd h hc
  all_goals simp only [ends_bind, ends_pure]

lemma apply_disconnected (hd : s.session.state = .disconnected) (c : SessionCommand) :
    (apply k c).Ends s (fun _ s' => c = .disconnect ∧ s' = s) (fun _ s' => s' = s) := by
  unfold apply
  rw [ends_bind, ends_session, hd]
  simp only [ends_ite, ends_pure, ends_raise]
  exact ⟨fun h => ⟨h, trivial⟩, fun _ => trivial⟩

end Owner

end PipewireNative.Node
