import PipewireNative.Node.Frame
import PipewireNative.Node.Quiet
import PipewireNative.Node.Lifecycle

/-!
An announcement of memory retries everything: the pending transport, then the output, whether or
not one is bound already, then every pending peer, and at last the restart. The first of these
that has something to do decides whether the announcement leaves the cycle alone, and every stage
is followed here up to that decision.
-/

namespace PipewireNative.Node

open Lib Prog World Sys

/-- The lease table entry `id` is named by a descriptor that is retained or pending. -/
def ClientNodeSession.refersTo (s : ClientNodeSession) (id : MemoryId) : Bool :=
  s.pendingTransport.any (fun d => decide (d.activation.memory = id)) ||
  s.bufferDescriptor.any (fun b => decide (id ∈ bufferMemoryIds b)) ||
  s.ioDescriptor.any (fun io => decide (io.region.memory = id)) ||
  s.pendingPeers.values.any fun d => decide (d.activation.memory = id)

/-- State, generations and own status are the same in `s'` as in `s`. -/
structure Sys.Untouched (s s' : Sys) : Prop where
  state : s'.session.state = s.session.state
  transport : s'.session.transport.map (·.id) = s.session.transport.map (·.id)
  output : s'.session.output.map (·.id) = s.session.output.map (·.id)
  peers : ∀ n : NodeId, (s'.session.peers[n]?).map (·.generation) =
    (s.session.peers[n]?).map (·.generation)
  status : ∀ r, s.session.own = some r →
    s'.world.mem.word (statusOf r) 4 = s.world.mem.word (statusOf r) 4

lemma ClientNodeSession.settled_eq (s : ClientNodeSession) : s.settled = { s with
    state := if s.wanted && s.isReady then .running else s.refreshState.state } := by
  have hw : s.refreshState.wanted = s.wanted := by rw [s.refreshState_eq]; rfl
  have hr : s.refreshState.isReady = s.isReady := by rw [s.refreshState_eq]; rfl
  unfold ClientNodeSession.settled
  rw [hw, hr]
  split_ifs
  · rw [s.refreshState_eq]
  · exact s.refreshState_eq

namespace Owner

variable {s : Sys} {m : Shm} {k : Kernel}

/-! ### What each stage may find -/

/-- The restart changes neither state nor status: a start that goes through finds the session
running and its record finished. -/
def RestartHarmless (m : Shm) (n : ClientNodeSession) : Prop :=
  n.refreshState.state = n.state ∧
    ((n.wanted && n.isReady) = true → n.Startable m → n.state = .running ∧
      ∀ r, n.own = some r → m.word (statusOf r) 4 = ActivationStatus.finished.code)

/-- The first pending peer whose memory is there is refused; without one, the restart decides. -/
def PeersHarmless (k : Kernel) (m : Shm) (n : ClientNodeSession) : List NodeId → Prop
  | [] => RestartHarmless m n
  | node :: nodes =>
    match n.pendingPeers[node]? with
    | none => True
    | some d =>
      if (n.availableMemory d.activation.memory).isSome then ∀ p, ¬ PeerFits k m n node d p
      else PeersHarmless k m n nodes

/-- The own record does not even admit to a version, so that it cannot be stopped. -/
def ClientNodeSession.Mute (m : Shm) (n : ClientNodeSession) : Prop :=
  ∃ r, n.own = some r ∧ m.word (versionOf r) 4 ≠ 1

/-- An output whose memory is there is refused, or bound behind a record that cannot be stopped. -/
def OutputHarmless (k : Kernel) (m : Shm) (n : ClientNodeSession) : Prop :=
  match n.format, n.bufferDescriptor, n.ioDescriptor with
  | some format, some buffers, some io =>
    if Resolvable n.availableMemory buffers io then
      ∀ g, OutputFits k m n format buffers io g → ClientNodeSession.Mute m n
    else PeersHarmless k m n n.pendingPeers.keys
  | _, _, _ => PeersHarmless k m n n.pendingPeers.keys

/-- A candidate for the transport is refused without loss: it overlaps, and its record is not the
own one unless that is out of scheduling, or the own record cannot be stopped. -/
def CandidateHarmless (m : Shm) (n : ClientNodeSession) (t : TransportGeneration) : Prop :=
  ((∀ i ∈ n.outputIntervals ++ n.peers.intervals, t.interval.Disjoint i) →
    ClientNodeSession.Mute m n) ∧
  ((¬ ∀ i ∈ n.outputIntervals ++ n.peers.intervals, t.interval.Disjoint i) →
    ∀ r, n.own = some r → statusOf t.interval = statusOf r →
      m.word (statusOf r) 4 = ActivationStatus.inactive.code)

/-- **The retry leaves the cycle alone.** -/
def RetryHarmless (k : Kernel) (m : Shm) (n : ClientNodeSession) : Prop :=
  match n.pendingTransport with
  | none => OutputHarmless k m n
  | some d =>
    if (n.availableMemory d.activation.memory).isSome then
      ∀ t : TransportGeneration, n.nextGeneration + 1 < usizeBound → t.For k n.availableMemory d →
        m.word (versionOf t.interval) 4 = 1 → CandidateHarmless m n t
    else OutputHarmless k m n

/-! ### The stages -/

lemma untouched_of_eq {s' : Sys} (hs : s.world.At m) {m' : Shm} (hw : s'.world.At m')
    (hst : s'.session.state = s.session.state) (ht : s'.session.transport = s.session.transport)
    (ho : s'.session.output = s.session.output) (hp : s'.session.peers = s.session.peers) :
    Untouched s s' ↔ ∀ r, s.session.own = some r →
      m'.word (statusOf r) 4 = m.word (statusOf r) 4 := by
  constructor
  · intro h r hr
    have := h.status r hr
    rwa [hw.mem, hs.mem] at this
  · intro h
    refine ⟨hst, by rw [ht], by rw [ho], fun n => by rw [hp], fun r hr => ?_⟩
    rw [hw.mem, hs.mem]
    exact h r hr

lemma versionOf_congr {r r' : MemoryInterval} (h : statusOf r = statusOf r') :
    versionOf r = versionOf r' := by
  simp only [statusOf, Loc.mk.injEq] at h
  simp only [versionOf, h.1, h.2]

lemma resisted_status {n : ClientNodeSession} (h : ¬ n.Answers m) :
    (∀ r, n.own = some r → (n.resisted m).word (statusOf r) 4 = m.word (statusOf r) 4) ↔
      ClientNodeSession.Mute m n := by
  unfold ClientNodeSession.Answers at h
  obtain ⟨r, hown, hr⟩ : ∃ r, n.own = some r ∧ ¬ Answers m r := by
    simpa only [not_forall, exists_prop] using h
  have hres : n.resisted m = if m.word (versionOf r) 4 = 1 then rested r m else m := by
    unfold ClientNodeSession.resisted; rw [hown]
  rw [hres]
  constructor
  · intro hsame
    refine ⟨r, hown, fun hver => hr ⟨hver, ?_⟩⟩
    have := hsame r hown
    rw [if_pos hver, rested_status] at this
    rw [← this]
    decide
  · rintro ⟨r', hr', hver⟩ r'' hr''
    obtain rfl : r = r' := Option.some.inj (hown.symm.trans hr')
    rw [if_neg hver]

lemma restart_harmless (hs : s.world.At m) :
    Untouched s (restart s).2 ↔ RestartHarmless m s.session := by
  refine (ends_state (I := fun s' => Untouched s s' ↔ RestartHarmless m s.session)).1 ?_
  have hframe : s.session.refreshState = { s.session with state := s.session.refreshState.state } :=
    s.session.refreshState_eq
  refine (restart_at hs).mono (fun _ s' h => ?_) fun _ s' h => ?_
  · obtain ⟨hok, hses, hw⟩ := h
    rw [ClientNodeSession.settled_eq] at hses
    by_cases hgo : (s.session.wanted && s.session.isReady) = true
    · rw [if_pos hgo] at hses hw
      obtain ⟨r, hown, hver, hst⟩ := hok hgo
      constructor
      · intro h
        have hrun : s.session.state = .running := by rw [← h.state, hses]
        refine ⟨by rw [ClientNodeSession.refreshState_running.2 hrun, hrun], fun _ _ =>
          ⟨hrun, fun r' hr' => ?_⟩⟩
        obtain rfl : r = r' := Option.some.inj (hown.symm.trans hr')
        have hsame := h.status r hown
        rw [hw.mem, hs.mem] at hsame
        unfold ClientNodeSession.started at hsame
        simp only [hown] at hsame
        split_ifs at hsame with hin
        · rw [Memory.word_setWord_same (ActivationStatus.code_lt _), hin] at hsame
          exact absurd hsame (by decide)
        · exact hst.resolve_left hin
      · intro h
        obtain ⟨hrun, hfin⟩ := h.2 hgo ⟨r, hown, hver, hst⟩
        have hmem : s.session.started m = m := by
          unfold ClientNodeSession.started
          simp only [hown]
          rw [if_neg]
          rw [hfin r hown]
          decide
        rw [hmem] at hw
        refine (untouched_of_eq hs hw ?_ ?_ ?_ ?_).2 fun _ _ => rfl <;> rw [hses]
        exact hrun.symm
    · rw [if_neg hgo] at hses hw
      constructor
      · intro h
        refine ⟨?_, fun h' => absurd h' hgo⟩
        rw [← h.state, hses]
      · intro h
        refine (untouched_of_eq hs hw ?_ ?_ ?_ ?_).2 fun _ _ => rfl <;> rw [hses]
        exact h.1
  · obtain ⟨-, hno, hses, hw⟩ := h
    rw [hframe] at hses
    constructor
    · intro h
      refine ⟨?_, fun _ h' => absurd h' hno⟩
      rw [← h.state, hses]
    · intro h
      refine (untouched_of_eq hs hw ?_ ?_ ?_ ?_).2 fun _ _ => rfl <;> rw [hses]
      exact h.1

/-- A node bound under a generation from `g` on. -/
def Rebound (node : NodeId) (g : ℕ) (n : ClientNodeSession) : Prop :=
  g ≤ n.nextGeneration ∧ ∃ p, n.peers[node]? = some p ∧ g ≤ p.generation

lemma bindPeer_rebound {node : NodeId} {g : ℕ} (node' : NodeId) (h : Rebound node g s.session) :
    (bindPeer k node').Ends s (fun _ s' => Rebound node g s'.session)
      (fun _ s' => Rebound node g s'.session) := by
  unfold bindPeer
  simp only [ends_bind, ends_session]
  cases s.session.pendingPeers[node']? with
  | none => exact h
  | some d =>
    simp only [ends_unwrap_some, ends_check, unresolved_resolve, ends_ite, ends_pure,
      ends_bind, ends_edit]
    refine ⟨fun _ => h, fun _ => ?_⟩
    refine allocateGeneration_at.mono (fun i s₁ h₁ => ?_) fun _ s₁ h₁ => ?_
    · obtain ⟨-, rfl, rfl⟩ := h₁
      obtain ⟨hle, p, hp, hpg⟩ := h
      rw [ends_outside]
      refine (PeerActivation.bind_ends k _ d _ _).mono (fun p' w h₂ => ?_) fun _ _ _ => ?_
      · split
        · refine ⟨by show g ≤ s.session.nextGeneration + 1; omega, ?_⟩
          show ∃ q, (s.session.peers.insert p'.node p')[node]? = some q ∧ g ≤ q.generation
          rw [Std.ExtTreeMap.getElem?_insert]
          split_ifs
          · exact ⟨p', rfl, by rw [h₂.2.1]; exact hle⟩
          · exact ⟨p, hp, hpg⟩
        · exact ⟨by show g ≤ s.session.nextGeneration + 1; omega, p, hp, hpg⟩
      · exact ⟨by show g ≤ s.session.nextGeneration + 1; omega, p, hp, hpg⟩
    · rw [h₁.2]
      exact h

lemma Rebound.touched {node : NodeId} {s' : Sys} (hf : s.session.Fresh)
    (h : Rebound node s.session.nextGeneration s'.session) : ¬ Untouched s s' := by
  obtain ⟨-, p, hp, hle⟩ := h
  intro hun
  have hold := hun.peers node
  rw [hp] at hold
  cases hq : s.session.peers[node]? with
  | none => rw [hq] at hold; exact absurd hold (by simp)
  | some q =>
    rw [hq] at hold
    have hgen : p.generation = q.generation := Option.some.inj hold
    have := hf.peers node q hq
    omega

lemma untouched_congr {s₁ s' : Sys} (hs : s.world.At m) (hs₁ : s₁.world.At m)
    (h : s₁.session = s.session) : Untouched s₁ s' ↔ Untouched s s' := by
  have hmem : s₁.world.mem = s.world.mem := hs₁.mem.trans hs.mem.symm
  constructor
  · rintro ⟨h₁, h₂, h₃, h₄, h₅⟩
    rw [h] at h₁ h₂ h₃ h₄ h₅
    rw [hmem] at h₅
    exact ⟨h₁, h₂, h₃, h₄, h₅⟩
  · rintro ⟨h₁, h₂, h₃, h₄, h₅⟩
    constructor <;> rw [h]
    · exact h₁
    · exact h₂
    · exact h₃
    · exact h₄
    · rw [hmem]; exact h₅

lemma peers_harmless (hf : s.session.Fresh) (hs : s.world.At m) (nodes : List NodeId)
    (hnodes : ∀ n ∈ nodes, n ∈ s.session.pendingPeers) :
    (Prog.mapList (bindPeer k) nodes).Ends s
      (fun _ s₁ => Untouched s (restart s₁).2 ↔ PeersHarmless k m s.session nodes)
      (fun _ s₁ => Untouched s s₁ ↔ PeersHarmless k m s.session nodes) := by
  induction nodes generalizing s with
  | nil => exact restart_harmless hs
  | cons node nodes ih =>
    obtain ⟨d, hd⟩ : ∃ d, s.session.pendingPeers[node]? = some d :=
      Option.isSome_iff_exists.1 (Std.ExtTreeMap.isSome_getElem?_iff_mem.2
        (hnodes node List.mem_cons_self))
    unfold PeersHarmless
    simp only [hd, Prog.mapList, ends_bind, ends_pure]
    refine (bindPeer_at hs node hd).mono (fun _ s₁ h => ?_) fun _ s₁ h => ?_
    · obtain ⟨hw₁, ⟨-, hnone, hses⟩ | ⟨-, hsome, p, hp, hgen, hses⟩⟩ := h
      · rw [if_neg (by simp [hnone])]
        refine (ih (s := s₁) (hses ▸ hf) hw₁ fun n hn => ?_).mono (fun _ s₂ h => ?_) fun _ s₂ h => ?_
        · rw [hses]; exact hnodes n (List.mem_cons_of_mem _ hn)
        · rwa [untouched_congr hs hw₁ hses, hses] at h
        · rwa [untouched_congr hs hw₁ hses, hses] at h
      · rw [if_pos hsome]
        -- the peer has a new generation now, and nothing that follows takes it back
        have hreb : Rebound p.node s.session.nextGeneration s₁.session := by
          rw [hses]
          exact ⟨Nat.le_succ _, p, Std.ExtTreeMap.getElem?_insert_self, hgen.ge⟩
        have hno : ¬ ∀ p, ¬ PeerFits k m s.session node d p := fun h => h p hp
        refine (ends_mapList (I := fun _ _ s' => Rebound p.node s.session.nextGeneration
          s'.session) (fun _ n _ _ _ _ h => bindPeer_rebound n h) hreb).mono
          (fun _ s₂ h => iff_of_false ?_ hno) fun _ s₂ h => iff_of_false (h.touched hf) hno
        have hreb₂ : Rebound p.node s.session.nextGeneration (restart s₂).2.session :=
          keeps_restart (fun _ _ h => h) s₂ h
        exact hreb₂.touched hf
    · obtain ⟨hw₁, hsome, hno, n, hses⟩ := h
      rw [if_pos hsome]
      refine iff_of_true ?_ hno
      exact (untouched_of_eq hs hw₁ (by rw [hses]) (by rw [hses]) (by rw [hses])
        (by rw [hses])).2 fun _ _ => rfl

lemma output_harmless (hf : s.session.Fresh) (hs : s.world.At m) :
    (retryWhen (s.session.bufferDescriptor.isSome && s.session.ioDescriptor.isSome)
        (bindOutput k)).Ends s
      (fun _ s₁ => (Prog.mapList (bindPeer k) s₁.session.pendingPeers.keys).Ends s₁
        (fun _ s₂ => Untouched s (restart s₂).2 ↔ OutputHarmless k m s.session)
        (fun _ s₂ => Untouched s s₂ ↔ OutputHarmless k m s.session))
      (fun _ s₁ => Untouched s s₁ ↔ OutputHarmless k m s.session) := by
  have hpass : ∀ s₁ : Sys, s₁.session = s.session → s₁.world.At m →
      OutputHarmless k m s.session = PeersHarmless k m s.session s.session.pendingPeers.keys →
      (Prog.mapList (bindPeer k) s₁.session.pendingPeers.keys).Ends s₁
        (fun _ s₂ => Untouched s (restart s₂).2 ↔ OutputHarmless k m s.session)
        (fun _ s₂ => Untouched s s₂ ↔ OutputHarmless k m s.session) := by
    intro s₁ hses hw₁ heq
    refine (peers_harmless (s := s₁) (hses ▸ hf) hw₁ _ fun n hn =>
      Std.ExtTreeMap.mem_keys.1 hn).mono (fun _ s₂ h => ?_) fun _ s₂ h => ?_
    · rwa [untouched_congr hs hw₁ hses, hses, ← heq] at h
    · rwa [untouched_congr hs hw₁ hses, hses, ← heq] at h
  unfold retryWhen
  split_ifs with hc
  swap
  · rw [ends_pure]
    refine hpass s rfl hs ?_
    unfold OutputHarmless
    split
    · rename_i hb hi
      simp [hb, hi] at hc
    · rfl
  by_cases hform : s.session.format = none
  · refine (bindOutput_incomplete (Or.inl hform)).mono (fun _ s₁ h => ?_) fun _ _ h => h.elim
    rw [h.2]
    refine hpass s rfl hs ?_
    unfold OutputHarmless
    simp [hform]
  obtain ⟨format, hF⟩ := Option.ne_none_iff_exists'.1 hform
  rw [Bool.and_eq_true] at hc
  obtain ⟨buffers, hB⟩ := Option.isSome_iff_exists.1 hc.1
  obtain ⟨io, hI⟩ := Option.isSome_iff_exists.1 hc.2
  have hharm : OutputHarmless k m s.session =
      if Resolvable s.session.availableMemory buffers io then
        ∀ g, OutputFits k m s.session format buffers io g → ClientNodeSession.Mute m s.session
      else PeersHarmless k m s.session s.session.pendingPeers.keys := by
    unfold OutputHarmless; simp only [hF, hB, hI]
  refine (bindOutput_at hs hF hB hI).mono (fun _ s₁ h => ?_) fun _ s₁ h => ?_
  · rcases h with ⟨-, hno, hses, hw₁⟩ | ⟨-, hres, hans, g, hg, hid, hses, hw₁⟩
    · exact hpass s₁ hses hw₁ (by rw [hharm, if_neg hno])
    · rw [hharm, if_pos hres]
      have hno : ¬ ∀ g, OutputFits k m s.session format buffers io g →
          ClientNodeSession.Mute m s.session := by
        intro h
        obtain ⟨r, hr, hver⟩ := h g hg
        exact hver (hans r hr).1
      have htouch : ∀ s', s'.session.output = s₁.session.output → ¬ Untouched s s' := by
        intro s' hout hun
        have hold := hun.output
        rw [hout, hses] at hold
        cases hG : s.session.output with
        | none => rw [hG] at hold; exact absurd hold (by simp)
        | some g' =>
          rw [hG] at hold
          have hids : g.id = g'.id := Option.some.inj hold
          have := hf.output g' hG
          omega
      have hpeers : ∀ nodes, Keeps (fun n => n.output = s₁.session.output)
          (Prog.mapList (bindPeer k) nodes) :=
        Keeps.mapList (keeps_bindPeer (fun _ _ h => h) (fun _ _ h => h) fun _ _ h => h)
      refine ((hpeers _).ends rfl).mono (fun _ s₂ h => ?_) fun _ s₂ h =>
        iff_of_false (htouch _ h) hno
      exact iff_of_false (htouch _ (keeps_restart (I := fun n => n.output = s₁.session.output)
        (fun _ _ h => h) s₂ h)) hno
  · obtain ⟨hres, ⟨n, hses⟩, ⟨hno, hw₁⟩ | ⟨⟨g, hg⟩, hans, hw₁⟩⟩ := h
    · rw [hharm, if_pos hres]
      refine iff_of_true ?_ fun g hg => absurd hg (hno g)
      exact (untouched_of_eq hs hw₁ (by rw [hses]) (by rw [hses]) (by rw [hses])
        (by rw [hses])).2 fun _ _ => rfl
    · rw [hharm, if_pos hres, untouched_of_eq hs hw₁ (by rw [hses]) (by rw [hses]) (by rw [hses])
        (by rw [hses]), resisted_status hans]
      exact ⟨fun h _ _ => h, fun h => h g hg⟩

lemma TransportRefused.untouched {d : TransportDescriptor} {s' : Sys} {m' : Shm} {n : ℕ}
    (hs : s.world.At m) (hw : s'.world.At m')
    (hses : s'.session = { s.session with pendingTransport := none, nextGeneration := n })
    (h : TransportRefused k m s.session d m') : Untouched s s' ↔
      ∀ t : TransportGeneration, s.session.nextGeneration + 1 < usizeBound →
        t.For k s.session.availableMemory d → m.word (versionOf t.interval) 4 = 1 →
        CandidateHarmless m s.session t := by
  rw [untouched_of_eq hs hw (by rw [hses]) (by rw [hses]) (by rw [hses]) (by rw [hses])]
  cases h with
  | unbound hno hm =>
    refine iff_of_true (fun r hr => ?_) fun t hroom hfor hver => absurd hver (hno t hroom hfor)
    rcases hm with rfl | ⟨q, hq, rfl⟩
    · rfl
    · exact greeted_word hq (ClientNodeSession.own_isRecord hr).status_aligned
  | overlapping t hroom hfor hver hlap =>
    have hstatus : ∀ r, s.session.own = some r → statusOf r ≠ statusOf t.interval →
        (rested t.interval (greeted t.interval m)).word (statusOf r) 4 = m.word (statusOf r) 4 := by
      intro r hr hne
      have h8 := (ClientNodeSession.own_isRecord hr).status_aligned
      rw [rested_word t.isRecord h8 hne, greeted_word t.isRecord h8]
    constructor
    · intro hsame t' _ hfor' _
      have heq : t'.interval = t.interval := hfor'.interval_eq hfor
      refine ⟨fun h => absurd (heq ▸ h) hlap, fun _ r hr hst => ?_⟩
      rw [heq] at hst
      have := hsame r hr
      rw [← this, ← hst]
      exact rested_status
    · intro hall r hr
      by_cases hst : statusOf t.interval = statusOf r
      · rw [(hall t hroom hfor hver).2 hlap r hr hst, ← hst]
        exact rested_status
      · exact hstatus r hr (Ne.symm hst)
  | unstopped t hfits hans hm =>
    have hans' : ¬ s.session.Answers (greeted t.interval m) := by
      rwa [answers_greeted t.isRecord]
    have hres := resisted_status hans'
    have hmute : ClientNodeSession.Mute (greeted t.interval m) s.session ↔
        ClientNodeSession.Mute m s.session := by
      unfold ClientNodeSession.Mute
      refine exists_congr fun r => and_congr_right fun hr => ?_
      rw [greeted_word t.isRecord (ClientNodeSession.own_isRecord hr).version_aligned]
    rw [hmute] at hres
    have hcond : (∀ t : TransportGeneration, s.session.nextGeneration + 1 < usizeBound →
        t.For k s.session.availableMemory d → m.word (versionOf t.interval) 4 = 1 →
        CandidateHarmless m s.session t) ↔ ClientNodeSession.Mute m s.session := by
      refine ⟨fun h => (h t hfits.room hfits.described hfits.version).1 hfits.apart,
        fun h t' _ hfor' _ => ⟨fun _ => h, fun hlap => absurd ?_ hlap⟩⟩
      rw [hfor'.interval_eq hfits.described]
      exact hfits.apart
    rw [hcond, ← hres]
    refine forall_congr' fun r => forall_congr' fun hr => ?_
    have h8 := (ClientNodeSession.own_isRecord hr).status_aligned
    rw [greeted_word t.isRecord h8]
    rcases hm with rfl | rfl
    · rfl
    by_cases hst : statusOf t.interval = statusOf r
    · -- the candidate lies on the own record, which therefore has a version and was stopped
      have hver : (greeted t.interval m).word (versionOf r) 4 = 1 := by
        rw [← versionOf_congr hst, greeted_word t.isRecord t.isRecord.version_aligned]
        exact hfits.version
      have hrested : s.session.resisted (greeted t.interval m) =
          rested r (greeted t.interval m) := by
        unfold ClientNodeSession.resisted
        simp only [hr]
        rw [if_pos hver]
      rw [hrested, rested_status, ← hst, rested_status]
    · rw [rested_word t.isRecord h8 (Ne.symm hst)]

/-- **The retry and the restart after an announcement.** -/
theorem retry_harmless (hf : s.session.Fresh) (hs : s.world.At m) :
    (retryPending k).Ends s
      (fun _ s' => Untouched s (restart s').2 ↔ RetryHarmless k m s.session)
      (fun _ s' => Untouched s s' ↔ RetryHarmless k m s.session) := by
  unfold retryPending
  simp only [ends_bind, ends_session, ends_pure]
  have hpass : ∀ s₁ : Sys, s₁.session = s.session → s₁.world.At m →
      RetryHarmless k m s.session = OutputHarmless k m s.session →
      (retryWhen (s₁.session.bufferDescriptor.isSome && s₁.session.ioDescriptor.isSome)
        (bindOutput k)).Ends s₁
      (fun _ s₂ => (Prog.mapList (bindPeer k) s₂.session.pendingPeers.keys).Ends s₂
        (fun _ s₃ => Untouched s (restart s₃).2 ↔ RetryHarmless k m s.session)
        (fun _ s₃ => Untouched s s₃ ↔ RetryHarmless k m s.session))
      (fun _ s₂ => Untouched s s₂ ↔ RetryHarmless k m s.session) := by
    intro s₁ hses hw₁ heq
    have h := output_harmless (k := k) (s := s₁) (m := m) (hses ▸ hf) hw₁
    simp only [untouched_congr hs hw₁ hses] at h
    rw [heq]
    rw [hses] at h ⊢
    exact h
  unfold retryWhen at hpass ⊢
  cases hT : s.session.pendingTransport with
  | none =>
    simp only [Option.isSome_none, Bool.false_eq_true, if_false, ends_pure]
    exact hpass s rfl hs (by unfold RetryHarmless; simp only [hT])
  | some d =>
    simp only [Option.isSome_some, if_true]
    have hharm : RetryHarmless k m s.session =
        if (s.session.availableMemory d.activation.memory).isSome then
          ∀ t : TransportGeneration, s.session.nextGeneration + 1 < usizeBound →
            t.For k s.session.availableMemory d → m.word (versionOf t.interval) 4 = 1 →
            CandidateHarmless m s.session t
        else OutputHarmless k m s.session := by
      unfold RetryHarmless; simp only [hT]
    refine (bindTransport_at hs hT).mono (fun _ s₁ h => ?_) fun _ s₁ h => ?_
    · rcases h with ⟨-, hnone, hses, hw₁⟩ | ⟨-, hsome, hans, t, ht, hid, hses, hw₁⟩
      · exact hpass s₁ hses hw₁ (by rw [hharm, if_neg (by simp [hnone])])
      · rw [hharm, if_pos hsome]
        have hno : ¬ ∀ t : TransportGeneration, s.session.nextGeneration + 1 < usizeBound →
            t.For k s.session.availableMemory d → m.word (versionOf t.interval) 4 = 1 →
            CandidateHarmless m s.session t := by
          intro h
          obtain ⟨r, hr, hver⟩ := (h t ht.room ht.described ht.version).1 ht.apart
          exact hver (hans r hr).1
        have htouch : ∀ s', s'.session.transport = s₁.session.transport → ¬ Untouched s s' := by
          intro s' heq hun
          have hold := hun.transport
          rw [heq, hses] at hold
          cases hG : s.session.transport with
          | none => rw [hG] at hold; exact absurd hold (by simp)
          | some t' =>
            rw [hG] at hold
            have hids : t.id = t'.id := Option.some.inj hold
            have := hf.transport t' hG
            omega
        have hout : Keeps (fun n => n.transport = s₁.session.transport) (bindOutput k) :=
          keeps_bindOutput (fun _ _ h => h) (fun n h => n.stopped_transport.trans h) fun _ _ h => h
        have hpeers : ∀ nodes, Keeps (fun n => n.transport = s₁.session.transport)
            (Prog.mapList (bindPeer k) nodes) :=
          Keeps.mapList (keeps_bindPeer (fun _ _ h => h) (fun _ _ h => h) fun _ _ h => h)
        refine ((hout.retryWhen _).ends rfl).mono (fun _ s₂ h₂ => ?_) fun _ s₂ h₂ =>
          iff_of_false (htouch _ h₂) hno
        refine ((hpeers _).ends h₂).mono (fun _ s₃ h₃ => iff_of_false (htouch _ ?_) hno)
          fun _ s₃ h₃ => iff_of_false (htouch _ h₃) hno
        exact keeps_restart (I := fun n => n.transport = s₁.session.transport) (fun _ _ h => h) s₃ h₃
    · obtain ⟨hsome, ⟨n, hses⟩, m', hw₁, href⟩ := h
      rw [hharm, if_pos hsome]
      exact href.untouched hs hw₁ hses

end Owner

/-- **Announcements of memory.** In every state a run reaches, and with a server that does nothing
meanwhile, an announcement leaves state, generations and own status as they are exactly when the
session is disconnected or the retry it causes is harmless, whatever refers to its lease. -/
theorem Sys.announcement_untouched_iff (mem : Shm) (counter : Fd → ℕ) (moves : List Move)
    (k : Kernel) (lease : MemoryLease) :
    let s := (init mem counter).run moves
    Untouched s (s.exec (.command (.memoryAvailable lease)) k []).2 ↔
      s.session.state = .disconnected ∨
        Owner.RetryHarmless k s.world.mem { s.session with
          availableMemory := s.session.availableMemory.announce lease } := by
  intro s
  have hcoh := run_coherent mem counter moves
  have hf : s.session.Fresh := run_fresh mem counter moves
  refine (ends_state (p := Op.run k (.command (.memoryAvailable lease))) (s := s.scripted [])
    (I := fun s' => Untouched s s' ↔ s.session.state = .disconnected ∨
      Owner.RetryHarmless k s.world.mem { s.session with
        availableMemory := s.session.availableMemory.announce lease })).1 ?_
  simp only [Op.run, ends_bind, ends_pure]
  have hsame : Untouched s (s.scripted []) := ⟨rfl, rfl, rfl, fun _ => rfl, fun _ _ => rfl⟩
  by_cases hd : s.session.state = .disconnected
  · refine (Owner.apply_disconnected (s := s.scripted []) hd _).mono (fun _ s' h => ?_) fun _ s' h => ?_
    · exact iff_of_true (h.2 ▸ hsame) (Or.inl hd)
    · exact iff_of_true (h ▸ hsame) (Or.inl hd)
  rw [Owner.apply_open (s := s.scripted []) hd hcoh.idle]
  unfold Owner.dispatch
  rw [ends_bind, Owner.ends_edit]
  let s₁ : Sys := ⟨{ s.session with
    availableMemory := s.session.availableMemory.announce lease }, (s.scripted []).world⟩
  have hcongr : ∀ s', Untouched s₁ s' ↔ Untouched s s' := fun s' =>
    ⟨fun h => ⟨h.1, h.2, h.3, h.4, h.5⟩, fun h => ⟨h.1, h.2, h.3, h.4, h.5⟩⟩
  refine (Owner.retry_harmless (s := s₁) (m := s.world.mem) (k := k)
    (hf.of_eq rfl rfl rfl (Nat.le_refl _)) ⟨rfl, rfl⟩).mono (fun _ s' h => ?_) fun _ s' h => ?_
  · rw [hcongr] at h
    exact ends_state.2 (h.trans (or_iff_right hd).symm)
  · rw [hcongr] at h
    exact h.trans (or_iff_right hd).symm

/-- The sample session runs and the server has triggered its cycle. Memory that no descriptor
refers to is announced, and with that the output is bound anew and the own record is put back to
`FINISHED`: the cycle is lost. -/
theorem Sys.announcement_loses_cycle :
    let s := (init Sample.mem Sample.counter).run (Sample.start ++ Sample.trigger)
    let lease : MemoryLease := ⟨⟨⟨2, 1⟩, ⟨2, 1⟩, 65536⟩, .allow⟩
    let s' := (s.exec (.command (.memoryAvailable lease)) Sample.kernel []).2
    s.session.state = .running ∧ s.session.refersTo 2 = false ∧
      s.world.mem.word (statusOf ⟨Sample.backing, 0, 2312⟩) 4 = ActivationStatus.triggered.code ∧
      s'.session.output.map (·.id) ≠ s.session.output.map (·.id) ∧
      s'.world.mem.word (statusOf ⟨Sample.backing, 0, 2312⟩) 4 = ActivationStatus.finished.code ∧
      ¬ Untouched s s' := by
  intro s lease s'
  have hout : s'.session.output.map (·.id) ≠ s.session.output.map (·.id) := by decide +kernel
  exact ⟨by decide +kernel, by decide +kernel, by decide +kernel, hout, by decide +kernel,
    fun h => hout h.output⟩

end PipewireNative.Node
