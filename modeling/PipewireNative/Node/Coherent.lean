import PipewireNative.Node.Refine
import PipewireNative.Node.Phases

/-!
The sessions that occur: whatever commands and wakes a session has been through, and however they
ended, a running session is complete, no operation leaves it inside a callback, and no two of the
regions it has bound have a byte in common.
-/

namespace PipewireNative.Node

open Lib Prog World Sys

namespace ClientNodeSession

/-- What every session that occurs satisfies. -/
structure Coherent (s : ClientNodeSession) : Prop where
  idle : s.state ≠ .cycleClaimed
  ready : s.state = .running → s.isReady
  sound : ∀ g, s.output = some g → g.Sound
  keyed : ∀ (n : NodeId) (d : PeerActivationDescriptor), s.pendingPeers[n]? = some d → d.node = n
  transport_output : ∀ t g, s.transport = some t → s.output = some g →
    ∀ i ∈ g.intervals, t.interval.Disjoint i
  transport_peer : ∀ (t : TransportGeneration) (n : NodeId) (p : PeerActivation),
    s.transport = some t → s.peers[n]? = some p → t.interval.Disjoint p.interval
  output_peer : ∀ (g : OutputGeneration) (n : NodeId) (p : PeerActivation), s.output = some g →
    s.peers[n]? = some p → ∀ i ∈ g.intervals, i.Disjoint p.interval
  peer_peer : ∀ (n m : NodeId) (p q : PeerActivation), n ≠ m → s.peers[n]? = some p →
    s.peers[m]? = some q → p.interval.Disjoint q.interval

variable {s : ClientNodeSession}

lemma coherent_new : new.Coherent := by
  constructor <;> simp [new]

/-- Coherence only reads the generations, the pending peers and what the state needs. -/
lemma Coherent.of_eq {n : ClientNodeSession} (h : s.Coherent) (ht : n.transport = s.transport)
    (ho : n.output = s.output) (hp : n.peers = s.peers)
    (hd : ∀ (i : NodeId) (d : PeerActivationDescriptor), n.pendingPeers[i]? = some d →
      s.pendingPeers[i]? = some d ∨ d.node = i)
    (hidle : n.state ≠ .cycleClaimed) (hready : n.state = .running → n.isReady) : n.Coherent where
  idle := hidle
  ready := hready
  sound := by rw [ho]; exact h.sound
  keyed i d hi := (hd i d hi).elim (h.keyed i d) id
  transport_output := by rw [ht, ho]; exact h.transport_output
  transport_peer := by rw [ht, hp]; exact h.transport_peer
  output_peer := by rw [ho, hp]; exact h.output_peer
  peer_peer := by rw [hp]; exact h.peer_peer

lemma stopped_transport : s.stopped.transport = s.transport := by
  unfold stopped; split_ifs <;> rfl

lemma stopped_output : s.stopped.output = s.output := by
  unfold stopped; split_ifs <;> rfl

lemma stopped_peers : s.stopped.peers = s.peers := by
  unfold stopped; split_ifs <;> rfl

lemma stopped_pendingPeers : s.stopped.pendingPeers = s.pendingPeers := by
  unfold stopped; split_ifs <;> rfl

lemma stopped_idle (h : s.state ≠ .cycleClaimed) : s.stopped.state ≠ .cycleClaimed := by
  unfold stopped; split_ifs <;> simp_all

lemma Coherent.stopped (h : s.Coherent) : s.stopped.Coherent :=
  h.of_eq stopped_transport stopped_output stopped_peers
    (fun i d hi => Or.inl (by rw [← stopped_pendingPeers]; exact hi)) (stopped_idle h.idle)
    fun hr => absurd hr s.stopped_state_ne

lemma refreshState_eq : s.refreshState = { s with state := s.refreshState.state } := by
  unfold ClientNodeSession.refreshState; split <;> rfl

lemma refreshState_running : s.refreshState.state = .running ↔ s.state = .running := by
  unfold ClientNodeSession.refreshState
  split <;> simp_all
  split_ifs <;> simp

lemma Coherent.refreshState (h : s.Coherent) : s.refreshState.Coherent := by
  unfold ClientNodeSession.refreshState
  split
  · exact h
  · exact h
  · exact h
  · exact h
  · refine h.of_eq rfl rfl rfl (fun i d hi => Or.inl hi) ?_ ?_
    · dsimp only; split_ifs <;> simp
    · dsimp only; split_ifs <;> simp

lemma Kept.coherent {n : ClientNodeSession} (hk : s.Kept n) (h : s.Coherent) : n.Coherent := by
  refine h.of_eq hk.transport hk.output hk.peers hk.pending (by rw [hk.state]; exact h.idle)
    fun hr => ?_
  rw [hk.state] at hr
  have hs := h.ready hr
  simp only [isReady, Bool.and_eq_true] at hs ⊢
  rw [hk.transport, hk.output]
  exact ⟨⟨hs.1.1, hk.format hs.1.2 hr⟩, hs.2⟩

end ClientNodeSession

open ClientNodeSession

lemma ClientNodeSession.own_isRecord {s : ClientNodeSession} {r : MemoryInterval}
    (h : s.own = some r) : IsRecord r := by
  unfold own at h
  obtain ⟨t, -, rfl⟩ := Option.map_eq_some_iff.1 h
  exact t.isRecord

lemma ClientNodeSession.stopped_own (s : ClientNodeSession) : s.stopped.own = s.own := by
  unfold own; rw [stopped_transport]

/-! ### Edits -/

lemma ClientNodeSession.mem_transportIntervals {s : ClientNodeSession} {i : MemoryInterval} :
    i ∈ s.transportIntervals ↔ ∃ t, s.transport = some t ∧ t.interval = i := by
  simp [transportIntervals, Option.mem_toList]

lemma ClientNodeSession.mem_outputIntervals {s : ClientNodeSession} {i : MemoryInterval} :
    i ∈ s.outputIntervals ↔ ∃ g, s.output = some g ∧ i ∈ g.intervals := by
  simp [outputIntervals, Option.mem_toList]

/-- **An edit keeps a session coherent.** -/
theorem Sys.Edit.coherent {s s' : Sys} (h : Edit s s') (hc : s.session.Coherent) :
    s'.session.Coherent := by
  cases h with
  | book n hk _ _ => exact hk.coherent hc
  | calm | probe => exact hc
  | refused n r w₁ w hk _ _ _ => exact hk.coherent hc
  | intent a c _ => exact hc.of_eq rfl rfl rfl (fun _ _ h => Or.inl h) hc.idle hc.ready
  | halt a c w _ =>
    exact Coherent.stopped
      (hc.of_eq rfl rfl rfl (fun _ _ h => Or.inl h) hc.idle hc.ready)
  | replace t w₁ w₂ w₃ _ _ _ _ hdis _ =>
    have hst := hc.stopped
    refine ⟨hst.idle, fun hr => absurd hr s.session.stopped_state_ne, hst.sound, hst.keyed,
      ?_, ?_, hst.output_peer, hst.peer_peer⟩
    · intro t' g ht hg i hi
      obtain rfl : t = t' := Option.some.inj ht
      refine hdis i (List.mem_append_left _ (mem_outputIntervals.2 ⟨g, ?_, hi⟩))
      rw [← stopped_output]; exact hg
    · intro t' n p ht hp
      obtain rfl : t = t' := Option.some.inj ht
      refine hdis _ (List.mem_append_right _ ((PeerSet.mem_intervals _).2 ⟨n, p, ?_, rfl⟩))
      rw [← stopped_peers]; exact hp
  | release w hs _ =>
    exact ⟨hc.idle, fun hr => absurd hr hs, hc.sound, hc.keyed, by simp, by simp, hc.output_peer,
      hc.peer_peer⟩
  | setOutput g hs hsound hdis _ _ =>
    refine ⟨hc.idle, fun hr => absurd hr hs, ?_, hc.keyed, ?_, hc.transport_peer, ?_, hc.peer_peer⟩
    · intro g' hg
      obtain rfl : g = g' := Option.some.inj hg
      exact hsound
    · intro t g' ht hg i hi
      obtain rfl : g = g' := Option.some.inj hg
      exact (hdis i hi _ (List.mem_append_left _ (mem_transportIntervals.2 ⟨t, ht, rfl⟩))).symm
    · intro g' n p hg hp i hi
      obtain rfl : g = g' := Option.some.inj hg
      exact hdis i hi _ (List.mem_append_right _ ((PeerSet.mem_intervals _).2 ⟨n, p, hp, rfl⟩))
  | clearOutput hs =>
    exact ⟨hc.idle, fun hr => absurd hr hs, by simp, hc.keyed, by simp, hc.transport_peer, by simp,
      hc.peer_peer⟩
  | insertPeer node d p hd hnode hdis _ _ =>
    have hnode' : p.node = node := by rw [hnode]; exact hc.keyed node d hd
    subst hnode'
    have hget : ∀ (n : NodeId) (q : PeerActivation), (s.session.peers.insert p.node p)[n]? = some q →
        (n = p.node ∧ q = p) ∨ (n ≠ p.node ∧ s.session.peers[n]? = some q) := by
      intro n q hq
      rw [Std.ExtTreeMap.getElem?_insert] at hq
      split_ifs at hq with hn
      · rw [Std.LawfulEqCmp.compare_eq_iff_eq] at hn
        cases hq
        exact Or.inl ⟨hn.symm, rfl⟩
      · rw [Std.LawfulEqCmp.compare_eq_iff_eq] at hn
        exact Or.inr ⟨Ne.symm hn, hq⟩
    have hold : ∀ (n : NodeId) (q : PeerActivation), n ≠ p.node → s.session.peers[n]? = some q →
        p.interval.Disjoint q.interval := fun n q hn hq =>
      hdis _ (List.mem_append_right _ ((PeerSet.mem_intervalsExcept _).2 ⟨n, q, hq, hn, rfl⟩))
    refine ⟨hc.idle, hc.ready, hc.sound, hc.keyed, hc.transport_output, ?_, ?_, ?_⟩
    · intro t n q ht hq
      rcases hget n q hq with ⟨-, rfl⟩ | ⟨-, hq⟩
      · exact (hdis _ (List.mem_append_left _ (List.mem_append_left _
          (mem_transportIntervals.2 ⟨t, ht, rfl⟩)))).symm
      · exact hc.transport_peer t n q ht hq
    · intro g n q hg hq i hi
      rcases hget n q hq with ⟨-, rfl⟩ | ⟨-, hq⟩
      · exact (hdis _ (List.mem_append_left _ (List.mem_append_right _
          (mem_outputIntervals.2 ⟨g, hg, hi⟩)))).symm
      · exact hc.output_peer g n q hg hq i hi
    · intro n m q q' hne hq hq'
      rcases hget n q hq with ⟨hn, hqp⟩ | ⟨hn, hq₁⟩ <;>
        rcases hget m q' hq' with ⟨hm, hqp'⟩ | ⟨hm, hq₁'⟩
      · exact absurd (hn.trans hm.symm) hne
      · rw [hqp]; exact hold m q' hm hq₁'
      · rw [hqp']; exact (hold n q hn hq₁).symm
      · exact hc.peer_peer n m q q' hne hq₁ hq₁'
  | removePeers peers hp =>
    exact ⟨hc.idle, hc.ready, hc.sound, hc.keyed, hc.transport_output,
      fun t n p ht h => hc.transport_peer t n p ht (hp n p h),
      fun g n p hg h => hc.output_peer g n p hg (hp n p h),
      fun n m p q hne h h' => hc.peer_peer n m p q hne (hp n p h) (hp m q h')⟩
  | start t w _ hr _ _ =>
    exact hc.of_eq rfl rfl rfl (fun _ _ h => Or.inl h) (by simp) fun _ => hr
  | unready _ _ => exact hc.of_eq rfl rfl rfl (fun _ _ h => Or.inl h) (by simp) (by simp)
  | refresh => exact hc.refreshState

theorem Sys.Edits.coherent {s s' : Sys} (h : Edits s s') (hc : s.session.Coherent) :
    s'.session.Coherent := by
  induction h with
  | refl => exact hc
  | tail _ he ih => exact he.coherent ih

theorem Sys.Applied.coherent {c : SessionCommand} {s s' : Sys} (h : Applied c s s')
    (hc : s.session.Coherent) : s'.session.Coherent := by
  cases h with
  | ignored => exact hc
  | closed _ h =>
    obtain ⟨w, -, rfl⟩ := h
    constructor <;> simp [disconnected]
  | edited _ _ h =>
    exact h.coherent (hc.of_eq rfl rfl rfl (fun _ _ h => Or.inl h) hc.idle hc.ready)

/-! ### Moves -/

/-- The system an operation of a move starts in. -/
def Sys.scripted (s : Sys) (script : List (List ServerAct)) : Sys :=
  { s with world := { s.world with script := script } }

/-- **Commands in a run.** -/
theorem Sys.exec_command (s : Sys) (c : SessionCommand) (k : Kernel)
    (script : List (List ServerAct)) :
    (s.exec (.command c) k script).1 ≠ .error .panic ∧
      Applied c (s.scripted script) (s.exec (.command c) k script).2 ∧
      (∀ o, (s.exec (.command c) k script).1 = .ok o → c.closes = false →
        Settled c (s.scripted script) (s.exec (.command c) k script).2) := by
  refine Prog.Ends.result (p := Op.run k (.command c)) (s := s.scripted script)
    (R := fun r s' => r ≠ .error .panic ∧ Applied c (s.scripted script) s' ∧
      (∀ o, r = .ok o → c.closes = false → Settled c (s.scripted script) s')) ?_
  simp only [Op.run, ends_bind, ends_pure]
  exact (Owner.apply_ends (s.scripted script) k c).mono
    (fun _ _ h => ⟨by simp, h.1, fun _ _ => h.2⟩) fun e _ h => ⟨by simpa using h.1, h.2, by simp⟩

/-- **The phases of a wake in a run.** -/
theorem Sys.exec_phases (s : Sys) (hc : s.session.Coherent) (wake : Owner.Wake) (k : Kernel)
    (script : List (List ServerAct)) :
    ∃ r, (s.exec (.wake wake) k script).1 = r.map Outcome.woken ∧
      Phases k wake (s.scripted script) r (s.exec (.wake wake) k script).2 := by
  have hready : (s.scripted script).session.state = .running →
      ∃ g, (s.scripted script).session.output = some g := fun hr => by
    have := hc.ready hr
    simp only [ClientNodeSession.isReady, Bool.and_eq_true] at this
    exact Option.isSome_iff_exists.1 this.2
  refine Prog.Ends.result (p := Op.run k (.wake wake)) (s := s.scripted script)
    (R := fun r' s' => ∃ r : Except Unwind WakeOutcome, r' = r.map Outcome.woken ∧
      Phases k wake (s.scripted script) r s') ?_
  simp only [Op.run, ends_bind, ends_pure]
  exact (Owner.onWake_phases hready).mono (fun o _ h => ⟨.ok o, rfl, h⟩)
    fun e _ h => ⟨.error e, rfl, h⟩

/-- **Wakes in a run.** -/
theorem Sys.exec_wake (s : Sys) (hc : s.session.Coherent) (wake : Owner.Wake) (k : Kernel)
    (script : List (List ServerAct)) :
    (s.exec (.wake wake) k script).1 ≠ .error .panic ∧
      ∃ st, (st = s.session.state ∨ s.session.state = .running ∧ st = .failed) ∧
        Woke wake (s.scripted script) st (s.exec (.wake wake) k script).2 := by
  obtain ⟨r, hr, h⟩ := s.exec_phases hc wake k script
  obtain ⟨hpanic, st, hst, hwoke⟩ := h.woke (s := s.scripted script) hc.sound
  rw [hr]
  refine ⟨fun h => ?_, st, hst.imp_right fun h => ⟨h.1, h.2.1⟩, hwoke⟩
  cases r <;> cases h
  exact hpanic rfl

lemma Woke.coherent {wake : Owner.Wake} {s s' : Sys} {st : SessionState} (h : Woke wake s st s')
    (hst : st = s.session.state ∨ st = .failed) (hc : s.session.Coherent) :
    s'.session.Coherent := by
  cases h with
  | ignored | drained => exact hc
  | cycle t g st w _ _ hr _ _ =>
    refine hc.of_eq rfl rfl rfl (fun _ _ h => Or.inl h) ?_ ?_
    · rcases hst with rfl | rfl
      · exact hc.idle
      · simp
    · exact fun _ => hc.ready hr

theorem Sys.move_coherent (s : Sys) (m : Move) (hc : s.session.Coherent) :
    (s.move m).session.Coherent := by
  cases m with
  | server a => exact hc
  | op o k script =>
    cases o with
    | command c => exact (s.exec_command c k script).2.1.coherent hc
    | wake w =>
      obtain ⟨-, st, hst, h⟩ := s.exec_wake hc w k script
      exact h.coherent (hst.imp_right fun h => h.2) hc

/-- Every session that occurs is coherent. -/
theorem Sys.run_coherent (mem : Shm) (counter : Fd → ℕ) (moves : List Move) :
    ((init mem counter).run moves).session.Coherent :=
  run_keeps (I := fun s => s.session.Coherent) (fun s m => s.move_coherent m) moves _ coherent_new

/-! ### Generation numbers -/

/-- Every generation that is bound has a number that has been used up. -/
structure ClientNodeSession.Fresh (s : ClientNodeSession) : Prop where
  transport : ∀ t, s.transport = some t → t.id < s.nextGeneration
  output : ∀ g, s.output = some g → g.id < s.nextGeneration
  peers : ∀ (n : NodeId) (p : PeerActivation), s.peers[n]? = some p → p.generation < s.nextGeneration

lemma ClientNodeSession.Fresh.of_eq {s n : ClientNodeSession} (h : s.Fresh)
    (ht : n.transport = s.transport) (ho : n.output = s.output) (hp : n.peers = s.peers)
    (hn : s.nextGeneration ≤ n.nextGeneration) : n.Fresh where
  transport t e := Nat.lt_of_lt_of_le (h.transport t (ht ▸ e)) hn
  output g e := Nat.lt_of_lt_of_le (h.output g (ho ▸ e)) hn
  peers i p e := Nat.lt_of_lt_of_le (h.peers i p (hp ▸ e)) hn

lemma ClientNodeSession.stopped_next {s : ClientNodeSession} :
    s.stopped.nextGeneration = s.nextGeneration := by
  unfold stopped; split_ifs <;> rfl

lemma ClientNodeSession.Fresh.stopped {s : ClientNodeSession} (h : s.Fresh) : s.stopped.Fresh :=
  h.of_eq stopped_transport stopped_output stopped_peers (Nat.le_of_eq stopped_next.symm)

theorem Sys.Edit.fresh {s s' : Sys} (h : Edit s s') (hf : s.session.Fresh) : s'.session.Fresh := by
  cases h with
  | book n hk | refused n r w₁ w hk => exact hf.of_eq hk.transport hk.output hk.peers hk.next
  | halt a c w _ => exact Fresh.stopped (hf.of_eq rfl rfl rfl (Nat.le_refl _))
  | replace t w₁ w₂ w₃ _ _ _ hid _ _ =>
    have hst := hf.stopped
    refine ⟨fun t' e => ?_, fun g e => ?_, fun n p e => ?_⟩
    · obtain rfl : t = t' := Option.some.inj e
      rw [hid]; exact Nat.lt_succ_self _
    · have := hst.output g e
      rw [stopped_next] at this
      exact Nat.lt_succ_of_lt this
    · have := hst.peers n p e
      rw [stopped_next] at this
      exact Nat.lt_succ_of_lt this
  | release w _ _ => exact ⟨by simp, hf.output, hf.peers⟩
  | setOutput g _ _ _ _ hid =>
    refine ⟨hf.transport, fun g' e => ?_, hf.peers⟩
    obtain rfl : g = g' := Option.some.inj e
    exact hid
  | clearOutput => exact ⟨hf.transport, by simp, hf.peers⟩
  | insertPeer node d p _ _ _ _ hgen =>
    refine ⟨hf.transport, hf.output, fun n q e => ?_⟩
    simp only [Std.ExtTreeMap.getElem?_insert] at e
    split_ifs at e
    · cases e; exact hgen
    · exact hf.peers n q e
  | removePeers peers hp => exact ⟨hf.transport, hf.output, fun n q e => hf.peers n q (hp n q e)⟩
  | refresh => rw [refreshState_eq]; exact ⟨hf.transport, hf.output, hf.peers⟩
  | _ => exact ⟨hf.transport, hf.output, hf.peers⟩

theorem Sys.Edits.fresh {s s' : Sys} (h : Edits s s') (hf : s.session.Fresh) : s'.session.Fresh := by
  induction h with
  | refl => exact hf
  | tail _ he ih => exact he.fresh ih

/-- Generation numbers are never used twice. -/
theorem Sys.run_fresh (mem : Shm) (counter : Fd → ℕ) (moves : List Move) :
    ((init mem counter).run moves).session.Fresh := by
  refine (run_keeps (I := fun s => s.session.Coherent ∧ s.session.Fresh) (fun s m h => ?_) moves _
    ⟨coherent_new, by constructor <;> simp [init, new]⟩).2
  refine ⟨s.move_coherent m h.1, ?_⟩
  obtain ⟨hc, hf⟩ := h
  cases m with
  | server a => exact hf
  | op o k script =>
    cases o with
    | command c =>
      show (s.exec (.command c) k script).2.session.Fresh
      generalize (s.exec (.command c) k script).2 = s', (s.exec_command c k script).2.1 = h
      cases h with
      | ignored => exact hf
      | closed _ h =>
        obtain ⟨w, -, rfl⟩ := h
        constructor <;> simp [disconnected]
      | edited _ _ h => exact h.fresh (hf.of_eq rfl rfl rfl (Nat.le_refl _))
    | wake w =>
      obtain ⟨-, st, hst, h⟩ := s.exec_wake hc w k script
      show (s.exec (.wake w) k script).2.session.Fresh
      generalize (s.exec (.wake w) k script).2 = s' at h
      cases h with
      | ignored | drained | cycle => exact ⟨hf.transport, hf.output, hf.peers⟩

/-! ### The regions of a session -/

/-- The regions a session has bound: its own activation, the port IO area, the metadata and the
media of each buffer, and each peer activation. -/
def ClientNodeSession.regions (s : ClientNodeSession) : List MemoryInterval :=
  s.transportIntervals ++ s.outputIntervals ++ s.peers.intervals

theorem ClientNodeSession.Coherent.regions {s : ClientNodeSession} (h : s.Coherent) :
    s.regions.Pairwise Span.Disjoint := by
  unfold ClientNodeSession.regions
  rw [List.pairwise_append, List.pairwise_append]
  refine ⟨⟨?_, ?_, ?_⟩, ?_, ?_⟩
  · unfold transportIntervals
    cases s.transport <;> simp
  · unfold outputIntervals
    cases hg : s.output with
    | none => simp
    | some g => simpa using (h.sound g hg).disjoint
  · intro i hi j hj
    obtain ⟨t, ht, rfl⟩ := mem_transportIntervals.1 hi
    obtain ⟨g, hg, hj⟩ := mem_outputIntervals.1 hj
    exact h.transport_output t g ht hg j hj
  · -- the peers of the list have different nodes
    unfold PeerSet.intervals
    rw [List.pairwise_map]
    refine List.Pairwise.imp_of_mem (fun {a b} ha hb hab => ?_)
      (Std.ExtTreeMap.distinct_keys_toList (t := s.peers))
    rw [Std.ExtTreeMap.mem_toList_iff_getElem?_eq_some] at ha hb
    refine h.peer_peer a.1 b.1 a.2 b.2 ?_ ha hb
    simpa [Std.LawfulEqCmp.compare_eq_iff_eq] using hab
  · intro i hi j hj
    obtain ⟨n, p, hp, rfl⟩ := (PeerSet.mem_intervals _).1 hj
    rcases List.mem_append.1 hi with hi | hi
    · obtain ⟨t, ht, rfl⟩ := mem_transportIntervals.1 hi
      exact h.transport_peer t n p ht hp
    · obtain ⟨g, hg, hi⟩ := mem_outputIntervals.1 hi
      exact h.output_peer g n p hg hp i hi

/-- **No two regions meet.** In every state a run from a new session reaches, whatever the
commands and wakes returned and whatever the server did, two regions the session has bound in the
same backing object are disjoint byte intervals. -/
theorem Sys.regions_disjoint (mem : Shm) (counter : Fd → ℕ) (moves : List Move) :
    ((init mem counter).run moves).session.regions.Pairwise fun a b =>
      a.obj = b.obj → a.stop ≤ b.start ∨ b.stop ≤ a.start :=
  (run_coherent mem counter moves).regions

end PipewireNative.Node
