import PipewireNative.Node.Failed
import Mathlib.Data.Finset.Card

/-!
How many peers a session keeps. A node is retained while a descriptor of it waits for memory or a
generation of it is bound, and it can be both: a replacement waits while the old generation stays.
`SetPeerActivation` adds the sizes of the two maps, which counts such a node twice.
-/

namespace PipewireNative.Node

open Lib Prog World Sys

def ClientNodeSession.retainedNodes (s : ClientNodeSession) : Finset NodeId :=
  s.pendingPeers.keys.toFinset ∪ s.peers.keys.toFinset

/-- `SetPeerActivation` is refused because there are too many. -/
def Sys.TooMany (s : Sys) (d : PeerActivationDescriptor) (k : Kernel)
    (script : List (List ServerAct)) : Prop :=
  (s.exec (.command (.setPeerActivation d)) k script).1 =
    .error (.error (.tooManyDescriptors "peer activations"))

namespace ClientNodeSession

variable {s : ClientNodeSession} {N : Finset NodeId}

lemma mem_retainedNodes {node : NodeId} :
    node ∈ s.retainedNodes ↔ node ∈ s.pendingPeers ∨ node ∈ s.peers := by
  simp [retainedNodes]

lemma card_keys {β : Type} (t : Std.ExtTreeMap NodeId β) : t.keys.toFinset.card = t.size := by
  rw [List.toFinset_card_of_nodup, Std.ExtTreeMap.length_keys]
  exact t.nodup_keys

lemma card_retainedNodes_le : s.retainedNodes.card ≤ s.pendingPeers.size + s.peers.size := by
  rw [← card_keys, ← card_keys]
  exact Finset.card_union_le _ _

/-! ### What commands do to the nodes -/

/-- Every node that is retained is one of `N`, and descriptors are where their nodes say. -/
structure Among (N : Finset NodeId) (s : ClientNodeSession) : Prop where
  pending : ∀ (node : NodeId) (d : PeerActivationDescriptor), s.pendingPeers[node]? = some d →
    node ∈ N ∧ d.node = node
  bound : ∀ node ∈ s.peers, node ∈ N

lemma Among.card_le (h : Among N s) : s.retainedNodes.card ≤ N.card := by
  refine Finset.card_le_card fun node hnode => ?_
  rcases mem_retainedNodes.1 hnode with hp | hb
  · obtain ⟨d, hd⟩ : ∃ d, s.pendingPeers[node]? = some d :=
      ⟨_, Std.ExtTreeMap.getElem?_eq_some_getElem hp⟩
    exact (h.pending node d hd).1
  · exact h.bound node hb

lemma Among.retained (h : Among N s) : Among s.retainedNodes s := by
  refine ⟨fun node d hd => ⟨?_, (h.pending node d hd).2⟩,
    fun node hb => mem_retainedNodes.2 (.inr hb)⟩
  refine mem_retainedNodes.2 (.inl ?_)
  rw [Std.ExtTreeMap.mem_iff_isSome_getElem?, hd]
  rfl

lemma Among.of_eq {n : ClientNodeSession} (h : Among N s) (hp : n.pendingPeers = s.pendingPeers)
    (hb : n.peers = s.peers) : Among N n :=
  ⟨by rw [hp]; exact h.pending, by rw [hb]; exact h.bound⟩

lemma Among.stopped (h : Among N s) : Among N s.stopped := h.of_eq stopped_pendingPeers stopped_peers

lemma Among.insert (h : Among N s) (d : PeerActivationDescriptor) :
    Among (Insert.insert d.node N) { s with pendingPeers := s.pendingPeers.insert d.node d } := by
  refine ⟨fun node d' hd' => ?_, fun node hb => Finset.mem_insert_of_mem (h.bound node hb)⟩
  rw [getElem?_insert_key] at hd'
  split_ifs at hd' with hnode
  · cases hd'
    exact ⟨by rw [hnode]; exact Finset.mem_insert_self _ _, hnode.symm⟩
  · obtain ⟨hmem, heq⟩ := h.pending node d' hd'
    exact ⟨Finset.mem_insert_of_mem hmem, heq⟩

lemma Among.erase (h : Among N s) (node : NodeId) :
    Among N { s with pendingPeers := s.pendingPeers.erase node } := by
  refine ⟨fun n d hd => h.pending n d ?_, h.bound⟩
  rw [getElem?_erase_key] at hd
  split_ifs at hd
  exact hd

lemma Among.bind (h : Among N s) {p : PeerActivation} (hp : p.node ∈ N) :
    Among N { s with peers := s.peers.insert p.node p } := by
  refine ⟨h.pending, fun node hnode => ?_⟩
  rcases Std.ExtTreeMap.mem_insert.1 hnode with heq | hmem
  · rw [← Std.LawfulEqCmp.eq_of_compare heq]
    exact hp
  · exact h.bound node hmem

lemma Among.fewer (h : Among N s) {peers : PeerSet} (hsub : ∀ node ∈ peers, node ∈ s.peers) :
    Among N { s with peers } := ⟨h.pending, fun node hb => h.bound node (hsub node hb)⟩

end ClientNodeSession

namespace Owner

open PipewireNative.Node.ClientNodeSession

variable {N : Finset NodeId} {k : Kernel}

lemma among_edit {g : ClientNodeSession → ClientNodeSession}
    (hg : ∀ n, (g n).pendingPeers = n.pendingPeers ∧ (g n).peers = n.peers) :
    Keeps (Among N) (edit g) := keeps_edit fun n h => h.of_eq (hg n).1 (hg n).2

lemma among_edit_then {α : Type} {g : ClientNodeSession → ClientNodeSession} {q : Unit → Owner α}
    (hg : ∀ n, (g n).pendingPeers = n.pendingPeers ∧ (g n).peers = n.peers)
    (hq : Keeps (Among N) (q ())) : Keeps (Among N) (edit g >>= q) :=
  (among_edit hg).bind fun _ => hq

lemma among_stop : Keeps (Among N) stop := keeps_stop fun _ h => h.stopped

lemma among_bindOutput : Keeps (Among N) (bindOutput k) :=
  keeps_bindOutput (fun _ _ h => h.of_eq rfl rfl) (fun _ h => h.stopped) fun _ _ h => h.of_eq rfl rfl

lemma among_bindTransport : Keeps (Among N) (bindTransport k) :=
  keeps_bindTransport (fun _ _ h => h.of_eq rfl rfl) (fun _ h => h.stopped)
    (fun _ h => h.of_eq rfl rfl) fun _ _ h => h.of_eq rfl rfl

lemma among_outputCandidate (format : NegotiatedAudioFormat) (buffers : BufferSetDescriptor)
    (io : PortIoDescriptor) : Keeps (Among N) (outputCandidate k format buffers io) :=
  keeps_outputCandidate (fun _ _ h => h.of_eq rfl rfl) format buffers io

/-- The generation that is bound has the node its descriptor was pending for. -/
lemma among_bindPeer (node : NodeId) : Keeps (Among N) (bindPeer k node) := by
  refine keeps_of_ends fun s hs => ?_
  unfold bindPeer
  rw [ends_bind, ends_session]
  cases hd : s.session.pendingPeers[node]? with
  | none => exact hs
  | some d =>
    obtain ⟨hmem, hnode⟩ := hs.pending node d hd
    simp only [ends_bind, ends_unwrap_some]
    refine ((keeps_check _).ends hs).mono (fun b s₁ h₁ => ?_) fun _ _ h => h
    rw [ends_ite]
    refine ⟨fun _ => h₁, fun _ => ?_⟩
    simp only [ends_bind, ends_edit]
    refine ((keeps_allocateGeneration fun _ _ h => h.of_eq rfl rfl).ends (h₁.erase node)).mono
      (fun i s₂ h₂ => ?_) fun _ _ h => h
    rw [ends_outside]
    refine (PeerActivation.bind_ends k i d _ _).mono (fun p w hp => ?_) fun _ _ _ => h₂
    refine ((keeps_check _).ends (s := ⟨s₂.session, w⟩) h₂).mono (fun _ s₃ h₃ => ?_) fun _ _ h => h
    exact h₃.bind (by rw [hp.1, hnode]; exact hmem)

lemma among_retryPending : Keeps (Among N) (retryPending k) := by
  unfold retryPending
  exact keeps_session.bind fun _ => (among_bindTransport.retryWhen _).bind fun _ =>
    keeps_session.bind fun _ => (among_bindOutput.retryWhen _).bind fun _ =>
      keeps_session.bind fun _ => (Keeps.mapList among_bindPeer _).bind fun _ => keeps_pure _

lemma among_removeMemory (key : MemoryKey) : Keeps (Among N) (removeMemory key) := by
  unfold removeMemory
  refine keeps_session.bind fun _ => Keeps.bind (Keeps.doIf (among_stop.bind fun _ => ?_) _) fun _ =>
    keeps_session.bind fun _ => Keeps.bind (Keeps.doIf (among_stop.bind fun _ => ?_) _) fun _ => ?_
  · exact keeps_setTransport none fun _ h => h.of_eq rfl rfl
  · exact among_edit fun _ => ⟨rfl, rfl⟩
  · refine keeps_edit fun n h => h.fewer fun node hnode => ?_
    exact Std.ExtTreeMap.mem_of_mem_filter hnode

lemma among_disconnect : Keeps (Among N) disconnect :=
  keeps_of_ends fun s _ => (disconnect_ends s).mono
    (fun _ s' h => by
      obtain ⟨w, -, rfl⟩ := h
      exact ⟨fun node d hd => by simp [disconnected] at hd, fun node hb => by simp [disconnected] at hb⟩)
    fun _ _ h => h.elim

lemma among_useBuffers (value : BufferSetDescriptor) : Keeps (Among N) (useBuffers k value) := by
  unfold useBuffers buffersPending
  refine keeps_session.bind fun n => ?_
  split_ifs
  · refine Keeps.bind (keeps_session.bind fun n => ?_) fun _ => among_stop.bind fun _ =>
      among_edit_then (fun _ => ⟨rfl, rfl⟩) (keeps_pure _)
    split
    · exact (among_outputCandidate _ _ _).bind fun _ => keeps_pure _
    · exact keeps_pure _
  · exact among_edit_then (fun _ => ⟨rfl, rfl⟩) among_bindOutput

lemma among_setPortIo (value : PortIoDescriptor) : Keeps (Among N) (setPortIo k value) := by
  unfold setPortIo
  refine keeps_session.bind fun n => ?_
  split
  · refine (among_outputCandidate _ _ _).bind fun o => ?_
    cases o with
    | some _ | none =>
      exact among_stop.bind fun _ => among_edit_then (fun _ => ⟨rfl, rfl⟩) (keeps_pure _)
  · exact among_edit_then (fun _ => ⟨rfl, rfl⟩) (keeps_pure _)

lemma among_setFormat (value : NegotiatedAudioFormat) : Keeps (Among N) (setFormat k value) := by
  unfold setFormat
  refine keeps_session.bind fun n => among_edit_then (fun _ => ⟨rfl, rfl⟩) ?_
  refine Keeps.bind (Keeps.doIf (among_stop.bind fun _ => ?_) _) fun _ => among_bindOutput
  exact among_edit fun _ => ⟨rfl, rfl⟩

lemma among_clearFormat : Keeps (Among N) clearFormat := by
  unfold clearFormat
  refine among_stop.bind fun _ => ?_
  exact among_edit fun _ => ⟨rfl, rfl⟩

lemma among_ensureRunning : Keeps (Among N) ensureRunning :=
  keeps_ensureRunning fun _ _ h => h.of_eq rfl rfl

lemma among_restart : Keeps (Among N) restart := keeps_restart fun _ _ h => h.of_eq rfl rfl

lemma among_dispatch {c : SessionCommand} (hc : ∀ d, c ≠ .setPeerActivation d) :
    Keeps (Among N) (dispatch k c) := by
  cases c with
  | setPeerActivation d => exact absurd rfl (hc d)
  | replaceTransport d => exact among_edit_then (fun _ => ⟨rfl, rfl⟩) among_bindTransport
  | setFormat value => exact among_setFormat value
  | clearFormat => exact among_clearFormat.bind fun _ => keeps_pure _
  | useBuffers value => exact among_useBuffers value
  | clearBuffers =>
    exact among_stop.bind fun _ => among_edit_then (fun _ => ⟨rfl, rfl⟩) (keeps_pure _)
  | setPortIo value => exact among_setPortIo value
  | clearPortIo =>
    exact among_stop.bind fun _ => among_edit_then (fun _ => ⟨rfl, rfl⟩) (keeps_pure _)
  | removePeerActivation node =>
    refine Keeps.bind (keeps_edit fun n h => ?_) fun _ => keeps_pure _
    exact (h.erase node).fewer fun _ hmem => Std.ExtTreeMap.mem_of_mem_erase hmem
  | memoryAvailable lease => exact among_edit_then (fun _ => ⟨rfl, rfl⟩) among_retryPending
  | removeMemory key =>
    exact among_edit_then (fun _ => ⟨rfl, rfl⟩) ((among_removeMemory key).bind fun _ => keeps_pure _)
  | memoryDisconnected => exact among_disconnect.bind fun _ => keeps_pure _
  | setActive active =>
    refine Keeps.bind (among_edit_then (fun _ => ⟨rfl, rfl⟩) ?_) fun _ => keeps_pure _
    cases active with
    | true => exact among_ensureRunning
    | false => exact among_stop
  | setNodeCommand command =>
    refine Keeps.bind (among_edit_then (fun _ => ⟨rfl, rfl⟩) ?_) fun _ => keeps_pure _
    cases command with
    | start => exact among_ensureRunning
    | pause => exact among_stop
    | suspend => exact among_clearFormat
  | disconnect => exact among_disconnect.bind fun _ => keeps_pure _

/-! ### Runs -/

/-- No more nodes are retained than there may be. -/
def Few (n : ClientNodeSession) : Prop := ∃ N : Finset NodeId, N.card ≤ maxSessionPeers ∧ Among N n

lemma few_keeps {α : Type} {p : Owner α} (hp : ∀ N, Keeps (Among N) p) : Keeps Few p := by
  rintro s ⟨N, hN, h⟩
  exact ⟨N, hN, hp N s h⟩

lemma few_setPeerActivation (d : PeerActivationDescriptor) : Keeps Few (setPeerActivation k d) := by
  refine keeps_of_ends fun s hs => ?_
  obtain ⟨N, hN, hamong⟩ := hs
  unfold setPeerActivation
  rw [ends_bind, ends_session, ends_ite]
  refine ⟨fun _ => ⟨N, hN, hamong⟩, fun hroom => ?_⟩
  rw [ends_bind, ends_edit]
  -- only the nodes that are retained now, and this one
  have hcard : (insert d.node s.session.retainedNodes).card ≤ maxSessionPeers := by
    have hle := hamong.card_le
    by_cases hmem : d.node ∈ s.session.retainedNodes
    · rw [Finset.insert_eq_of_mem hmem]
      omega
    · have hnot := mt mem_retainedNodes.2 hmem
      have hless : ¬ maxSessionPeers ≤ s.session.pendingPeers.size + s.session.peers.size := by
        intro hfull
        exact hroom ⟨fun h => hnot (.inl h), fun h => hnot (.inr h), hfull⟩
      have hsizes := s.session.card_retainedNodes_le
      rw [Finset.card_insert_of_notMem hmem]
      omega
  exact (few_keeps fun _ => among_bindPeer d.node).ends ⟨_, hcard, hamong.retained.insert d⟩

lemma few_dispatch (c : SessionCommand) : Keeps Few (dispatch k c) := by
  by_cases hc : ∃ d, c = .setPeerActivation d
  · obtain ⟨d, rfl⟩ := hc
    exact few_setPeerActivation d
  · exact few_keeps fun _ => among_dispatch fun d hd => hc ⟨d, hd⟩

lemma few_apply (c : SessionCommand) : Keeps Few (apply k c) := by
  unfold apply
  refine keeps_session.bind fun n => ?_
  have hopen : Keeps Few (do
      let outcome ← dispatch k c
      restart
      pure outcome) :=
    (few_dispatch c).bind fun _ => (few_keeps fun _ => among_restart).bind fun _ => keeps_pure _
  cases n.state
  case disconnected =>
    show Keeps Few (if c = .disconnect then _ else _)
    split_ifs
    · exact keeps_pure _
    · exact keeps_raise _
  case cycleClaimed => exact keeps_raise _
  all_goals exact hopen

/-! ### The refusal -/

/-- The error that there are too many peers. -/
def full : Unwind := .error (.tooManyDescriptors "peer activations")

lemma avoids_outside {α : Type} {p : Prog World SessionError α}
    (h : p.Avoids (.tooManyDescriptors "peer activations")) : (outside p).Avoids full := by
  intro s
  rw [ends_outside]
  exact (h s.world).mono (fun _ _ _ => trivial) fun e _ he => by simpa [full] using he

lemma avoids_bindPeer (node : NodeId) : (bindPeer k node).Avoids full := by
  unfold bindPeer
  refine (avoids_gets _).bind fun n => ?_
  refine Prog.Avoids.bind ?_ fun d => Prog.Avoids.bind (avoids_outside (avoids_ofExcept ?_)) fun b => ?_
  · cases n.pendingPeers[node]? with
    | none => exact avoids_fail (by simp [full])
    | some d => exact avoids_pure _
  · rw [unresolved_resolve]
    simp
  · split_ifs
    · exact avoids_pure _
    · refine (avoids_modify _).bind fun _ => Prog.Avoids.bind ?_ fun i =>
        Prog.Avoids.bind (avoids_outside ?_) fun p =>
          Prog.Avoids.bind (avoids_outside (avoids_ofExcept ?_)) fun _ =>
            (avoids_modify _).bind fun _ => avoids_pure _
      · unfold allocateGeneration
        refine (avoids_gets _).bind fun n => ?_
        split_ifs
        · exact (avoids_modify _).bind fun _ => avoids_pure _
        · exact avoids_fail (by simp [full])
      · unfold PeerActivation.bind
        exact (avoids_mapErr (by simp)).bind fun _ => (avoids_mapErr (by simp)).bind fun _ =>
          (avoids_mapErr (by simp)).bind fun _ => (avoids_mapErr (by simp)).bind fun _ =>
            avoids_pure _
      · unfold ensureDisjoint rejectIf
        split_ifs <;> simp

lemma avoids_restart : restart.Avoids full := by
  unfold restart doIf ensureRunning
  refine (avoids_modify _).bind fun _ => (avoids_gets _).bind fun n => ?_
  split_ifs
  · refine (avoids_gets _).bind fun n => ?_
    split_ifs
    · exact avoids_pure _
    · exact avoids_modify _
    · refine Prog.Avoids.bind ?_ fun t => Prog.Avoids.bind (avoids_outside ?_) fun st => ?_
      · cases n.transport with
        | none => exact avoids_fail (by simp [full])
        | some t => exact avoids_pure _
      · unfold TransportGeneration.status TransportGeneration.activationView
        exact (avoids_mapErr (by simp)).bind fun _ => avoids_mapErr (by simp)
      · cases st with
        | inactive =>
          refine Prog.Avoids.bind (avoids_outside ?_) fun _ => avoids_modify _
          unfold TransportGeneration.markReady TransportGeneration.activationView
          exact (avoids_mapErr (by simp)).bind fun _ => avoids_mapErr (by simp)
        | finished => exact avoids_modify _
        | _ => exact (avoids_fail (by simp [full])).bind fun _ => avoids_modify _
  · exact avoids_pure _

end Owner

lemma Sys.tooMany_iff_of_open {s : Sys} (hd : s.session.state ≠ .disconnected)
    (hc : s.session.state ≠ .cycleClaimed) {d : PeerActivationDescriptor}
    (hnode : d.node ∉ s.session.retainedNodes) (k : Kernel) (script : List (List ServerAct)) :
    s.TooMany d k script ↔ maxSessionPeers ≤ s.session.pendingPeers.size + s.session.peers.size := by
  have hnot : d.node ∉ s.session.pendingPeers ∧ d.node ∉ s.session.peers :=
    not_or.1 (mt ClientNodeSession.mem_retainedNodes.2 hnode)
  refine Prog.Ends.result (p := Op.run k (.command (.setPeerActivation d))) (s := s.scripted script)
    (R := fun r _ => r = .error Owner.full ↔
      maxSessionPeers ≤ s.session.pendingPeers.size + s.session.peers.size) ?_
  simp only [Op.run, ends_bind, ends_pure]
  rw [Owner.apply_open (s := s.scripted script) hd hc]
  show (Owner.setPeerActivation k d).Ends _ _ _
  unfold Owner.setPeerActivation
  rw [ends_bind, Owner.ends_session, ends_ite]
  refine ⟨fun hfull => ⟨fun _ => hfull.2.2, fun _ => rfl⟩, fun hroom => ?_⟩
  have hless : ¬ maxSessionPeers ≤ s.session.pendingPeers.size + s.session.peers.size :=
    fun hfull => hroom ⟨hnot.1, hnot.2, hfull⟩
  rw [ends_bind, Owner.ends_edit]
  refine (Owner.avoids_bindPeer d.node _).mono (fun _ s₁ _ => ?_) fun e _ he => ?_
  · refine (Owner.avoids_restart s₁).mono (fun _ _ _ => ?_) fun e _ he => ?_
    · simp [hless]
    · simp [hless, he]
  · simp [hless, he]

lemma Sys.not_tooMany_of_disconnected {s : Sys} (hd : s.session.state = .disconnected)
    {d : PeerActivationDescriptor} (k : Kernel) (script : List (List ServerAct)) :
    ¬ s.TooMany d k script := by
  refine Prog.Ends.result (p := Op.run k (.command (.setPeerActivation d))) (s := s.scripted script)
    (R := fun r _ => r ≠ .error Owner.full) ?_
  have hstate : (s.scripted script).session.state = .disconnected := hd
  unfold Op.run Owner.apply
  simp only [ends_bind, ends_pure, Owner.ends_session, hstate, ends_ite,
    Owner.ends_raise]
  exact ⟨fun h => (by cases h), fun _ => by simp [Owner.full]⟩

lemma Sys.move_few (s : Sys) (m : Move) (hc : s.session.Coherent) (h : Owner.Few s.session) :
    Owner.Few (s.move m).session := by
  cases m with
  | server a => exact h
  | op o k script =>
    cases o with
    | command c =>
      have hkeeps : Owner.Keeps Owner.Few (Op.run k (.command c)) :=
        (Owner.few_apply c).bind fun _ => Owner.keeps_pure _
      exact hkeeps (s.scripted script) h
    | wake w =>
      obtain ⟨-, st, -, hwoke⟩ := s.exec_wake hc w k script
      obtain ⟨N, hN, hamong⟩ := h
      refine ⟨N, hN, ?_⟩
      show ClientNodeSession.Among N (s.exec (.wake w) k script).2.session
      generalize (s.exec (.wake w) k script).2 = s' at hwoke
      cases hwoke with
      | ignored | drained => exact hamong
      | cycle => exact hamong.of_eq rfl rfl

lemma Sys.run_few (mem : Shm) (counter : Fd → ℕ) (moves : List Move) :
    Owner.Few ((init mem counter).run moves).session :=
  (run_keeps (I := fun s => s.session.Coherent ∧ Owner.Few s.session)
    (fun s m h => ⟨s.move_coherent m h.1, s.move_few m h.1 h.2⟩) moves _
    ⟨ClientNodeSession.coherent_new, ∅, by decide, by
      constructor <;> simp [init, ClientNodeSession.new]⟩).2

lemma Sys.tooMany_iff (mem : Shm) (counter : Fd → ℕ) (moves : List Move)
    {d : PeerActivationDescriptor}
    (hnode : d.node ∉ ((init mem counter).run moves).session.retainedNodes) (k : Kernel)
    (script : List (List ServerAct)) :
    ((init mem counter).run moves).TooMany d k script ↔
      maxSessionPeers ≤ ((init mem counter).run moves).session.pendingPeers.size +
        ((init mem counter).run moves).session.peers.size := by
  by_cases hd : ((init mem counter).run moves).session.state = .disconnected
  · have hcleared := run_cleared mem counter moves hd
    rw [hcleared.pendingPeers, hcleared.peers]
    exact ⟨fun h => absurd h (not_tooMany_of_disconnected hd k script), fun h => absurd h (by decide)⟩
  · exact tooMany_iff_of_open hd (run_coherent mem counter moves).idle hnode k script

/-- **The number of peers.** A session retains at most 64 nodes. It refuses another one exactly when
it retains that many, provided that the two maps have 64 entries only then. -/
theorem Sys.peers_capacity (mem : Shm) (counter : Fd → ℕ) (moves : List Move) :
    ((init mem counter).run moves).session.retainedNodes.card ≤ 64 ∧
      ∀ (d : PeerActivationDescriptor) (k : Kernel) (script : List (List ServerAct)),
        d.node ∉ ((init mem counter).run moves).session.retainedNodes →
          ((((init mem counter).run moves).TooMany d k script ↔
              ((init mem counter).run moves).session.retainedNodes.card = 64) ↔
            (((init mem counter).run moves).session.pendingPeers.size +
                ((init mem counter).run moves).session.peers.size < 64 ∨
              ((init mem counter).run moves).session.retainedNodes.card = 64)) := by
  obtain ⟨N, hN, hamong⟩ := run_few mem counter moves
  have hcard : ((init mem counter).run moves).session.retainedNodes.card ≤ 64 := hamong.card_le.trans hN
  refine ⟨hcard, ?_⟩
  intro d k script hnode
  rw [tooMany_iff mem counter moves hnode k script]
  have hsizes := ((init mem counter).run moves).session.card_retainedNodes_le
  unfold maxSessionPeers
  omega

/-- A descriptor of memory that is not there. -/
def Sample.waiting (node : NodeId) : PeerActivationDescriptor := ⟨node, 12, ⟨2, 0, 2312⟩⟩

/-- The sample session's peer with a replacement that waits, and peers that wait. -/
def Sample.crowd (n : ℕ) : List Move :=
  [Sample.command (.memoryAvailable Sample.lease), Sample.command (.setPeerActivation Sample.peer),
    Sample.command (.setPeerActivation (Sample.waiting 7))] ++
    (List.range n).map fun i => Sample.command (.setPeerActivation (Sample.waiting (.ofNat (100 + i))))

theorem Sys.peers_capacity_room :
    ¬ ((init Sample.mem Sample.counter).run (Sample.crowd 2)).TooMany (Sample.waiting 8)
      Sample.kernel [] := by
  intro h
  have hiff := (peers_capacity Sample.mem Sample.counter (Sample.crowd 2)).2 (Sample.waiting 8)
    Sample.kernel [] (by decide +kernel)
  exact absurd ((hiff.2 (.inl (by decide +kernel))).1 h) (by decide +kernel)

/-- Sixty-three nodes are retained, one of them both bound and pending, and no other is let in. -/
theorem Sys.peers_capacity_twice :
    ((init Sample.mem Sample.counter).run (Sample.crowd 62)).session.retainedNodes.card = 63 ∧
      (Sample.waiting 8).node ∉
        ((init Sample.mem Sample.counter).run (Sample.crowd 62)).session.retainedNodes ∧
      ((init Sample.mem Sample.counter).run (Sample.crowd 62)).TooMany (Sample.waiting 8)
        Sample.kernel [] := by
  refine ⟨by decide +kernel, by decide +kernel, ?_⟩
  exact errorOf_eq_some.1 (by decide +kernel)

end PipewireNative.Node
