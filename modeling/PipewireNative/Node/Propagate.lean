import PipewireNative.Node.Attempts
import PipewireNative.Node.Publish

/-!
Peers in a wake. They are left alone until the exchange that ends the own cycle has succeeded; a
cycle that went through is then followed by one attempt on each of them, and a cycle that went
wrong by none.
-/

namespace PipewireNative.Node

open Lib Lib.Word Prog World

/-- The action does not reach the intervals, and writes to no eventfd. -/
def Action.Beside (ivs : List MemoryInterval) : Action → Prop
  | .load _ l n _ => ∀ i ∈ ivs, i.Disjoint ⟨l.obj, l.addr, l.addr + n⟩
  | .store _ l bs => ∀ i ∈ ivs, i.Disjoint ⟨l.obj, l.addr, l.addr + bs.length⟩
  | .exchange _ l _ _ _ | .swap _ l _ _ => ∀ i ∈ ivs, i.Disjoint ⟨l.obj, l.addr, l.addr + 4⟩
  | .signal _ _ | .failedSignal _ _ => False
  | _ => True

/-- The exchange that ends a cycle: the own status is moved from `AWAKE` to `FINISHED`. -/
def TransportGeneration.finish (t : TransportGeneration) : Action :=
  .exchange .status (statusOf t.interval) ActivationStatus.awake.code
    ActivationStatus.finished.code ActivationStatus.awake.code

/-- Beside the intervals, and not the exchange that ends the cycle. -/
def Aside (t : TransportGeneration) (ivs : List MemoryInterval) (a : Action) : Prop :=
  a.Beside ivs ∧ a ≠ t.finish

section Aside

variable {t : TransportGeneration} {g : OutputGeneration} {ivs : List MemoryInterval} {w w' : World}
  (ht : ∀ i ∈ ivs, i.Disjoint t.interval) (hg : ∀ i ∈ ivs, ∀ j ∈ g.intervals, i.Disjoint j)

include ht in
lemma World.Idle.aside {a : Action} (h : Idle t.interval a) : Aside t ivs a := by
  have hcov := t.isRecord.covers_status
  cases a with
  | load f l n v => exact ⟨fun i hi => (ht i hi).of_covers h, by simp [TransportGeneration.finish]⟩
  | exchange f l x d seen =>
    obtain ⟨hne, rfl⟩ := h
    refine ⟨fun i hi => (ht i hi).of_covers hcov, fun he => hne ?_⟩
    simp only [TransportGeneration.finish, Action.exchange.injEq] at he
    rw [he.2.2.2.2, he.2.2.1]
  | swap f l d seen =>
    obtain ⟨rfl, -⟩ := h
    exact ⟨fun i hi => (ht i hi).of_covers hcov, by simp [TransportGeneration.finish]⟩
  | drain fd n => exact ⟨trivial, by simp [TransportGeneration.finish]⟩
  | _ => exact h.elim

include hg in
lemma World.Within.aside {a : Action} (h : Within g.intervals a) : Aside t ivs a := by
  cases a with
  | load _ _ _ _ | store _ _ _ =>
    obtain ⟨j, hj, hc⟩ := h
    exact ⟨fun i hi => (hg i hi j hj).of_covers hc, by simp [TransportGeneration.finish]⟩
  | callback b => exact ⟨trivial, by simp [TransportGeneration.finish]⟩
  | _ => exact h.elim

/-- Everything done was aside. -/
def DidAside (t : TransportGeneration) (ivs : List MemoryInterval) (w w' : World) : Prop :=
  ∃ tr, Did tr w w' ∧ ∀ a ∈ tr, Aside t ivs a

lemma DidAside.trans {w₁ : World} (h : DidAside t ivs w w₁) (h' : DidAside t ivs w₁ w') :
    DidAside t ivs w w' := by
  obtain ⟨tr, hd, ha⟩ := h
  obtain ⟨tr', hd', ha'⟩ := h'
  exact ⟨tr ++ tr', hd.trans hd', fun a h => (List.mem_append.1 h).elim (ha a) (ha' a)⟩

lemma DidAside.access {a : Action} (ha : Aside t ivs a) (w : World) :
    DidAside t ivs w (w.interfere.perform a) :=
  ⟨[a], .access w a, fun b hb => by rw [List.mem_singleton.1 hb]; exact ha⟩

lemma World.Steps.aside {P : Action → Prop} (h : Steps P w w') (hP : ∀ a, P a → Aside t ivs a) :
    DidAside t ivs w w' := by
  obtain ⟨tr, hd, ha⟩ := h.did
  exact ⟨tr, hd, fun a h => hP a (ha a h)⟩

include ht

lemma DidAside.stored {f : Field} {field n v : ℕ} (hn : field + n ≤ Abi.size) (w : World) :
    DidAside t ivs w (w.stored f (t.activation.at_ field) (leBytes n v)) := by
  have hfits := t.fits
  have ha : Aside t ivs (.store f (t.activation.at_ field) (leBytes n v)) := by
    refine ⟨fun i hi => ?_, by simp [TransportGeneration.finish]⟩
    rw [leBytes_length]
    exact (ht i hi).of_covers (t.activation.covers (by omega))
  exact .access ha w

lemma DidAside.status {x d seen : ℕ}
    (hne : x ≠ ActivationStatus.awake.code ∨ seen ≠ ActivationStatus.awake.code) (w : World) :
    DidAside t ivs w (w.interfere.perform (.exchange .status (statusOf t.interval) x d seen)) := by
  have ha : Aside t ivs (.exchange .status (statusOf t.interval) x d seen) := by
    refine ⟨fun i hi => (ht i hi).of_covers t.isRecord.covers_status, fun he => ?_⟩
    simp only [TransportGeneration.finish, Action.exchange.injEq] at he
    exact hne.elim (fun h => h he.2.2.1) fun h => h he.2.2.2.2
  exact .access ha w

lemma DidAside.idle (h : Steps (Idle t.interval) w w') : DidAside t ivs w w' :=
  h.aside fun _ => Idle.aside ht

lemma Opened.aside {awakeNs : ℕ} (h : Opened t awakeNs w w') : DidAside t ivs w w' := by
  obtain ⟨w₁, w₂, hs, -, ⟨-, rfl⟩, rfl⟩ := h
  exact ((DidAside.idle ht hs).trans (.status ht (Or.inl (by decide)) w₁)).trans
    (.stored ht (by decide) _)

include hg

lemma Ran.aside {wake : Owner.Wake} {result : Except SessionError (Option PublishedOutput)} {ns : ℕ}
    (hsound : g.Sound) (h : Ran t g wake w result ns w') : DidAside t ivs w w' := by
  obtain ⟨p, w₁, w₂, status, hopen, hproc, -, rfl⟩ := h
  have hw₂ : w₂ = (g.process wake.callback w₁).2 := by rw [hproc]
  have hcycle : DidAside t ivs w₁ w₂ := by
    rw [hw₂]
    exact (OutputGeneration.does_process_within hsound wake.callback w₁).aside
      fun _ => Within.aside hg
  exact (((hopen.aside ht).trans hcycle).trans (.stored ht (by decide) _)).trans
    (.stored ht (by decide) _)

lemma unwound_aside (hsound : g.Sound) (e : SessionError) (w : World) :
    DidAside t ivs w (t.dropped (g.unwound e w)) := by
  have hroll : DidAside t ivs w (g.unwound e w) := by
    unfold OutputGeneration.unwound
    split_ifs
    · exact (OutputGeneration.does_abortPublished_within hsound w).aside fun _ => Within.aside hg
    · exact ⟨[], .refl w, by simp⟩
  exact hroll.trans (.idle ht (t.dropped_steps _))

end Aside

/-! ### The ways through a wake -/

/-- The errors of processing a cycle are faults of the cycle, and none of the finish clock. -/
lemma OutputGeneration.process_fault (g : OutputGeneration) (callback : OutputProcess) (w : World) :
    (g.process callback).Ends w (fun _ _ => True)
      (fun u _ => ∀ e, u = .error e → e.isFault = true ∧ e ≠ .finishClockPanicked) := by
  unfold process
  simp only [ends_bind, ends_mapErr, ends_ofExcept]
  split
  case h_2 => rintro e he; cases he; simp [SessionError.isFault]
  refine ends_of_forall (fun bs w₁ => ?_) fun _ _ e he => by cases he; simp [SessionError.isFault]
  refine ends_of_forall (fun o w₂ => ?_) fun _ _ e he => by cases he; simp [SessionError.isFault]
  cases o with
  | none => trivial
  | some c =>
    unfold processCycle runCallback
    simp only [ends_bind, ends_onFail, ends_pure, ends_access, ends_store]
    split
    · rintro e he; cases he
    · rintro e he; cases he; simp [SessionError.isFault]
    · rw [ends_mapErr]
      exact ends_of_forall (fun _ _ => trivial) fun _ _ e he => by cases he; simp [SessionError.isFault]

/-- A cycle that went wrong went wrong by a fault of its own, which is one of the finish clock only
where that panicked. -/
lemma Ran.fault_of_error {t : TransportGeneration} {g : OutputGeneration} {wake : Owner.Wake}
    {e : SessionError} {ns : ℕ} {w w' : World} (h : Ran t g wake w (.error e) ns w') :
    e.isFault = true ∧ (wake.finishTime.isSome → e ≠ .finishClockPanicked) := by
  obtain ⟨p, w₁, w₂, status, -, hproc, hres, -⟩ := h
  have hfault := g.process_fault wake.callback w₁
  unfold TransportGeneration.finishResult at hres
  split at hres
  · unfold TransportGeneration.cycleResult at hres
    split at hres
    · cases hres
    · cases hres
      have he := hfault.run_error hproc e rfl
      exact ⟨he.1, fun _ => he.2⟩
    · cases hres
      exact ⟨rfl, fun _ => by simp⟩
  · rename_i hnone
    cases hres
    exact ⟨rfl, fun h => by simp [hnone] at h⟩

/-- The peers are tried in turn behind the exchange that ends the own cycle, each of them once. -/
def InTurn (t : TransportGeneration) (peers : PeerSet) (tr : List Action) : Prop :=
  ∃ ns pre trs post, tr = pre ++ t.finish :: (trs.flatten ++ post) ∧
    (∀ a ∈ pre ++ post, Aside t peers.intervals a) ∧
    List.Forall₂ (fun e tr => e.2.Attempt ns tr) peers.toList trs

namespace Sys

section Phases

variable {k : Kernel} {wake : Owner.Wake} {s s' : Sys} {r : Except Unwind WakeOutcome}

lemma peers_beside_own (hc : s.session.Coherent) {t : TransportGeneration}
    (hT : s.session.transport = some t) :
    ∀ i ∈ s.session.peers.intervals, i.Disjoint t.interval := by
  intro i hi
  obtain ⟨n, p, hp, rfl⟩ := (PeerSet.mem_intervals _).1 hi
  exact (hc.transport_peer t n p hT hp).symm

lemma peers_beside_output (hc : s.session.Coherent) {g : OutputGeneration}
    (hG : s.session.output = some g) :
    ∀ i ∈ s.session.peers.intervals, ∀ j ∈ g.intervals, i.Disjoint j := by
  intro i hi j hj
  obtain ⟨n, p, hp, rfl⟩ := (PeerSet.mem_intervals _).1 hi
  exact (hc.output_peer g n p hG hp j hj).symm

lemma Phases.ended {t : TransportGeneration} {g : OutputGeneration} (hc : s.session.Coherent)
    (hT : s.session.transport = some t) (hG : s.session.output = some g)
    {result : Except SessionError (Option PublishedOutput)} {ns : ℕ} {w₁ w₂ : World}
    (hran : Ran t g wake s.world result ns w₁) (hshift : Shifts t.interval .awake .finished w₁ w₂) :
    ∃ pre, Did (pre ++ [t.finish]) s.world w₂ ∧ ∀ a ∈ pre, Aside t s.session.peers.intervals a := by
  obtain ⟨pre, hd, ha⟩ := Ran.aside (peers_beside_own hc hT) (peers_beside_output hc hG)
    (hc.sound g hG) hran
  obtain ⟨-, rfl⟩ := hshift
  exact ⟨pre, hd.trans (.access _ t.finish), ha⟩

lemma Phases.inTurn {t : TransportGeneration} {g : OutputGeneration} (hc : s.session.Coherent)
    (hT : s.session.transport = some t) (hG : s.session.output = some g)
    {result : Except SessionError (Option PublishedOutput)} {ns : ℕ} {w₁ w₂ w : World}
    (hran : Ran t g wake s.world result ns w₁) (hshift : Shifts t.interval .awake .finished w₁ w₂)
    (hend : DidAside t s.session.peers.intervals (s.session.peers.triggerAll k ns w₂).2 w) :
    ∃ tr, Did tr s.world w ∧ InTurn t s.session.peers tr := by
  obtain ⟨pre, hpre, ha⟩ := Phases.ended hc hT hG hran hshift
  obtain ⟨trs, hdid, hatt⟩ := PeerSet.triggerFrom_attempts k ns s.session.peers.toList none w₂
  obtain ⟨post, hpost, ha'⟩ := hend
  refine ⟨_, hpre.trans (hdid.trans hpost), ns, pre, trs, post, by simp, fun a hmem => ?_, hatt⟩
  exact (List.mem_append.1 hmem).elim (ha a) (ha' a)

/-- Everything else than the exchange that ends the cycle, which is done once, lies aside. -/
def Alone (t : TransportGeneration) (peers : PeerSet) (tr : List Action) : Prop :=
  ∃ pre post, tr = pre ++ t.finish :: post ∧ ∀ a ∈ pre ++ post, Aside t peers.intervals a

/-- **The peers in a wake.** The cycle is not ended and they are left alone; or it is ended, and
then they are tried in turn where it went through and left alone where it went wrong. -/
theorem Phases.trace (hc : s.session.Coherent) (h : Phases k wake s r s') :
    ∃ tr, Did tr s.world s'.world ∧
      ((∀ t, s.session.transport = some t → t.finish ∉ tr) ∧
        (∀ a ∈ tr, a.Beside s.session.peers.intervals) ∨
      ∃ t g result ns w, s.session.transport = some t ∧ s.session.output = some g ∧
        Ran t g wake s.world result ns w ∧
        match result with
        | .ok _ => (∀ e, r = .error (.error e) → e.isFault = false) ∧ InTurn t s.session.peers tr
        | .error e => r = .error (.error e) ∧ Alone t s.session.peers tr) := by
  -- a wake of which everything lies aside
  have aside : ∀ {t w'}, s.session.transport = some t →
      DidAside t s.session.peers.intervals s.world w' → ∃ tr, Did tr s.world w' ∧
        (∀ t, s.session.transport = some t → t.finish ∉ tr) ∧
          ∀ a ∈ tr, a.Beside s.session.peers.intervals := by
    rintro t w' hT ⟨tr, hd, ha⟩
    refine ⟨tr, hd, fun t' hT' hmem => (ha _ hmem).2 ?_, fun a hmem => (ha a hmem).1⟩
    rw [Option.some.inj (hT.symm.trans hT')]
  have ht : ∀ {t}, s.session.transport = some t →
      ∀ i ∈ s.session.peers.intervals, i.Disjoint t.interval := fun hT => peers_beside_own hc hT
  cases h with
  | ignored r hr => exact ⟨[], .refl _, Or.inl (by simp)⟩
  | unclaimed t r st w hT hr hs =>
    obtain ⟨tr, hd, hleft⟩ := aside hT (.idle (ht hT) hs)
    exact ⟨tr, hd, Or.inl hleft⟩
  | unfinished t g result ns e w₁ w₂ w₃ hT hG hran hmiss hs =>
    have hrun := Ran.aside (ht hT) (peers_beside_output hc hG) (hc.sound g hG) hran
    obtain ⟨tr, hd, hleft⟩ := aside hT ((hrun.trans (.idle (ht hT) hmiss.steps)).trans
      (.idle (ht hT) hs))
    exact ⟨tr, hd, Or.inl hleft⟩
  | triggered t g v ns o w₁ w₂ w₃ hT hG hran hshift htrig =>
    obtain ⟨tr, hd, hin⟩ := inTurn (k := k) (w := w₃) hc hT hG hran hshift
      ⟨[], by rw [htrig]; exact .refl w₃, by simp⟩
    exact ⟨tr, hd, Or.inr ⟨t, g, _, ns, w₁, hT, hG, hran, by simp, hin⟩⟩
  | untriggered t g v ns e w₁ w₂ w₃ hT hG hran hshift htrig =>
    obtain ⟨tr, hd, hin⟩ := inTurn (k := k) (w := t.dropped w₃) hc hT hG hran hshift
      (by rw [htrig]; exact .idle (ht hT) (t.dropped_steps w₃))
    refine ⟨tr, hd, Or.inr ⟨t, g, _, ns, w₁, hT, hG, hran, fun e' he' => ?_, hin⟩⟩
    cases he'
    exact PeerSet.triggerAll_error htrig
  | faulted t g e ns w₁ w₂ hT hG hran hshift =>
    obtain ⟨pre, hpre, ha⟩ := ended hc hT hG hran hshift
    obtain ⟨post, hpost, ha'⟩ := unwound_aside (ht hT) (peers_beside_output hc hG) (hc.sound g hG)
      e w₂
    refine ⟨_, hpre.trans hpost, Or.inr ⟨t, g, _, ns, w₁, hT, hG, hran, rfl, pre, post, by simp,
      fun a hmem => ?_⟩⟩
    exact (List.mem_append.1 hmem).elim (ha a) (ha' a)

lemma Alone.beside {t : TransportGeneration} {peers : PeerSet} {tr : List Action}
    (ht : ∀ i ∈ peers.intervals, i.Disjoint t.interval) (h : Alone t peers tr) :
    ∀ a ∈ tr, a.Beside peers.intervals := by
  obtain ⟨pre, post, rfl, ha⟩ := h
  intro a hmem
  simp only [List.mem_append, List.mem_cons] at hmem
  rcases hmem with h | rfl | h
  · exact (ha a (List.mem_append_left _ h)).1
  · exact fun i hi => (ht i hi).of_covers t.isRecord.covers_status
  · exact (ha a (List.mem_append_right _ h)).1

end Phases

/-- **Peers and the own cycle.** What a wake does is a list of actions. Where the exchange that ends
the own cycle is not among them, or the cycle went wrong, none of them reaches a peer. Otherwise
the peers are tried after that exchange, one attempt for each, in ascending order of their nodes. -/
theorem wake_tries_peers (mem : Shm) (counter : Fd → ℕ) (moves : List Move) (wake : Owner.Wake)
    (k : Kernel) (script : List (List ServerAct)) :
    let s := (init mem counter).run moves
    let x := s.exec (.wake wake) k script
    (s.session.peers.toList.map Prod.fst).Pairwise (· < ·) ∧
      ∃ tr, Did tr s.world x.2.world ∧
        ((((∀ t, s.session.transport = some t → t.finish ∉ tr) ∨
            ∃ e, x.1 = .error (.error e) ∧ e.isFault = true) ∧
          ∀ a ∈ tr, a.Beside s.session.peers.intervals) ∨
        (∀ e, x.1 = .error (.error e) → e.isFault = false) ∧
          ∃ t, s.session.transport = some t ∧ InTurn t s.session.peers tr) := by
  intro s x
  have hc : s.session.Coherent := run_coherent mem counter moves
  refine ⟨?_, ?_⟩
  · rw [List.pairwise_map]
    exact s.session.peers.ordered_keys_toList.imp fun h => compareOfLessAndEq_eq_lt.1 h
  · obtain ⟨r, hr, hphases⟩ := s.exec_phases hc wake k script
    have herr : ∀ e, x.1 = .error (.error e) ↔ r = .error (.error e) := fun e => by
      rw [show x.1 = r.map Outcome.woken from hr]
      cases r <;> simp [Except.map]
    simp only [herr]
    obtain ⟨tr, hdid, hleft | ⟨t, g, result, ns, w, hT, hG, hran, hend⟩⟩ :=
      Phases.trace (s := s.scripted script) hc hphases
    · exact ⟨tr, hdid, Or.inl ⟨Or.inl hleft.1, hleft.2⟩⟩
    · cases result with
      | ok v => exact ⟨tr, hdid, Or.inr ⟨hend.1, t, hT, hend.2⟩⟩
      | error e =>
        exact ⟨tr, hdid, Or.inl ⟨Or.inr ⟨e, hend.1, hran.fault_of_error.1⟩,
          hend.2.beside (peers_beside_own hc hT)⟩⟩

end Sys

/-- The attempts on a peer among some actions: each of them begins with a load of the version. -/
def PeerActivation.attempts (p : PeerActivation) (tr : List Action) : ℕ :=
  tr.countP fun
    | .load f l _ _ => decide (f = .serverVersion ∧ l = p.mapping.at_ Abi.serverVersion)
    | _ => false

/-- The sample session, whose callback commits a frame. When the finish clock panics, and when the
server takes the own record out of `AWAKE` before the session does, the frame is published and the
peer not tried. -/
theorem Sys.published_untried :
    let s := (init Sample.mem Sample.counter).run (Sample.start ++ Sample.trigger)
    let script : List (List ServerAct) :=
      List.replicate 20 [] ++ [[.store ⟨Sample.backing, 0⟩ [4, 0, 0, 0]]]
    let panics := s.exec (.wake ⟨1, 5, none, Sample.callback⟩) Sample.kernel []
    let misses := s.exec (.wake ⟨1, 5, some 6, Sample.callback⟩) Sample.kernel script
    s.session.peers.toList.length = 1 ∧
      errorOf panics.1 = some (.error .finishClockPanicked) ∧
      (errorOf misses.1).isSome ∧
      ∀ s' ∈ [panics.2, misses.2], s'.world.log.any Event.haveData ∧
        ∀ e ∈ s.session.peers.toList,
          e.2.attempts (actions s'.world.log) = e.2.attempts (actions s.world.log) := by
  decide +kernel

end PipewireNative.Node
