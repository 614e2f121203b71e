import PipewireNative.Node.Quiet
import PipewireNative.Node.Lifecycle

/-!
Control traffic of a running session. A command that changes neither what is scheduled nor whether
it is meant to be ends with a restart all the same, and the restart looks at the status word: it
accepts `INACTIVE` and `FINISHED`, and a cycle the server has armed or triggered is neither.
-/

namespace PipewireNative.Node

open Lib Prog World Sys

/-! ### Commands beside the cycle -/

/-- A valid command that touches neither transport, format, buffers nor IO, and changes no intent:
a peer that is accepted or waits for memory, with room for it; the removal of a peer; the removal
of a memory key that no generation uses; and intents that are there already. -/
def SessionCommand.Minor (k : Kernel) (m : Shm) (s : ClientNodeSession) : SessionCommand → Prop
  | .setPeerActivation d =>
    (d.node ∈ s.pendingPeers ∨ d.node ∈ s.peers ∨
      s.pendingPeers.size + s.peers.size < maxSessionPeers) ∧
    (s.availableMemory d.activation.memory = none ∨ ∃ p, Owner.PeerFits k m s d.node d p)
  | .removePeerActivation _ => True
  | .removeMemory key => (∀ t, s.transport = some t → t.activationKey ≠ key) ∧
    (∀ g, s.output = some g → key ∉ g.keys) ∧
    ∀ (n : NodeId) (p : PeerActivation), s.peers[n]? = some p → p.key ≠ key
  | .setActive active => active = true ∧ s.activeRequested = true
  | .setNodeCommand command => command = .start ∧ s.command = .start
  | _ => False

namespace Owner

variable {s : Sys} {m : Shm} {k : Kernel}

/-- The session is one that a restart treats like this one. -/
structure Alike (s s' : Sys) : Prop where
  state : s'.session.state = s.session.state
  wanted : s'.session.wanted = s.session.wanted
  ready : s'.session.isReady = s.session.isReady
  own : s'.session.own = s.session.own

lemma started_of_ne (h : ∀ r, s.session.own = some r →
    m.word (statusOf r) 4 ≠ ActivationStatus.inactive.code) : s.session.started m = m := by
  unfold ClientNodeSession.started
  split
  · rfl
  · rename_i r hr
    rw [if_neg (h r hr)]

lemma ensureRunning_alike (hs : s.world.At m) (hrun : s.session.state = .running)
    (hready : s.session.isReady) (hst : ∀ r, s.session.own = some r →
      m.word (statusOf r) 4 ≠ ActivationStatus.inactive.code) :
    ensureRunning.Ends s (fun _ s' => Alike s s' ∧ s'.world.At m)
      (fun _ _ => s.session.wanted ∧ ¬ s.session.Startable m) := by
  cases hw : s.session.wanted with
  | false =>
    unfold ensureRunning
    rw [ends_bind, ends_session, if_pos hw]
    exact ⟨⟨rfl, rfl, rfl, rfl⟩, hs⟩
  | true =>
    refine (ensureRunning_at hs hw hready).mono (fun _ s' h => ?_) fun _ _ h => ⟨rfl, h.1⟩
    rw [started_of_ne hst] at h
    exact ⟨⟨by rw [h.2.1, hrun], by rw [h.2.1]; rfl, by rw [h.2.1]; rfl, by rw [h.2.1]; rfl⟩, h.2.2⟩

lemma dispatch_minor (hs : s.world.At m) (hrun : s.session.state = .running)
    (hready : s.session.isReady) (hst : ∀ r, s.session.own = some r →
      m.word (statusOf r) 4 ≠ ActivationStatus.inactive.code) {c : SessionCommand}
    (hc : c.Minor k m s.session) : (dispatch k c).Ends s
      (fun _ s' => Alike s s' ∧ s'.world.At m)
      (fun _ _ => s.session.wanted ∧ ¬ s.session.Startable m) := by
  cases c with
  | setPeerActivation d =>
    obtain ⟨hroom, hfit⟩ := hc
    unfold dispatch setPeerActivation
    rw [ends_bind, ends_session, if_neg]
    · rw [ends_bind, ends_edit]
      have hd : (s.session.pendingPeers.insert d.node d)[d.node]? = some d :=
        Std.ExtTreeMap.getElem?_insert_self
      refine (bindPeer_at (s := ⟨{ s.session with
        pendingPeers := s.session.pendingPeers.insert d.node d }, s.world⟩) hs d.node hd).mono
        (fun _ s' h => ?_) fun _ s' h => ?_
      · obtain ⟨hw, ⟨-, -, h⟩ | ⟨-, -, p, -, -, h⟩⟩ := h <;>
          exact ⟨⟨by rw [h], by rw [h]; rfl, by rw [h]; rfl, by rw [h]; rfl⟩, hw⟩
      · obtain ⟨-, hsome, hno, -⟩ := h
        rcases hfit with hnone | ⟨p, hp⟩
        · exact absurd hsome (by simp [hnone])
        · exact absurd ⟨hp.room, hp.described, hp.record, hp.apart⟩ (hno p)
    · rintro ⟨h₁, h₂, h₃⟩
      rcases hroom with h | h | h
      · exact h₁ h
      · exact h₂ h
      · exact absurd h₃ (Nat.not_le_of_lt h)
  | removePeerActivation node =>
    unfold dispatch
    rw [ends_bind, ends_edit]
    exact ⟨⟨rfl, rfl, rfl, rfl⟩, hs⟩
  | removeMemory key =>
    obtain ⟨ht, hg, -⟩ := hc
    unfold dispatch removeMemory doIf
    simp only [ends_bind, ends_edit, ends_session]
    rw [if_neg]
    · simp only [ends_pure]
      rw [if_neg]
      · exact ⟨⟨rfl, rfl, rfl, rfl⟩, hs⟩
      · rw [Bool.not_eq_true, Option.any_eq_false]
        intro g hG
        rw [Bool.eq_false_iff]
        exact fun h => hg g hG ((g.dependsOn_iff key).1 h)
    · rw [Bool.not_eq_true, Option.any_eq_false]
      exact fun t hT => by simpa using ht t hT
  | setActive active =>
    obtain ⟨rfl, hact⟩ := hc
    have hsame : ({ s.session with activeRequested := true } : ClientNodeSession) = s.session := by
      rw [← hact]
    unfold dispatch setActive
    simp only [ends_bind, ends_edit, if_true, ends_pure]
    rw [hsame]
    exact ensureRunning_alike hs hrun hready hst
  | setNodeCommand command =>
    obtain ⟨rfl, hcmd⟩ := hc
    have hsame : ({ s.session with command := .start } : ClientNodeSession) = s.session := by
      rw [← hcmd]
    unfold dispatch setNodeCommand
    simp only [ends_bind, ends_edit, ends_pure]
    rw [hsame]
    exact ensureRunning_alike hs hrun hready hst
  | _ => exact hc.elim

/-- What a minor command of a running session comes to. -/
theorem apply_minor (hs : s.world.At m) (hrun : s.session.state = .running)
    (hready : s.session.isReady) (hst : ∀ r, s.session.own = some r →
      m.word (statusOf r) 4 ≠ ActivationStatus.inactive.code) {c : SessionCommand}
    (hc : c.Minor k m s.session) : (apply k c).Ends s
      (fun _ s' => (s.session.wanted → s.session.Startable m) ∧ s'.session.state = .running ∧
        s'.world.At m)
      (fun _ _ => s.session.wanted ∧ ¬ s.session.Startable m) := by
  unfold apply
  rw [ends_bind, ends_session, hrun]
  simp only [ends_bind, ends_pure]
  refine (dispatch_minor hs hrun hready hst hc).mono (fun _ s₁ h => ?_) fun _ _ h => h
  obtain ⟨hal, hw₁⟩ := h
  have hstart : s₁.session.Startable m ↔ s.session.Startable m := by
    unfold ClientNodeSession.Startable; rw [hal.own]
  have hrefresh : s₁.session.refreshState = s₁.session := by
    unfold ClientNodeSession.refreshState; rw [hal.state, hrun]
  refine (restart_at hw₁).mono (fun _ s₂ h => ?_) fun _ s₂ h => ?_
  · obtain ⟨hok, hses, hw₂⟩ := h
    rw [started_of_ne (s := s₁) (by rw [hal.own]; exact hst), ite_self] at hw₂
    rw [hal.wanted, hal.ready, hstart, hready, Bool.and_true] at hok
    refine ⟨hok, ?_, hw₂⟩
    rw [hses]
    unfold ClientNodeSession.settled
    rw [hrefresh]
    split_ifs
    · rfl
    · rw [hal.state, hrun]
  · rw [hal.wanted, hstart] at h
    exact ⟨by have := h.1; rw [Bool.and_eq_true] at this; exact this.1, h.2.1⟩

end Owner

/-- **Minor commands of a running session.** In every running session a run reaches, whose own
status is `NOT_TRIGGERED`, `TRIGGERED` or `FINISHED`, and with a server that does nothing
meanwhile, a minor command goes through, leaves the session running and leaves the status alone
exactly when the session is not wanted, or the version of its record is 1 and its status is
`FINISHED`. -/
theorem Sys.minor_command_iff (mem : Shm) (counter : Fd → ℕ) (moves : List Move) (k : Kernel)
    (c : SessionCommand) (r : MemoryInterval) (st : ActivationStatus) :
    let s := (init mem counter).run moves
    s.session.state = .running → s.session.own = some r → s.world.mem.word (statusOf r) 4 = st.code →
    st = .notTriggered ∨ st = .triggered ∨ st = .finished → c.Minor k s.world.mem s.session →
    let x := s.exec (.command c) k []
    (x.1.isOk ∧ x.2.session.state = .running ∧ x.2.world.mem.word (statusOf r) 4 = st.code) ↔
      (s.session.wanted → s.world.mem.word (versionOf r) 4 = 1 ∧ st = .finished) := by
  intro s hrun hown hst hin hc x
  have hready : s.session.isReady := (run_coherent mem counter moves).ready hrun
  have hne : ∀ r', s.session.own = some r' →
      s.world.mem.word (statusOf r') 4 ≠ ActivationStatus.inactive.code := by
    intro r' hr'
    obtain rfl : r = r' := Option.some.inj (hown.symm.trans hr')
    rw [hst]
    rcases hin with rfl | rfl | rfl <;> decide
  have hstart : s.session.Startable s.world.mem ↔
      s.world.mem.word (versionOf r) 4 = 1 ∧ st = .finished := by
    constructor
    · rintro ⟨r', hr', hver, h | h⟩
      · exact absurd h (hne r' hr')
      · obtain rfl : r = r' := Option.some.inj (hown.symm.trans hr')
        exact ⟨hver, ActivationStatus.code_inj (hst.symm.trans h)⟩
    · rintro ⟨hver, rfl⟩
      exact ⟨r, hown, hver, Or.inr hst⟩
  rw [← hstart]
  refine Prog.Ends.result (p := Op.run k (.command c)) (s := s.scripted [])
    (R := fun res s' => (res.isOk ∧ s'.session.state = .running ∧
      s'.world.mem.word (statusOf r) 4 = st.code) ↔
        (s.session.wanted → s.session.Startable s.world.mem)) ?_
  simp only [Op.run, ends_bind, ends_pure]
  refine (Owner.apply_minor (s := s.scripted []) (m := s.world.mem) ⟨rfl, rfl⟩ hrun hready hne hc).mono
    (fun _ s' h => ?_) fun _ s' h => ?_
  · exact ⟨fun _ => h.1, fun _ => ⟨rfl, h.2.1, by rw [h.2.2.mem]; exact hst⟩⟩
  · exact ⟨fun h' => absurd h'.1 (by simp [Except.isOk, Except.toBool]), fun h' => absurd (h' h.1) h.2⟩

/-- The sample session after its cycle has finished: the removal of its peer goes through. -/
theorem Sys.minor_command_finished :
    (((init Sample.mem Sample.counter).run Sample.cycle).exec
      (.command (.removePeerActivation 7)) Sample.kernel []).1.isOk :=
  ((minor_command_iff Sample.mem Sample.counter Sample.cycle Sample.kernel
    (.removePeerActivation 7) ⟨Sample.backing, 0, 2312⟩ .finished (by decide +kernel)
    (by decide +kernel) (by decide +kernel) (by decide) trivial).2
    fun _ => ⟨by decide +kernel, rfl⟩).1

/-- The sample session with a cycle the server has triggered: the removal of its peer is refused,
although the session runs and the command has nothing to do with the cycle. -/
theorem Sys.minor_command_triggered :
    let s := (init Sample.mem Sample.counter).run (Sample.start ++ Sample.trigger)
    s.session.state = .running ∧ s.session.own = some ⟨Sample.backing, 0, 2312⟩ ∧
      s.world.mem.word (statusOf ⟨Sample.backing, 0, 2312⟩) 4 = ActivationStatus.triggered.code ∧
      (SessionCommand.removePeerActivation 7).Minor Sample.kernel s.world.mem s.session ∧
      (s.exec (.command (.removePeerActivation 7)) Sample.kernel []).1.isOk = false :=
  ⟨by decide +kernel, by decide +kernel, by decide +kernel, trivial, by decide +kernel⟩

end PipewireNative.Node
