import PipewireNative.Node.Frame
import PipewireNative.Node.Quiet
import PipewireNative.Node.Lifecycle

/-!
Failed sessions. A cycle that goes wrong puts the session into `Failed`, and neither a stop nor a
refresh takes it out of there. A start does: it looks at the intents, at what is bound and at the
status word, and not at the state. The commands that do not get as far as a start are singled out
here, and a run that keeps to them leaves a failed session failed.
-/

namespace PipewireNative.Node

open Lib Prog World Sys

/-! ### Commands that do not start anything -/

namespace SessionCommand

def bindsTransport : SessionCommand → Bool
  | .replaceTransport _ | .memoryAvailable _ => true
  | _ => false

def setsFormat : SessionCommand → Bool
  | .setFormat _ => true
  | _ => false

def bindsOutput : SessionCommand → Bool
  | .setFormat _ | .useBuffers _ | .setPortIo _ | .memoryAvailable _ => true
  | _ => false

end SessionCommand

/-- The command `c`, which changes no intent, cannot start the session: it is not meant to be
scheduled, or it lacks something the command does not supply. -/
def ClientNodeSession.Grounded (c : SessionCommand) (s : ClientNodeSession) : Prop :=
  s.wanted = false ∨ (s.transport = none ∧ c.bindsTransport = false) ∨
    (s.format = none ∧ c.setsFormat = false) ∨ (s.output = none ∧ c.bindsOutput = false)

instance (c : SessionCommand) (s : ClientNodeSession) : Decidable (s.Grounded c) := by
  unfold ClientNodeSession.Grounded; infer_instance

/-- **A command that leaves a failed session alone**: it withdraws an intent or does not complete
them, it takes something away that a start needs, or it cannot start the session. -/
def SessionCommand.Defuses (s : ClientNodeSession) : SessionCommand → Prop
  | .setActive active => active = false ∨ s.command ≠ .start
  | .setNodeCommand command => command ≠ .start ∨ s.activeRequested = false
  | .clearFormat | .clearBuffers | .clearPortIo | .memoryDisconnected | .disconnect => True
  | .setFormat value =>
    (s.format.any fun current => decide (current ≠ value)) ∨ s.Grounded (.setFormat value)
  | .useBuffers value => (s.bufferDescriptor.any fun current => decide (current ≠ value)) ∨
    s.Grounded (.useBuffers value)
  | .removeMemory key => (s.transport.any fun t => decide (t.activationKey = key)) ∨
    (s.output.any fun g => g.dependsOn key) ∨ s.Grounded (.removeMemory key)
  | c => s.Grounded c

namespace Owner

variable {s : Sys} {k : Kernel}

/-- The session has failed and `c` cannot start it. -/
def Down (c : SessionCommand) (n : ClientNodeSession) : Prop := n.state = .failed ∧ n.Grounded c

lemma stopped_failed {n : ClientNodeSession} (h : n.state = .failed) : n.stopped = n := by
  unfold ClientNodeSession.stopped
  rw [if_neg]
  simp [h]

lemma restart_failed (h : s.session.state = .failed)
    (hno : (s.session.wanted && s.session.isReady) = false) : (restart s).2 = s := by
  refine (ends_state (I := fun s' => s' = s)).1 ?_
  have hsame : s.session.refreshState = s.session := by
    unfold ClientNodeSession.refreshState; rw [h]
  unfold restart doIf
  simp only [ends_bind, ends_edit, ends_session, hsame]
  rw [if_neg (by simp [hno])]
  rfl

lemma Down.idle {c : SessionCommand} {n : ClientNodeSession} (h : Down c n) :
    (n.wanted && n.isReady) = false := by
  rcases h.2 with h | ⟨h, -⟩ | ⟨h, -⟩ | ⟨h, -⟩ <;> simp [ClientNodeSession.isReady, h]

lemma Down.of_eq {c : SessionCommand} {n n' : ClientNodeSession} (h : Down c n)
    (hst : n'.state = n.state) (hw : n'.wanted = n.wanted)
    (ht : n'.transport = n.transport ∨ n'.transport = none ∨ c.bindsTransport = true)
    (hf : n'.format = n.format ∨ c.setsFormat = true)
    (ho : n'.output = n.output ∨ n'.output = none ∨ c.bindsOutput = true) : Down c n' := by
  refine ⟨hst.trans h.1, ?_⟩
  rcases h.2 with h | ⟨h, hc⟩ | ⟨h, hc⟩ | ⟨h, hc⟩
  · exact Or.inl (hw.trans h)
  · refine Or.inr (Or.inl ⟨?_, hc⟩)
    rcases ht with ht | ht | ht
    · rw [ht, h]
    · exact ht
    · simp [ht] at hc
  · refine Or.inr (Or.inr (Or.inl ⟨?_, hc⟩))
    rcases hf with hf | hf
    · rw [hf, h]
    · simp [hf] at hc
  · refine Or.inr (Or.inr (Or.inr ⟨?_, hc⟩))
    rcases ho with ho | ho | ho
    · rw [ho, h]
    · exact ho
    · simp [ho] at hc

section Branches

variable {c : SessionCommand}

lemma Down.same {n n' : ClientNodeSession} (h : Down c n) (hst : n'.state = n.state)
    (hw : n'.wanted = n.wanted) (ht : n'.transport = n.transport) (hf : n'.format = n.format)
    (ho : n'.output = n.output) : Down c n' :=
  h.of_eq hst hw (Or.inl ht) (Or.inl hf) (Or.inl ho)

lemma Down.stopped {n : ClientNodeSession} (h : Down c n) : Down c n.stopped := by
  rwa [stopped_failed h.1]

lemma down_bindOutput (ho : c.bindsOutput = true) : Keeps (Down c) (bindOutput k) :=
  keeps_bindOutput (fun _ _ h => h.same rfl rfl rfl rfl rfl) (fun _ h => h.stopped) fun _ _ h =>
    h.of_eq rfl rfl (Or.inl rfl) (Or.inl rfl) (Or.inr (Or.inr ho))

lemma down_bindTransport (ht : c.bindsTransport = true) : Keeps (Down c) (bindTransport k) :=
  keeps_bindTransport (fun _ _ h => h.same rfl rfl rfl rfl rfl) (fun _ h => h.stopped)
    (fun _ h => h.same rfl rfl rfl rfl rfl) fun _ _ h =>
      h.of_eq rfl rfl (Or.inr (Or.inr ht)) (Or.inl rfl) (Or.inl rfl)

lemma down_bindPeer (node : NodeId) : Keeps (Down c) (bindPeer k node) :=
  keeps_bindPeer (fun _ _ h => h.same rfl rfl rfl rfl rfl)
    (fun _ _ h => h.same rfl rfl rfl rfl rfl) (fun _ _ h => h.same rfl rfl rfl rfl rfl) node

lemma down_outputCandidate (format : NegotiatedAudioFormat) (buffers : BufferSetDescriptor)
    (io : PortIoDescriptor) : Keeps (Down c) (outputCandidate k format buffers io) :=
  keeps_outputCandidate (fun _ _ h => h.same rfl rfl rfl rfl rfl) format buffers io

lemma down_stop : Keeps (Down c) stop := keeps_stop fun _ h => h.stopped

lemma down_edit {g : ClientNodeSession → ClientNodeSession}
    (hg : ∀ n, (g n).state = n.state ∧ (g n).wanted = n.wanted ∧ (g n).transport = n.transport ∧
      (g n).format = n.format ∧ ((g n).output = n.output ∨ (g n).output = none)) :
    Keeps (Down c) (edit g) :=
  keeps_edit fun n h => h.of_eq (hg n).1 (hg n).2.1 (Or.inl (hg n).2.2.1) (Or.inl (hg n).2.2.2.1)
    ((hg n).2.2.2.2.imp_right Or.inl)

lemma down_useBuffers (value : BufferSetDescriptor) :
    Keeps (Down (.useBuffers value)) (useBuffers k value) := by
  unfold useBuffers buffersPending
  refine keeps_session.bind fun n => ?_
  split_ifs
  · refine Keeps.bind (keeps_session.bind fun n => ?_) fun _ => down_stop.bind fun _ =>
      Keeps.bind ?_ fun _ => keeps_pure _
    · split
      · exact (down_outputCandidate _ _ _).bind fun _ => keeps_pure _
      · exact keeps_pure _
    · exact down_edit fun n => ⟨rfl, rfl, rfl, rfl, Or.inr rfl⟩
  · refine Keeps.bind ?_ fun _ => down_bindOutput rfl
    exact down_edit fun n => ⟨rfl, rfl, rfl, rfl, Or.inl rfl⟩

lemma down_setPortIo (value : PortIoDescriptor) :
    Keeps (Down (.setPortIo value)) (setPortIo k value) := by
  unfold setPortIo
  refine keeps_session.bind fun n => ?_
  split
  · refine (down_outputCandidate _ _ _).bind fun o => ?_
    cases o with
    | some g =>
      refine down_stop.bind fun _ => Keeps.bind ?_ fun _ => keeps_pure _
      exact keeps_edit fun n h => h.of_eq rfl rfl (Or.inl rfl) (Or.inl rfl) (Or.inr (Or.inr rfl))
    | none =>
      refine down_stop.bind fun _ => Keeps.bind ?_ fun _ => keeps_pure _
      exact down_edit fun n => ⟨rfl, rfl, rfl, rfl, Or.inr rfl⟩
  · refine Keeps.bind ?_ fun _ => keeps_pure _
    exact down_edit fun n => ⟨rfl, rfl, rfl, rfl, Or.inl rfl⟩

lemma down_setFormat (value : NegotiatedAudioFormat) :
    Keeps (Down (.setFormat value)) (setFormat k value) := by
  unfold setFormat
  refine keeps_session.bind fun n => Keeps.bind ?_ fun _ => Keeps.bind (Keeps.doIf
    (down_stop.bind fun _ => ?_) _) fun _ => down_bindOutput rfl
  · exact keeps_edit fun n h => h.of_eq rfl rfl (Or.inl rfl) (Or.inr rfl) (Or.inl rfl)
  · exact down_edit fun n => ⟨rfl, rfl, rfl, rfl, Or.inr rfl⟩

lemma down_setPeerActivation (value : PeerActivationDescriptor) :
    Keeps (Down (.setPeerActivation value)) (setPeerActivation k value) := by
  unfold setPeerActivation
  refine keeps_session.bind fun n => ?_
  split_ifs
  · exact keeps_raise _
  · refine Keeps.bind ?_ fun _ => down_bindPeer _
    exact down_edit fun n => ⟨rfl, rfl, rfl, rfl, Or.inl rfl⟩

lemma down_retryPending (lease : MemoryLease) :
    Keeps (Down (.memoryAvailable lease)) (retryPending k) := by
  unfold retryPending
  exact keeps_session.bind fun _ => ((down_bindTransport rfl).retryWhen _).bind fun _ =>
    keeps_session.bind fun _ => ((down_bindOutput rfl).retryWhen _).bind fun _ =>
      keeps_session.bind fun _ => (Keeps.mapList down_bindPeer _).bind fun _ => keeps_pure _

lemma down_removeMemory (key : MemoryKey) :
    Keeps (Down c) (removeMemory key) := by
  unfold removeMemory
  refine keeps_session.bind fun _ => Keeps.bind (Keeps.doIf (down_stop.bind fun _ => ?_) _) fun _ =>
    keeps_session.bind fun _ => Keeps.bind (Keeps.doIf (down_stop.bind fun _ => ?_) _) fun _ => ?_
  · exact keeps_setTransport none fun n h =>
      h.of_eq rfl rfl (Or.inr (Or.inl rfl)) (Or.inl rfl) (Or.inl rfl)
  · exact down_edit fun n => ⟨rfl, rfl, rfl, rfl, Or.inr rfl⟩
  · exact down_edit fun n => ⟨rfl, rfl, rfl, rfl, Or.inl rfl⟩

/-! ### Commands on a failed session -/

/-- However a command ends that begins with `p`, the session is failed afterwards. -/
def Stays {α : Type} (p : Owner α) (s : Sys) : Prop :=
  p.Ends s (fun _ s₁ => (restart s₁).2.session.state = .failed)
    (fun _ s₁ => s₁.session.state = .failed)

lemma Keeps.stays {α : Type} {p : Owner α} (hp : Keeps (Down c) p) (h : Down c s.session) :
    Stays p s :=
  (hp.ends h).mono (fun _ s₁ h₁ => by rw [restart_failed h₁.1 h₁.idle]; exact h₁.1) fun _ _ h₁ =>
    h₁.1

lemma stop_stays (h : s.session.state = .failed) {g : Sys → Sys}
    (hg : ∀ s₁, (g s₁).session.state = s₁.session.state ∧ (g s₁).session.output = none) :
    stop.Ends s (fun _ s₁ => (restart (g s₁)).2.session.state = .failed)
      (fun _ s₁ => s₁.session.state = .failed) := by
  refine (stop_ends s).mono (fun _ s₁ h₁ => ?_) fun _ s₁ h₁ => by rw [h₁.2.1]; exact h
  have hst : (g s₁).session.state = .failed := by
    rw [(hg s₁).1, h₁.1, stopped_failed h, h]
  rw [restart_failed hst (by simp [ClientNodeSession.isReady, (hg s₁).2])]
  exact hst

lemma setFormat_stays (h : s.session.state = .failed) {value : NegotiatedAudioFormat}
    (hr : s.session.format.any fun current => decide (current ≠ value)) :
    Stays (setFormat k value) s := by
  unfold Stays setFormat doIf
  simp only [ends_bind, ends_session, ends_edit, hr, if_true]
  refine (stop_ends _).mono (fun _ s₁ h₁ => ?_) fun _ s₁ h₁ => by rw [h₁.2.1]; exact h
  refine (bindOutput_incomplete (Or.inr (Or.inl rfl))).mono (fun _ s₂ h₂ => ?_) fun _ _ h => h.elim
  have hst : s₂.session.state = .failed := by
    rw [h₂.2]
    show s₁.session.state = .failed
    rw [h₁.1, stopped_failed (by exact h)]
    exact h
  rw [restart_failed hst (by rw [h₂.2]; simp [ClientNodeSession.isReady])]
  exact hst

lemma useBuffers_stays (h : s.session.state = .failed) {value : BufferSetDescriptor}
    (hr : s.session.bufferDescriptor.any fun current => decide (current ≠ value)) :
    Stays (useBuffers k value) s := by
  have hkeep : Keeps (fun n => n.state = .failed) (buffersPending k value) := by
    unfold buffersPending
    refine keeps_session.bind fun n => ?_
    split
    · exact (keeps_outputCandidate (fun _ _ h => h) _ _ _).bind fun _ => keeps_pure _
    · exact keeps_pure _
  unfold Stays useBuffers
  simp only [ends_bind, ends_session, ends_edit, hr, if_true, ends_pure]
  exact (hkeep.ends h).mono (fun _ s₁ h₁ => stop_stays h₁ fun _ => ⟨rfl, rfl⟩) fun _ _ h₁ => h₁

lemma removeMemory_stays (h : s.session.state = .failed) {key : MemoryKey}
    (hr : (s.session.transport.any fun t => decide (t.activationKey = key)) ∨
      (s.session.output.any fun g => g.dependsOn key)) : Stays (removeMemory key) s := by
  -- whichever goes first leaves the session unbound, and the rest keeps that
  have hdown : ∀ n : ClientNodeSession, n.state = .failed → n.transport = none →
      Down (.removeMemory key) n := fun n h₁ h₂ => ⟨h₁, Or.inr (Or.inl ⟨h₂, rfl⟩)⟩
  have hdown' : ∀ n : ClientNodeSession, n.state = .failed → n.output = none →
      Down (.removeMemory key) n := fun n h₁ h₂ => ⟨h₁, Or.inr (Or.inr (Or.inr ⟨h₂, rfl⟩))⟩
  have htail : Keeps (Down (.removeMemory key)) (edit fun s => { s with
      peers := s.peers.removeMemory key }) :=
    down_edit fun n => ⟨rfl, rfl, rfl, rfl, Or.inl rfl⟩
  unfold Stays removeMemory
  simp only [ends_bind, ends_session]
  cases hT : s.session.transport.any fun t => decide (t.activationKey = key) with
  | true =>
    have hrest : ∀ s₂ : Sys, Down (.removeMemory key) s₂.session →
        (doIf (s₂.session.output.any fun g => g.dependsOn key) do
          stop
          edit fun s => { s with output := none }).Ends s₂
        (fun _ s₃ => (edit fun s => { s with peers := s.peers.removeMemory key }).Ends s₃
          (fun _ s₄ => (restart s₄).2.session.state = .failed) (fun _ s₄ => s₄.session.state = .failed))
        (fun _ s₃ => s₃.session.state = .failed) := by
      intro s₂ h₂
      have hk : Keeps (Down (.removeMemory key))
          (doIf (s₂.session.output.any fun g => g.dependsOn key) do
            stop
            edit fun s => { s with output := none }) := by
        refine Keeps.doIf (down_stop.bind fun _ => ?_) _
        exact down_edit fun n => ⟨rfl, rfl, rfl, rfl, Or.inr rfl⟩
      exact (hk.ends h₂).mono (fun _ s₃ h₃ => htail.stays h₃) fun _ _ h₃ => h₃.1
    unfold doIf at hrest ⊢
    simp only [if_true, ends_bind]
    refine (stop_ends s).mono (fun _ s₁ h₁ => ?_) fun _ s₁ h₁ => by rw [h₁.2.1]; exact h
    refine (setTransport_ends s₁ none).mono (fun _ s₂ h₂ => hrest s₂ ?_) fun _ _ h => h.elim
    obtain ⟨w, -, rfl⟩ := h₂
    exact hdown _ (by show s₁.session.state = _; rw [h₁.1, stopped_failed h, h]) rfl
  | false =>
    have hO : (s.session.output.any fun g => g.dependsOn key) = true :=
      hr.resolve_left (by simp [hT])
    unfold doIf
    simp only [Bool.false_eq_true, if_false, ends_pure, hO, if_true, ends_bind, ends_edit]
    refine (stop_ends s).mono (fun _ s₁ h₁ => ?_) fun _ s₁ h₁ => by rw [h₁.2.1]; exact h
    refine htail.stays (s := { s₁ with session := { s₁.session with output := none } })
      (hdown' _ ?_ rfl)
    show s₁.session.state = _
    rw [h₁.1, stopped_failed h, h]

lemma ensureRunning_stays (h : s.session.state = .failed) (hw : s.session.wanted = false) :
    Stays ensureRunning s := by
  unfold Stays ensureRunning
  rw [ends_bind, ends_session, if_pos hw]
  show (restart s).2.session.state = .failed
  rw [restart_failed h (by simp [hw])]
  exact h

lemma stop_unwanted_stays (h : s.session.state = .failed) (hw : s.session.wanted = false) :
    Stays stop s :=
  (down_stop (c := .clearFormat)).stays ⟨h, Or.inl hw⟩

lemma setActive_stays (h : s.session.state = .failed) {active : Bool}
    (hd : active = false ∨ s.session.command ≠ .start) : Stays (setActive active) s := by
  have hw : ({ s.session with activeRequested := active } : ClientNodeSession).wanted = false := by
    rcases hd with rfl | hd <;> simp [ClientNodeSession.wanted, *]
  unfold Stays setActive
  rw [ends_bind, ends_edit]
  cases active with
  | true => exact ensureRunning_stays (s := ⟨{ s.session with activeRequested := true }, s.world⟩) h hw
  | false =>
    exact stop_unwanted_stays (s := ⟨{ s.session with activeRequested := false }, s.world⟩) h hw

lemma setNodeCommand_stays (h : s.session.state = .failed) {command : NodeCommandState}
    (hd : command ≠ .start ∨ s.session.activeRequested = false) :
    Stays (setNodeCommand command) s := by
  have hw : ({ s.session with command := command } : ClientNodeSession).wanted = false := by
    rcases hd with hd | hd <;> simp [ClientNodeSession.wanted, hd]
  unfold Stays setNodeCommand
  rw [ends_bind, ends_edit]
  cases command with
  | start => exact ensureRunning_stays (s := ⟨{ s.session with command := .start }, s.world⟩) h hw
  | pause => exact stop_unwanted_stays (s := ⟨{ s.session with command := .pause }, s.world⟩) h hw
  | suspend =>
    unfold clearFormat
    simp only [ends_bind, ends_edit]
    exact stop_stays (s := ⟨{ s.session with command := .suspend }, s.world⟩) h fun _ => ⟨rfl, rfl⟩

/-- The branches of commands that do not close the session. -/
theorem dispatch_stays (h : s.session.state = .failed) (hc : c.closes = false)
    (hd : c.Defuses s.session) : Stays (dispatch k c) s := by
  cases c with
  | replaceTransport d =>
    refine Keeps.stays (c := .replaceTransport d) ?_ ⟨h, hd⟩
    refine Keeps.bind ?_ fun _ => down_bindTransport rfl
    exact down_edit fun n => ⟨rfl, rfl, rfl, rfl, Or.inl rfl⟩
  | setFormat value =>
    rcases hd with hd | hd
    · exact setFormat_stays h hd
    · exact (down_setFormat value).stays ⟨h, hd⟩
  | useBuffers value =>
    rcases hd with hd | hd
    · exact useBuffers_stays h hd
    · exact (down_useBuffers value).stays ⟨h, hd⟩
  | setPortIo value => exact (down_setPortIo value).stays ⟨h, hd⟩
  | setPeerActivation value => exact (down_setPeerActivation value).stays ⟨h, hd⟩
  | removePeerActivation node =>
    refine Keeps.stays (c := .removePeerActivation node) ?_ ⟨h, hd⟩
    refine Keeps.bind ?_ fun _ => keeps_pure _
    exact down_edit fun n => ⟨rfl, rfl, rfl, rfl, Or.inl rfl⟩
  | memoryAvailable lease =>
    refine Keeps.stays (c := .memoryAvailable lease) ?_ ⟨h, hd⟩
    refine Keeps.bind ?_ fun _ => down_retryPending lease
    exact down_edit fun n => ⟨rfl, rfl, rfl, rfl, Or.inl rfl⟩
  | removeMemory key =>
    unfold Stays dispatch
    simp only [ends_bind, ends_edit, ends_pure]
    rcases hd with hd | hd | hd
    · exact removeMemory_stays (s := ⟨{ s.session with
        availableMemory := s.session.availableMemory.retire key }, s.world⟩) h (Or.inl hd)
    · exact removeMemory_stays (s := ⟨{ s.session with
        availableMemory := s.session.availableMemory.retire key }, s.world⟩) h (Or.inr hd)
    · exact (down_removeMemory key).stays (s := ⟨{ s.session with
        availableMemory := s.session.availableMemory.retire key }, s.world⟩) ⟨h, hd⟩
  | memoryDisconnected | disconnect => exact absurd hc (by simp [SessionCommand.closes])
  | setActive active =>
    unfold Stays dispatch
    simp only [ends_bind, ends_pure]
    exact setActive_stays h hd
  | setNodeCommand command =>
    unfold Stays dispatch
    simp only [ends_bind, ends_pure]
    exact setNodeCommand_stays h hd
  | clearFormat | clearBuffers | clearPortIo =>
    unfold Stays dispatch
    try unfold clearFormat
    simp only [ends_bind, ends_edit, ends_pure]
    exact stop_stays h fun _ => ⟨rfl, rfl⟩

end Branches

end Owner

/-! ### Runs -/

namespace Sys

/-- The session is over: failed, or disconnected with nothing left in it. -/
def Over (s : Sys) : Prop :=
  s.session.state = .failed ∨ (s.session.state = .disconnected ∧ s.session.transport = none)

/-- The move, if it is a command that meets a failed session, leaves it alone. -/
def Defused (s : Sys) : Move → Prop
  | .op (.command c) _ _ => s.session.state = .failed → c.Defuses s.session
  | _ => True

lemma exec_defused {s : Sys} {c : SessionCommand} (h : s.Over)
    (hd : s.session.state = .failed → c.Defuses s.session) (k : Kernel)
    (script : List (List ServerAct)) : (s.exec (.command c) k script).2.Over := by
  refine (ends_state (p := Op.run k (.command c)) (s := s.scripted script)
    (I := fun s' => s'.Over)).1 ?_
  simp only [Op.run, ends_bind, ends_pure]
  rcases h with h | h
  · have hne : ∀ st, st ≠ .failed → (s.scripted script).session.state ≠ st := fun st hst h' =>
      hst (h'.symm.trans h)
    rw [Owner.apply_open (hne _ (by decide)) (hne _ (by decide))]
    cases hc : c.closes with
    | true =>
      have hdis : (Owner.dispatch k c).Ends (s.scripted script)
          (fun _ s₁ => s₁.session = s.session.disconnected) (fun _ _ => False) := by
        cases c with
        | memoryDisconnected | disconnect =>
          unfold Owner.dispatch
          simp only [ends_bind, ends_pure]
          refine (Owner.disconnect_ends (s.scripted script)).mono (fun _ s₁ h => ?_) fun _ _ h => h
          obtain ⟨w, -, rfl⟩ := h
          rfl
        | _ => exact absurd hc Bool.false_ne_true
      refine hdis.mono (fun _ s₁ h₁ => ?_) fun _ _ h => h.elim
      refine (Owner.restart_disconnected s.session h₁).mono (fun _ s₂ h₂ => ?_) fun _ _ h => h.elim
      rw [h₂]
      exact Or.inr (by rw [h₁]; exact ⟨rfl, rfl⟩)
    | false =>
      exact (Owner.dispatch_stays (s := s.scripted script) h hc (hd h)).mono
        (fun _ _ h => ends_state.2 (Or.inl h)) fun _ _ h => Or.inl h
  · refine (Owner.apply_disconnected (s := s.scripted script) h.1 c).mono (fun _ s' h' => ?_)
      fun _ s' h' => ?_
    · rw [h'.2]; exact Or.inr h
    · rw [h']; exact Or.inr h

/-- A move that leaves a session that is over alone: it stays over and runs no callback. -/
lemma move_over {s : Sys} (hc : s.session.Coherent) (h : s.Over) {m : Move} (hd : s.Defused m) :
    (s.move m).Over ∧ callbacks (s.move m).world.log = callbacks s.world.log := by
  cases m with
  | server a => exact ⟨h, by cases a <;> rfl⟩
  | op o k script =>
    cases o with
    | command c => exact ⟨exec_defused h hd k script, (s.exec_command c k script).2.1.callbacks⟩
    | wake w =>
      obtain ⟨-, st, hst, hw⟩ := s.exec_wake hc w k script
      have hnot : s.session.state ≠ .running := by
        rcases h with h | h
        · simp [h]
        · simp [h.1]
      refine ⟨?_, hw.callbacks.resolve_right fun ⟨_, _, _, _, hr, _⟩ => hnot hr⟩
      show (s.exec (.wake w) k script).2.Over
      generalize (s.exec (.wake w) k script).2 = s' at hw
      cases hw with
      | ignored | drained => exact h
      | cycle _ _ _ _ _ _ hr => exact absurd hr hnot

/-- **Failed sessions.** In every run that has reached a failed session and whose further commands
leave a failed session alone, the session stays failed or is disconnected, and no callback runs any
more. -/
theorem failed_stays (mem : Shm) (counter : Fd → ℕ) (moves more : List Move)
    (hfail : ((init mem counter).run moves).session.state = .failed)
    (hd : Along Defused ((init mem counter).run moves) more) :
    let s := (init mem counter).run moves
    ∀ ms, ms <+: more → ((s.run ms).session.state = .failed ∨
        (s.run ms).session.state = .disconnected) ∧
      callbacks (s.run ms).world.log = callbacks s.world.log := by
  intro s ms hms
  have step : ∀ (s' : Sys) (m : Move), (s'.session.Coherent ∧ s'.Over ∧
      callbacks s'.world.log = callbacks s.world.log) → s'.Defused m →
      ((s'.move m).session.Coherent ∧ (s'.move m).Over ∧
        callbacks (s'.move m).world.log = callbacks s.world.log) := by
    rintro s' m ⟨hc, hover, hcalls⟩ hm
    obtain ⟨hover', hcalls'⟩ := move_over hc hover hm
    exact ⟨s'.move_coherent m hc, hover', hcalls'.trans hcalls⟩
  obtain ⟨-, hover, hcalls⟩ := hd.keeps step
    ⟨run_coherent mem counter moves, Or.inl hfail, rfl⟩ ms hms
  exact ⟨hover.imp_right fun h => h.1, hcalls⟩

/-- A sample session that a callback has failed, paused and then relieved of its peer. -/
theorem failed_stays_sample :
    callbacks (((init Sample.mem Sample.counter).run Sample.failing).run
        [Sample.command (.setNodeCommand .pause), Sample.command (.removePeerActivation 7)]).world.log =
      callbacks ((init Sample.mem Sample.counter).run Sample.failing).world.log := by
  have hidle : (((init Sample.mem Sample.counter).run Sample.failing).move
      (Sample.command (.setNodeCommand .pause))).session.wanted = false := by decide +kernel
  have hd : Along Defused ((init Sample.mem Sample.counter).run Sample.failing)
      [Sample.command (.setNodeCommand .pause), Sample.command (.removePeerActivation 7)] :=
    .next (fun _ => Or.inl (by decide)) (.next (fun _ => Or.inl hidle) (.done _))
  exact (failed_stays Sample.mem Sample.counter Sample.failing
    [Sample.command (.setNodeCommand .pause), Sample.command (.removePeerActivation 7)]
    (by decide +kernel) hd _ (List.prefix_refl _)).2

/-- The sample session after a callback has failed it. Its peer is removed, and with that it runs
again; the server triggers it, and a callback runs. -/
theorem failed_restarts :
    let s := (init Sample.mem Sample.counter).run Sample.failing
    let s' := s.move (Sample.command (.removePeerActivation 7))
    let s'' := s'.run (Sample.trigger ++ [Sample.wake])
    s.session.state = .failed ∧ s'.session.state = .running ∧
      callbacks s''.world.log = callbacks s.world.log + 1 := by
  intro s s' s''
  exact ⟨by decide +kernel, by decide +kernel, by decide +kernel⟩

end Sys

end PipewireNative.Node
