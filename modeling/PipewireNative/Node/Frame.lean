import PipewireNative.Node.Coherent

/-!
What the helpers of the owner leave alone. Every one of them is a few edits of the session between
steps in the world, so a property of sessions that the edits keep is kept however the helper ends
and whatever the server does meanwhile.
-/

namespace PipewireNative.Node

open Lib Prog World Sys

namespace Owner

variable {α β : Type} {I : ClientNodeSession → Prop}

/-- However `p` ends, it keeps the property `I` of the session. -/
def Keeps (I : ClientNodeSession → Prop) (p : Owner α) : Prop :=
  ∀ s : Sys, I s.session → I (p s).2.session

lemma Keeps.ends {p : Owner α} (h : Keeps I p) {s : Sys} (hs : I s.session) :
    p.Ends s (fun _ s' => I s'.session) (fun _ s' => I s'.session) :=
  (ends_state (I := fun s' : Sys => I s'.session)).2 (h s hs)

lemma keeps_of_ends {p : Owner α} (h : ∀ s : Sys, I s.session →
    p.Ends s (fun _ s' => I s'.session) (fun _ s' => I s'.session)) : Keeps I p := fun s hs =>
  (ends_state (I := fun s' : Sys => I s'.session)).1 (h s hs)

/-! ### Composition -/

lemma keeps_pure (a : α) : Keeps I (pure a : Owner α) := fun _ h => h

lemma keeps_session : Keeps I session := fun _ h => h

lemma keeps_edit {g : ClientNodeSession → ClientNodeSession} (h : ∀ n, I n → I (g n)) :
    Keeps I (edit g) := fun s => h s.session

lemma keeps_raise (e : SessionError) : Keeps I (raise e : Owner α) := fun _ h => h

lemma keeps_outside (p : Prog World SessionError α) : Keeps I (outside p) :=
  keeps_of_ends fun s hs => by
    rw [ends_outside]
    exact (ends_state (I := fun _ => I s.session)).2 hs

lemma keeps_unwrap (o : Option α) : Keeps I (unwrap o) := by
  cases o <;> exact fun _ h => h

lemma keeps_check (r : Except SessionError α) : Keeps I (check r) := keeps_outside _

lemma Keeps.bind {p : Owner α} {q : α → Owner β} (hp : Keeps I p) (hq : ∀ a, Keeps I (q a)) :
    Keeps I (p >>= q) :=
  keeps_of_ends fun s hs => by
    rw [ends_bind]
    exact (hp.ends hs).mono (fun a _ h => (hq a).ends h) fun _ _ h => h

lemma Keeps.doIf {p : Owner Unit} (hp : Keeps I p) (c : Bool) : Keeps I (Owner.doIf c p) := by
  unfold Owner.doIf
  split_ifs
  · exact hp
  · exact keeps_pure _

lemma Keeps.retryWhen {p : Owner ApplyOutcome} (hp : Keeps I p) (c : Bool) :
    Keeps I (Owner.retryWhen c p) := by
  unfold Owner.retryWhen
  split_ifs
  · exact hp
  · exact keeps_pure _

lemma Keeps.mapList {p : α → Owner β} (hp : ∀ a, Keeps I (p a)) :
    ∀ as, Keeps I (Prog.mapList p as)
  | [] => keeps_pure _
  | a :: as => (hp a).bind fun _ => (Keeps.mapList hp as).bind fun _ => keeps_pure _

/-! ### Helpers -/

section Helpers

variable {k : Kernel}

lemma keeps_stop (h : ∀ n, I n → I n.stopped) : Keeps I stop :=
  keeps_of_ends fun s hs => (stop_ends s).mono (fun _ s' h' => by rw [h'.1]; exact h _ hs)
    fun _ s' h' => by rw [h'.2.1]; exact hs

lemma keeps_setTransport (c : Option TransportGeneration)
    (h : ∀ n, I n → I { n with transport := c }) : Keeps I (setTransport c) :=
  keeps_of_ends fun s hs => (setTransport_ends s c).mono
    (fun _ s' h' => by obtain ⟨w, -, rfl⟩ := h'; exact h _ hs) fun _ _ h' => h'.elim

variable (hn : ∀ (n : ClientNodeSession) (i : ℕ), I n → I { n with nextGeneration := i })
include hn

lemma keeps_allocateGeneration : Keeps I allocateGeneration :=
  keeps_of_ends fun s hs => (allocateGeneration_ends s).mono
    (fun _ s' h => by rw [h.2]; exact hn _ _ hs) fun _ s' h => by rw [h.2]; exact hs

lemma keeps_outputCandidate (format : NegotiatedAudioFormat) (buffers : BufferSetDescriptor)
    (io : PortIoDescriptor) : Keeps I (outputCandidate k format buffers io) :=
  keeps_of_ends fun s hs => (outputCandidate_ends s k format buffers io).mono
    (fun _ s' h => by obtain ⟨⟨n, w, -, -, rfl⟩, -⟩ := h; exact hn _ _ hs)
    fun _ s' h => by obtain ⟨-, n, w, -, -, rfl⟩ := h; exact hn _ _ hs

lemma keeps_bindOutput (hs : ∀ n, I n → I n.stopped)
    (ho : ∀ (n : ClientNodeSession) (g : OutputGeneration), I n → I { n with output := some g }) :
    Keeps I (bindOutput k) := by
  unfold bindOutput
  refine keeps_session.bind fun n => ?_
  split
  · refine (keeps_outputCandidate hn _ _ _).bind fun o => ?_
    cases o with
    | none => exact keeps_pure _
    | some g =>
      exact (keeps_stop hs).bind fun _ => (keeps_edit fun n => ho n g).bind fun _ => keeps_pure _
  · exact keeps_pure _

lemma keeps_bindTransport (hs : ∀ n, I n → I n.stopped)
    (hp : ∀ n : ClientNodeSession, I n → I { n with pendingTransport := none })
    (ht : ∀ (n : ClientNodeSession) (t : TransportGeneration), I n →
      I { n with transport := some t }) : Keeps I (bindTransport k) := by
  unfold bindTransport
  refine keeps_session.bind fun n => ?_
  split
  · exact keeps_pure _
  · refine (keeps_check _).bind fun b => ?_
    split_ifs
    · exact keeps_pure _
    · refine (keeps_edit hp).bind fun _ => (keeps_allocateGeneration hn).bind fun i =>
        (keeps_outside _).bind fun t => Keeps.bind (keeps_of_ends fun s hI => ?_) fun _ =>
          (keeps_setTransport _ fun n => ht n t).bind fun _ => keeps_pure _
      rw [ends_onFail]
      refine (((keeps_check _).bind fun _ => keeps_stop hs).ends hI).mono (fun _ _ h => h)
        fun _ s' h => h

lemma keeps_bindPeer
    (he : ∀ (n : ClientNodeSession) (node : NodeId), I n →
      I { n with pendingPeers := n.pendingPeers.erase node })
    (hp : ∀ (n : ClientNodeSession) (p : PeerActivation), I n →
      I { n with peers := n.peers.insert p.node p }) (node : NodeId) :
    Keeps I (bindPeer k node) := by
  unfold bindPeer
  refine keeps_session.bind fun n => (keeps_unwrap _).bind fun d => (keeps_check _).bind fun b => ?_
  split_ifs
  · exact keeps_pure _
  · exact (keeps_edit fun n => he n node).bind fun _ => (keeps_allocateGeneration hn).bind fun i =>
      (keeps_outside _).bind fun p => (keeps_check _).bind fun _ =>
        (keeps_edit fun n => hp n p).bind fun _ => keeps_pure _

end Helpers

/-! ### Starting -/

lemma keeps_ensureRunning (hst : ∀ (n : ClientNodeSession) (x : SessionState), I n →
    I { n with state := x }) : Keeps I ensureRunning := by
  unfold ensureRunning
  refine keeps_session.bind fun n => ?_
  split_ifs
  · exact keeps_pure _
  · exact keeps_edit fun n => hst n _
  · refine (keeps_unwrap _).bind fun t => (keeps_outside _).bind fun st => ?_
    cases st with
    | inactive => exact (keeps_outside _).bind fun _ => keeps_edit fun n => hst n _
    | finished => exact keeps_edit fun n => hst n _
    | _ => exact keeps_raise _

lemma keeps_restart (hst : ∀ (n : ClientNodeSession) (x : SessionState), I n →
    I { n with state := x }) : Keeps I restart := by
  unfold restart
  refine (keeps_edit fun n hn => ?_).bind fun _ => keeps_session.bind fun n =>
    (keeps_ensureRunning hst).doIf _
  rw [n.refreshState_eq]
  exact hst n _ hn

end Owner

end PipewireNative.Node
