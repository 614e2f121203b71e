import PipewireNative.Node.Announce

/-!
Commands that are refused. Some branches of `apply` validate first and change the session after
that; others change it first. Which of the two happens decides whether a refused command leaves
the configuration as it was, and it is decided here for every command.
-/

namespace PipewireNative.Node

open Lib Prog World Sys

/-- The configuration of `s'` is that of `s`. -/
structure ClientNodeSession.Retained (s s' : ClientNodeSession) : Prop where
  transport : s'.transport = s.transport
  pendingTransport : s'.pendingTransport = s.pendingTransport
  format : s'.format = s.format
  bufferDescriptor : s'.bufferDescriptor = s.bufferDescriptor
  ioDescriptor : s'.ioDescriptor = s.ioDescriptor
  output : s'.output = s.output
  peers : s'.peers = s.peers
  pendingPeers : s'.pendingPeers = s.pendingPeers
  activeRequested : s'.activeRequested = s.activeRequested
  command : s'.command = s.command
  state : s'.state = s.state

/-- The session is in the state that a refresh leaves. -/
def ClientNodeSession.Refreshed (s : ClientNodeSession) : Prop := s.refreshState.state = s.state

/-- Binding the output again keeps the one there is: the candidate is refused or cannot be put in
its place; without a candidate, the restart decides. -/
def ClientNodeSession.KeepsOutput (k : Kernel) (m : Shm) (s : ClientNodeSession) : Prop :=
  match s.format, s.bufferDescriptor, s.ioDescriptor with
  | some format, some buffers, some io =>
    if Owner.Resolvable s.availableMemory buffers io then
      ¬ ((∃ g, Owner.OutputFits k m s format buffers io g) ∧ s.Answers m)
    else s.Refreshed
  | _, _, _ => s.Refreshed

/-- A transport is pending and its memory is there. -/
def ClientNodeSession.TransportDue (s : ClientNodeSession) : Prop :=
  ∃ d, s.pendingTransport = some d ∧ (s.availableMemory d.activation.memory).isSome

/-- Format, buffers and IO are there with their memory. -/
def ClientNodeSession.OutputDue (s : ClientNodeSession) : Prop :=
  s.format.isSome ∧ ∃ buffers io, s.bufferDescriptor = some buffers ∧ s.ioDescriptor = some io ∧
    Owner.Resolvable s.availableMemory buffers io

/-- A peer among `nodes` is pending and its memory is there. -/
def ClientNodeSession.PeerDue (s : ClientNodeSession) (nodes : List NodeId) : Prop :=
  ∃ node ∈ nodes, ∃ d, s.pendingPeers[node]? = some d ∧
    (s.availableMemory d.activation.memory).isSome

/-- **What a refused command retains.** The condition under which the configuration is the same
after a refused command as before it. -/
def SessionCommand.Retains (k : Kernel) (m : Shm) (s : ClientNodeSession) : SessionCommand → Prop
  | .replaceTransport d =>
    if (s.availableMemory d.activation.memory).isSome then
      s.pendingTransport = none ∧ ¬ ((∃ t, Owner.TransportFits k m s d t) ∧ s.Answers m)
    else s.pendingTransport = some d ∧ s.Refreshed
  | .setFormat value => s.format = some value ∧ s.KeepsOutput k m
  | .useBuffers value =>
    match s.bufferDescriptor with
    | none => False
    | some current => current ≠ value ∨ s.KeepsOutput k m
  | .setPortIo value =>
    match s.format, s.bufferDescriptor with
    | some format, some buffers => Owner.Resolvable s.availableMemory buffers value →
      ¬ ((∃ g, Owner.OutputFits k m s format buffers value g) ∧ s.Answers m)
    | _, _ => s.ioDescriptor = some value ∧ s.Refreshed
  | .setPeerActivation d =>
    if d.node ∉ s.pendingPeers ∧ d.node ∉ s.peers ∧
      maxSessionPeers ≤ s.pendingPeers.size + s.peers.size then True
    else if (s.availableMemory d.activation.memory).isSome then
      d.node ∉ s.pendingPeers ∧ ∀ p, ¬ Owner.PeerFits k m s d.node d p
    else s.pendingPeers[d.node]? = some d ∧ s.Refreshed
  | .removePeerActivation node => node ∉ s.pendingPeers ∧ node ∉ s.peers ∧ s.Refreshed
  | .memoryAvailable lease =>
    let n := { s with availableMemory := s.availableMemory.announce lease }
    ¬ n.TransportDue ∧ n.KeepsOutput k m ∧ (n.OutputDue ∨ ¬ n.PeerDue n.pendingPeers.keys)
  | .removeMemory key =>
    s.transport.any (fun t => decide (t.activationKey = key)) ∨
      s.output.any (fun g => g.dependsOn key) ∨
      ((∀ (n : NodeId) (p : PeerActivation), s.peers[n]? = some p → p.key ≠ key) ∧ s.Refreshed)
  | .setActive active => s.activeRequested = active
  | .setNodeCommand command => s.command = command
  | .clearFormat | .clearBuffers | .clearPortIo | .memoryDisconnected | .disconnect => True

lemma PeerSet.removeMemory_eq_self {peers : PeerSet} {key : MemoryKey} :
    peers.removeMemory key = peers ↔
      ∀ (n : NodeId) (p : PeerActivation), peers[n]? = some p → p.key ≠ key := by
  constructor
  · intro h n p hp
    rw [← h] at hp
    simp only [PeerSet.removeMemory, Std.ExtTreeMap.getElem?_filter',
      Option.filter_eq_some_iff] at hp
    simpa using hp.2
  · intro h
    refine Std.ExtTreeMap.ext_getElem? fun i => ?_
    simp only [PeerSet.removeMemory, Std.ExtTreeMap.getElem?_filter']
    cases hp : peers[i]? with
    | none => rfl
    | some p => simp [Option.filter, h i p hp]

namespace Owner

variable {s : Sys} {m : Shm} {k : Kernel}

/-! ### Refusals of the restart -/

lemma restart_refused (hs : s.world.At m) : restart.Ends s (fun _ _ => True)
    (fun _ s' => s.session.wanted ∧ s.session.isReady ∧ ¬ s.session.Startable m ∧
      s'.session = { s.session with state := s.session.refreshState.state }) := by
  refine (restart_at hs).mono (fun _ _ _ => trivial) fun _ s' h => ?_
  obtain ⟨hgo, hno, hses, -⟩ := h
  rw [Bool.and_eq_true] at hgo
  refine ⟨hgo.1, hgo.2, hno, ?_⟩
  rw [hses, ← ClientNodeSession.refreshState_eq]

lemma restart_unready (hs : s.world.At m) (h : s.session.isReady = false) :
    restart.Ends s (fun _ _ => True) (fun _ _ => False) :=
  (restart_refused hs).mono (fun _ _ _ => trivial) fun _ _ h' => by simp [h] at h'

lemma refreshState_congr {n n' : ClientNodeSession} (hst : n'.state = n.state)
    (hr : n'.isReady = n.isReady) : n'.refreshState.state = n.refreshState.state := by
  unfold ClientNodeSession.refreshState
  rw [hst, hr]
  split <;> simp_all

lemma Retained.refl (n : ClientNodeSession) : n.Retained n :=
  ⟨rfl, rfl, rfl, rfl, rfl, rfl, rfl, rfl, rfl, rfl, rfl⟩

/-- However the command ends that begins with `p`, if it is refused, then `R` says whether the
configuration `n` is retained. -/
def Decides {α : Type} (n : ClientNodeSession) (R : Prop) (p : Owner α) (s : Sys) : Prop :=
  p.Ends s
    (fun _ s₁ => restart.Ends s₁ (fun _ _ => True) (fun _ s₂ => n.Retained s₂.session ↔ R))
    (fun _ s₁ => n.Retained s₁.session ↔ R)

lemma restart_decides {n : ClientNodeSession} (hs : s.world.At m)
    (hst : s.session.state = n.state) (hr : s.session.isReady = n.isReady) {X : Prop}
    (hX : n.Retained s.session ↔ X) : restart.Ends s (fun _ _ => True)
      (fun _ s₂ => n.Retained s₂.session ↔ X ∧ n.Refreshed) := by
  refine (restart_refused hs).mono (fun _ _ _ => trivial) fun _ s₂ h => ?_
  obtain ⟨-, -, -, hses⟩ := h
  rw [refreshState_congr hst hr] at hses
  rw [hses, ← hX]
  constructor
  · rintro ⟨h₁, h₂, h₃, h₄, h₅, h₆, h₇, h₈, h₉, h₁₀, h₁₁⟩
    exact ⟨⟨h₁, h₂, h₃, h₄, h₅, h₆, h₇, h₈, h₉, h₁₀, hst⟩, h₁₁⟩
  · rintro ⟨⟨h₁, h₂, h₃, h₄, h₅, h₆, h₇, h₈, h₉, h₁₀, -⟩, h₁₁⟩
    exact ⟨h₁, h₂, h₃, h₄, h₅, h₆, h₇, h₈, h₉, h₁₀, h₁₁⟩

lemma restart_lost {n : ClientNodeSession} {I : ClientNodeSession → Prop}
    (hst : ∀ (n : ClientNodeSession) (x : SessionState), I n → I { n with state := x })
    (hI : ∀ n', n.Retained n' → ¬ I n') (h : I s.session) {R : Prop} (hR : ¬ R) :
    restart.Ends s (fun _ _ => True) (fun _ s₂ => n.Retained s₂.session ↔ R) :=
  ((keeps_restart hst).ends h).mono (fun _ _ _ => trivial) fun _ _ h₂ =>
    iff_of_false (fun hret => hI _ hret h₂) hR

/-! ### The output -/

lemma bindOutput_decides (hf : s.session.Fresh) (hs : s.world.At m) :
    Decides s.session (s.session.KeepsOutput k m) (bindOutput k) s := by
  have hpass : ∀ s₁ : Sys, s₁.session = s.session → s₁.world.At m →
      s.session.KeepsOutput k m = s.session.Refreshed →
      restart.Ends s₁ (fun _ _ => True) (fun _ s₂ => s.session.Retained s₂.session ↔
        s.session.KeepsOutput k m) := by
    intro s₁ hses hw₁ heq
    rw [heq]
    refine (restart_decides (X := True) hw₁ (by rw [hses]) (by rw [hses]) (iff_true_intro ?_)).mono
      (fun _ _ h => h) fun _ _ h => by rwa [true_and] at h
    rw [hses]
    exact Retained.refl _
  unfold Decides
  by_cases hall : s.session.format = none ∨ s.session.bufferDescriptor = none ∨
      s.session.ioDescriptor = none
  · refine (bindOutput_incomplete hall).mono (fun _ s₁ h => ?_) fun _ _ h => h.elim
    rw [h.2]
    refine hpass s rfl hs ?_
    unfold ClientNodeSession.KeepsOutput
    rcases hall with h | h | h <;> simp [h]
  simp only [not_or, ← ne_eq, Option.ne_none_iff_exists'] at hall
  obtain ⟨⟨format, hF⟩, ⟨buffers, hB⟩, io, hI⟩ := hall
  have hkeep : s.session.KeepsOutput k m =
      if Resolvable s.session.availableMemory buffers io then
        ¬ ((∃ g, OutputFits k m s.session format buffers io g) ∧ s.session.Answers m)
      else s.session.Refreshed := by
    unfold ClientNodeSession.KeepsOutput; simp only [hF, hB, hI]
  refine (bindOutput_at hs hF hB hI).mono (fun _ s₁ h => ?_) fun _ s₁ h => ?_
  · rcases h with ⟨-, hno, hses, hw₁⟩ | ⟨-, hres, hans, g, hg, hid, hses, hw₁⟩
    · exact hpass s₁ hses hw₁ (by rw [hkeep, if_neg hno])
    · rw [hkeep, if_pos hres]
      refine restart_lost (I := fun n => n.output = some g) (fun _ _ h => h) (fun n' hret h => ?_)
        (by rw [hses]) (not_not.2 ⟨⟨g, hg⟩, hans⟩)
      exact absurd (hf.output g (hret.output.symm.trans h)) (by omega)
  · obtain ⟨hres, ⟨i, hses⟩, hwhy⟩ := h
    rw [hkeep, if_pos hres, hses]
    refine iff_of_true ⟨rfl, rfl, rfl, rfl, rfl, rfl, rfl, rfl, rfl, rfl, rfl⟩ ?_
    rintro ⟨⟨g, hg⟩, hans⟩
    rcases hwhy with ⟨hno, -⟩ | ⟨-, hno, -⟩
    · exact hno g hg
    · exact hno hans

/-! ### The commands -/

section Maps

variable {β : Type} {t : Std.ExtTreeMap NodeId β} {node : NodeId} {b : β}

lemma insert_eq_self (h : t[node]? = some b) : t.insert node b = t := by
  refine Std.ExtTreeMap.ext_getElem? fun i => ?_
  rw [Std.ExtTreeMap.getElem?_insert]
  split_ifs with hi
  · rw [← h, Std.LawfulEqCmp.compare_eq_iff_eq.1 hi]
  · rfl

lemma erase_eq_self : t.erase node = t ↔ node ∉ t := by
  constructor
  · intro h
    rw [← h]
    simp
  · intro h
    refine Std.ExtTreeMap.ext_getElem? fun i => ?_
    rw [Std.ExtTreeMap.getElem?_erase]
    split_ifs with hi
    · rw [← Std.LawfulEqCmp.compare_eq_iff_eq.1 hi]
      exact (Std.ExtTreeMap.getElem?_eq_none h).symm
    · rfl

lemma erase_insert_eq_self : (t.insert node b).erase node = t ↔ node ∉ t := by
  have : (t.insert node b).erase node = t.erase node := by
    refine Std.ExtTreeMap.ext_getElem? fun i => ?_
    simp only [Std.ExtTreeMap.getElem?_erase, Std.ExtTreeMap.getElem?_insert]
    split_ifs <;> rfl
  rw [this]
  exact erase_eq_self

end Maps

section Commands

variable {n : ClientNodeSession} {R : Prop}

/-- What is lost before a part that keeps it so is lost when the command is refused. -/
lemma Keeps.decides {α : Type} {I : ClientNodeSession → Prop} {p : Owner α} (hp : Keeps I p)
    (hst : ∀ (n : ClientNodeSession) (x : SessionState), I n → I { n with state := x })
    (hI : ∀ n', n.Retained n' → ¬ I n') (h : I s.session) (hR : ¬ R) : Decides n R p s :=
  (hp.ends h).mono (fun _ _ h₁ => restart_lost hst hI h₁ hR) fun _ _ h₁ =>
    iff_of_false (fun hret => hI _ hret h₁) hR

lemma stop_decides (hs : s.world.At m) (hret : n.Retained s.session) {g : Sys → Sys}
    (hg : ∀ s₁, (g s₁).session.output = none ∧ (g s₁).world = s₁.world) (hR : R) :
    stop.Ends s
      (fun _ s₁ => restart.Ends (g s₁) (fun _ _ => True) (fun _ s₂ => n.Retained s₂.session ↔ R))
      (fun _ s₁ => n.Retained s₁.session ↔ R) := by
  refine (stop_at hs).mono (fun _ s₁ h => ?_) fun _ s₁ h => ?_
  · have hw : (g s₁).world.At (s.session.rest m) := by rw [(hg s₁).2]; exact h.2.2
    have hready : (g s₁).session.isReady = false := by
      simp [ClientNodeSession.isReady, (hg s₁).1]
    exact (restart_unready hw hready).mono (fun _ _ _ => trivial) fun _ _ h => h.elim
  · rw [h.2.1]
    exact iff_of_true hret hR

lemma setFormat_decides (hf : s.session.Fresh) (hs : s.world.At m) (value : NegotiatedAudioFormat) :
    Decides s.session (s.session.format = some value ∧ s.session.KeepsOutput k m)
      (setFormat k value) s := by
  by_cases hsame : s.session.format = some value
  · have hid : ({ s.session with format := some value } : ClientNodeSession) = s.session := by
      rw [← hsame]
    unfold Decides setFormat doIf
    simp only [ends_bind, ends_session, ends_edit, hsame, Option.any_some, ne_eq,
      not_true_eq_false, decide_false, Bool.false_eq_true, if_false, ends_pure, true_and]
    rw [hid]
    exact bindOutput_decides hf hs
  · have hst : ∀ n : ClientNodeSession, n.format = some value → n.stopped.format = some value := by
      intro n h
      unfold ClientNodeSession.stopped
      split_ifs <;> exact h
    have hkeep : Keeps (fun n => n.format = some value) (do
        doIf (s.session.format.any fun current => decide (current ≠ value)) do
          stop
          edit fun s => { s with bufferDescriptor := none, ioDescriptor := none, output := none }
        bindOutput k) := by
      refine Keeps.bind (Keeps.doIf ((keeps_stop hst).bind fun _ => ?_) _) fun _ =>
        keeps_bindOutput (fun _ _ h => h) hst fun _ _ h => h
      exact keeps_edit fun _ h => h
    exact hkeep.decides (s := { s with session := { s.session with format := some value } })
      (fun _ _ h => h) (fun _ hret h => hsame (hret.format.symm.trans h)) rfl fun h => hsame h.1

lemma buffersPending_at (hs : s.world.At m) (value : BufferSetDescriptor) :
    (buffersPending k value).Ends s
      (fun _ s' => (∃ i, s'.session = { s.session with nextGeneration := i }) ∧ s'.world.At m)
      (fun _ s' => (∃ i, s'.session = { s.session with nextGeneration := i }) ∧ s'.world.At m) := by
  unfold buffersPending
  rw [ends_bind, ends_session]
  split
  · rw [ends_bind]
    refine (outputCandidate_at hs _ value _).mono (fun o s' h => ?_) fun _ s' h => ⟨h.2.2.2, h.1⟩
    obtain ⟨hw, h⟩ := h
    cases o with
    | none => exact ⟨⟨_, h.2⟩, hw⟩
    | some g => exact ⟨⟨_, h.2.2.2⟩, hw⟩
  · exact ⟨⟨_, rfl⟩, hs⟩

lemma Retained.allocated {n' : ClientNodeSession} (h : ∃ i, n' = { n with nextGeneration := i }) :
    n.Retained n' := by
  obtain ⟨i, rfl⟩ := h
  exact ⟨rfl, rfl, rfl, rfl, rfl, rfl, rfl, rfl, rfl, rfl, rfl⟩

lemma useBuffers_decides (hf : s.session.Fresh) (hs : s.world.At m) (value : BufferSetDescriptor) :
    Decides s.session ((SessionCommand.useBuffers value).Retains k m s.session)
      (useBuffers k value) s := by
  unfold SessionCommand.Retains
  cases hB : s.session.bufferDescriptor with
  | none =>
    unfold Decides useBuffers
    simp only [ends_bind, ends_session, hB, Option.any_none, Bool.false_eq_true, if_false,
      ends_edit]
    refine Keeps.decides (I := fun n => n.bufferDescriptor = some value) (s := { s with
      session := { s.session with bufferDescriptor := some value } })
      (keeps_bindOutput (fun _ _ h => h) (fun n h => ?_) fun _ _ h => h) (fun _ _ h => h)
      (fun _ hret h => ?_) rfl id
    · unfold ClientNodeSession.stopped
      split_ifs <;> exact h
    · exact absurd (hret.bufferDescriptor.symm.trans h) (by simp [hB])
  | some current =>
    by_cases hsame : current = value
    · have hid : ({ s.session with bufferDescriptor := some value } : ClientNodeSession) =
          s.session := by
        rw [← hsame, ← hB]
      unfold Decides useBuffers
      simp only [ends_bind, ends_session, hB, Option.any_some, hsame, ne_eq,
        not_true_eq_false, decide_false, Bool.false_eq_true, if_false, ends_edit, false_or]
      rw [hid]
      exact bindOutput_decides hf hs
    · unfold Decides useBuffers
      simp only [ends_bind, ends_session, hB, Option.any_some, hsame, ne_eq,
        not_false_eq_true, decide_true, if_true, ends_edit, true_or, ends_pure]
      refine (buffersPending_at hs value).mono (fun _ s₁ h => ?_) fun _ s₁ h =>
        iff_of_true (Retained.allocated h.1) trivial
      exact stop_decides h.2 (Retained.allocated h.1) (fun _ => ⟨rfl, rfl⟩) trivial

lemma setPortIo_decides (hf : s.session.Fresh) (hs : s.world.At m) (value : PortIoDescriptor) :
    Decides s.session ((SessionCommand.setPortIo value).Retains k m s.session)
      (setPortIo k value) s := by
  unfold Decides setPortIo SessionCommand.Retains
  rw [ends_bind, ends_session]
  split
  · rename_i format buffers hF hB
    simp only [hF, hB]
    rw [ends_bind]
    refine (outputCandidate_at hs format buffers value).mono (fun o s₁ h => ?_) fun _ s₁ h => ?_
    · obtain ⟨hw₁, h⟩ := h
      cases o with
      | none =>
        simp only [ends_bind, ends_edit, ends_pure]
        exact stop_decides hw₁ (Retained.allocated ⟨_, h.2⟩) (fun _ => ⟨rfl, rfl⟩)
          fun hres => absurd hres h.1
      | some g =>
        obtain ⟨hres, hg, hid, hses⟩ := h
        simp only [ends_bind, ends_edit, ends_pure]
        refine (stop_at hw₁).mono (fun _ s₂ h => ?_) fun _ s₂ h => ?_
        · have hans : s.session.Answers m := by
            have := h.1
            rw [hses] at this
            exact this
          refine restart_lost (I := fun n => n.output = some g) (s := { s₂ with session := {
            s₂.session with ioDescriptor := some value, output := some g } }) (fun _ _ h => h)
            (fun n' hret h => ?_) rfl fun hno => hno hres ⟨⟨g, hg⟩, hans⟩
          exact absurd (hf.output g (hret.output.symm.trans h)) (by omega)
        · have hans : ¬ s.session.Answers m := by
            have := h.1
            rw [hses] at this
            exact this
          rw [h.2.1]
          exact iff_of_true (Retained.allocated ⟨_, hses⟩) fun _ h => hans h.2
    · exact iff_of_true (Retained.allocated h.2.2.2) fun _ h' =>
        h'.1.elim fun g hg => h.2.2.1 g hg
  · simp only [ends_bind, ends_edit, ends_pure]
    refine restart_decides (n := s.session) (s := { s with session := { s.session with
      ioDescriptor := some value } }) hs rfl rfl ?_
    exact ⟨fun h => h.ioDescriptor.symm, fun h =>
      ⟨rfl, rfl, rfl, rfl, h.symm, rfl, rfl, rfl, rfl, rfl, rfl⟩⟩

lemma replaceTransport_decides (hf : s.session.Fresh) (hs : s.world.At m)
    (d : TransportDescriptor) :
    Decides s.session ((SessionCommand.replaceTransport d).Retains k m s.session)
      (dispatch k (.replaceTransport d)) s := by
  unfold Decides dispatch
  dsimp only [SessionCommand.Retains]
  rw [ends_bind, ends_edit]
  refine (bindTransport_at (s := ⟨{ s.session with pendingTransport := some d }, s.world⟩) hs
    rfl).mono (fun _ s₁ h => ?_) fun _ s₁ h => ?_
  · rcases h with ⟨-, hnone, hses, hw₁⟩ | ⟨-, hsome, hans, t, ht, hid, hses, hw₁⟩
    · rw [if_neg (by rw [show s.session.availableMemory _ = none from hnone]; simp)]
      refine restart_decides hw₁ (by rw [hses]) (by rw [hses]; rfl) ?_
      rw [hses]
      exact ⟨fun h => h.pendingTransport.symm, fun h =>
        ⟨rfl, h.symm, rfl, rfl, rfl, rfl, rfl, rfl, rfl, rfl, rfl⟩⟩
    · rw [if_pos (show (s.session.availableMemory d.activation.memory).isSome = true from hsome)]
      refine restart_lost (I := fun n => n.transport = some t) (fun _ _ h => h)
        (fun n' hret h => ?_) (by rw [hses]) fun h =>
          h.2 ⟨⟨t, ht.room, ht.described, ht.version, ht.apart⟩, hans⟩
      have hnext : t.id = s.session.nextGeneration := hid
      exact absurd (hf.transport t (hret.transport.symm.trans h)) (by omega)
  · obtain ⟨hsome, ⟨i, hses⟩, m', -, href⟩ := h
    rw [if_pos (show (s.session.availableMemory d.activation.memory).isSome = true from hsome), hses]
    refine ⟨fun h => ⟨h.pendingTransport.symm, fun ⟨⟨t, ht⟩, hans⟩ => ?_⟩, fun h =>
      ⟨rfl, h.1.symm, rfl, rfl, rfl, rfl, rfl, rfl, rfl, rfl, rfl⟩⟩
    exact href.not_installed ⟨⟨t, ht.room, ht.described, ht.version, ht.apart⟩, hans⟩

lemma setPeerActivation_decides (hf : s.session.Fresh) (hs : s.world.At m)
    (d : PeerActivationDescriptor) :
    Decides s.session ((SessionCommand.setPeerActivation d).Retains k m s.session)
      (setPeerActivation k d) s := by
  unfold Decides setPeerActivation
  dsimp only [SessionCommand.Retains]
  rw [ends_bind, ends_session]
  split_ifs with hfull hsome
  · exact iff_of_true (Retained.refl _) trivial
  all_goals
    rw [ends_bind, ends_edit]
    have hd : (s.session.pendingPeers.insert d.node d)[d.node]? = some d :=
      Std.ExtTreeMap.getElem?_insert_self
    refine (bindPeer_at (s := ⟨{ s.session with
      pendingPeers := s.session.pendingPeers.insert d.node d }, s.world⟩) hs d.node hd).mono
      (fun _ s₁ h => ?_) fun _ s₁ h => ?_
  · obtain ⟨hw₁, ⟨-, hnone, -⟩ | ⟨-, -, p, hp, hgen, hses⟩⟩ := h
    · exact absurd hsome (by rw [show s.session.availableMemory _ = none from hnone]; simp)
    · refine restart_lost (I := fun n => n.peers[p.node]? = some p) (fun _ _ h => h)
        (fun n' hret h => ?_) (by rw [hses]; exact Std.ExtTreeMap.getElem?_insert_self) fun h =>
          h.2 p ⟨hp.room, hp.described, hp.record, hp.apart⟩
      rw [hret.peers] at h
      have hnext : p.generation = s.session.nextGeneration := hgen
      exact absurd (hf.peers _ p h) (by omega)
  · obtain ⟨-, -, hno, i, hses⟩ := h
    have herase : (s.session.pendingPeers.insert d.node d).erase d.node = s.session.pendingPeers ↔
        d.node ∉ s.session.pendingPeers := erase_insert_eq_self
    rw [hses]
    refine ⟨fun h => ⟨herase.1 h.pendingPeers, fun p hp => hno p
      ⟨hp.room, hp.described, hp.record, hp.apart⟩⟩, fun h =>
        ⟨rfl, rfl, rfl, rfl, rfl, rfl, rfl, herase.2 h.1, rfl, rfl, rfl⟩⟩
  · obtain ⟨hw₁, ⟨-, -, hses⟩ | ⟨-, hav, -⟩⟩ := h
    · refine restart_decides hw₁ (by rw [hses]) (by rw [hses]; rfl) ?_
      rw [hses]
      refine ⟨fun h => ?_, fun h => ⟨rfl, rfl, rfl, rfl, rfl, rfl, rfl, ?_, rfl, rfl, rfl⟩⟩
      · rw [← h.pendingPeers]
        exact hd
      · exact insert_eq_self h
    · exact absurd hav hsome
  · exact absurd h.2.1 hsome

lemma removePeerActivation_decides (hs : s.world.At m) (node : NodeId) :
    Decides s.session ((SessionCommand.removePeerActivation node).Retains k m s.session)
      (dispatch k (.removePeerActivation node)) s := by
  unfold Decides dispatch
  dsimp only [SessionCommand.Retains]
  simp only [ends_bind, ends_edit, ends_pure]
  rw [← and_assoc]
  refine restart_decides (n := s.session) (s := { s with session := { s.session with
    pendingPeers := s.session.pendingPeers.erase node,
    peers := s.session.peers.erase node } }) hs rfl rfl ?_
  exact ⟨fun h => ⟨erase_eq_self.1 h.pendingPeers, erase_eq_self.1 h.peers⟩, fun h =>
    ⟨rfl, rfl, rfl, rfl, rfl, rfl, erase_eq_self.2 h.2, erase_eq_self.2 h.1, rfl, rfl, rfl⟩⟩

lemma startable_started {n : ClientNodeSession} (h : n.Startable m) : n.Startable (n.started m) := by
  obtain ⟨r, hr, hver, hst⟩ := h
  have hrec := ClientNodeSession.own_isRecord hr
  have hmem : n.started m = if m.word (statusOf r) 4 = ActivationStatus.inactive.code then
      m.setWord (statusOf r) 4 ActivationStatus.finished.code else m := by
    unfold ClientNodeSession.started; rw [hr]
  rw [hmem]
  split_ifs with hin
  · refine ⟨r, hr, ?_, Or.inr (Memory.word_setWord_same (ActivationStatus.code_lt _))⟩
    rw [← hver]
    refine Memory.word_setWord_apart (apart_of_aligned hrec.1 hrec.version_aligned ?_)
    simp [versionOf, statusOf, Abi.serverVersion]
  · exact ⟨r, hr, hver, hst⟩

lemma ensureRunning_decides (hs : s.world.At m) (hR : n.Retained s.session ↔ R) :
    Decides n R ensureRunning s := by
  have quiet : ∀ (s₁ : Sys) (m₁ : Shm), s₁.world.At m₁ →
      ((s₁.session.wanted && s₁.session.isReady) = true → s₁.session.Startable m₁) →
      restart.Ends s₁ (fun _ _ => True) (fun _ s₂ => n.Retained s₂.session ↔ R) :=
    fun s₁ m₁ hw h => (restart_at hw).mono (fun _ _ _ => trivial) fun _ _ h' =>
      absurd (h h'.1) h'.2.1
  unfold Decides
  cases hw : s.session.wanted with
  | false =>
    unfold ensureRunning
    rw [ends_bind, ends_session, if_pos hw]
    exact quiet s m hs (by simp [hw])
  | true =>
    cases hr : s.session.isReady with
    | false =>
      unfold ensureRunning
      rw [ends_bind, ends_session, if_neg (by simp [hw]), if_pos hr, ends_edit]
      exact quiet _ m hs (by simp [show ({ s.session with state := .configuring } :
        ClientNodeSession).isReady = false from hr])
    | true =>
      refine (ensureRunning_at hs hw hr).mono (fun _ s₁ h => ?_) fun _ s₁ h => ?_
      · refine quiet s₁ _ h.2.2 fun _ => ?_
        rw [h.2.1]
        exact startable_started h.1
      · rw [h.2.1]
        exact hR

lemma stop_unwanted_decides (hs : s.world.At m) (hw : s.session.wanted = false)
    (hR : n.Retained s.session ↔ R) : Decides n R stop s := by
  refine (stop_at hs).mono (fun _ s₁ h => ?_) fun _ s₁ h => ?_
  · refine (restart_at h.2.2).mono (fun _ _ _ => trivial) fun _ _ h' => ?_
    have hst : s.session.stopped.wanted = s.session.wanted := by
      unfold ClientNodeSession.stopped; split_ifs <;> rfl
    rw [h.2.1, hst, hw, Bool.false_and] at h'
    exact absurd h'.1 Bool.false_ne_true
  · rw [h.2.1]
    exact hR

lemma setActive_decides (hs : s.world.At m) (active : Bool) :
    Decides s.session (s.session.activeRequested = active) (setActive active) s := by
  have hR : s.session.Retained { s.session with activeRequested := active } ↔
      s.session.activeRequested = active :=
    ⟨fun h => h.activeRequested.symm, fun h =>
      ⟨rfl, rfl, rfl, rfl, rfl, rfl, rfl, rfl, h.symm, rfl, rfl⟩⟩
  unfold Decides setActive
  rw [ends_bind, ends_edit]
  cases active with
  | false =>
    exact stop_unwanted_decides (s := { s with session := { s.session with
      activeRequested := false } }) hs (by simp [ClientNodeSession.wanted]) hR
  | true =>
    exact ensureRunning_decides (s := { s with session := { s.session with
      activeRequested := true } }) hs hR

lemma setNodeCommand_decides (hs : s.world.At m) (command : NodeCommandState) :
    Decides s.session (s.session.command = command) (setNodeCommand command) s := by
  have hR : s.session.Retained { s.session with command := command } ↔
      s.session.command = command :=
    ⟨fun h => h.command.symm, fun h => ⟨rfl, rfl, rfl, rfl, rfl, rfl, rfl, rfl, rfl, h.symm, rfl⟩⟩
  unfold Decides setNodeCommand
  rw [ends_bind, ends_edit]
  cases command with
  | start =>
    exact ensureRunning_decides (s := { s with session := { s.session with command := .start } })
      hs hR
  | pause =>
    exact stop_unwanted_decides (s := { s with session := { s.session with command := .pause } })
      hs (by simp [ClientNodeSession.wanted]) hR
  | suspend =>
    unfold clearFormat
    simp only [ends_bind, ends_edit]
    refine (stop_at (s := { s with session := { s.session with command := .suspend } }) hs).mono
      (fun _ s₁ h => ?_) fun _ s₁ h => ?_
    · exact (restart_unready (s := { s₁ with session := { s₁.session with
        output := none, ioDescriptor := none, bufferDescriptor := none, format := none } }) h.2.2
        (by simp [ClientNodeSession.isReady])).mono (fun _ _ _ => trivial) fun _ _ h => h.elim
    · rw [h.2.1]
      exact hR

lemma removeMemory_decides (hs : s.world.At m) (key : MemoryKey) :
    Decides s.session ((SessionCommand.removeMemory key).Retains k m s.session)
      (dispatch k (.removeMemory key)) s := by
  unfold Decides dispatch removeMemory
  dsimp only [SessionCommand.Retains]
  simp only [ends_bind, ends_edit, ends_session, ends_pure]
  set s₀ : Sys := { s with session := { s.session with
    availableMemory := s.session.availableMemory.retire key } }
  have hret : s.session.Retained s₀.session :=
    ⟨rfl, rfl, rfl, rfl, rfl, rfl, rfl, rfl, rfl, rfl, rfl⟩
  cases hT : s.session.transport.any fun t => decide (t.activationKey = key) with
  | true =>
    -- once the transport is gone, nothing that follows can be refused
    unfold doIf
    simp only [if_true, ends_bind, true_or, iff_true]
    refine (stop_at (s := s₀) hs).mono (fun _ s₁ h => ?_) fun _ s₁ h => ?_
    · refine (setTransport_at h.2.2 none).mono (fun _ s₂ h₂ => ?_) fun _ _ h => h.elim
      obtain ⟨hses, hw₂⟩ := h₂
      have hown : s₂.session.own = none := by rw [hses]; rfl
      have htail : ∀ s₃ : Sys, s₃.session.transport = none → ∀ m₃, s₃.world.At m₃ →
          restart.Ends s₃ (fun _ _ => True) (fun _ s₄ => s.session.Retained s₄.session) :=
        fun s₃ ht m₃ hw => (restart_unready hw (by simp [ClientNodeSession.isReady, ht])).mono
          (fun _ _ _ => trivial) fun _ _ h => h.elim
      split_ifs
      · simp only [ends_bind, ends_edit]
        refine (stop_at hw₂).mono (fun _ s₃ h₃ => ?_) fun _ s₃ h₃ => absurd ?_ h₃.1
        · refine htail _ ?_ _ h₃.2.2
          show s₃.session.transport = none
          rw [h₃.2.1, ClientNodeSession.stopped_transport, hses]
        · exact fun r hr => absurd hr (by simp [hown])
      · exact htail _ (by show s₂.session.transport = none; rw [hses]) _ hw₂
    · rw [h.2.1]
      exact hret
  | false =>
    unfold doIf
    simp only [Bool.false_eq_true, if_false, ends_pure, false_or]
    rw [show s₀.session.output = s.session.output from rfl]
    cases hO : s.session.output.any fun g => g.dependsOn key with
    | true =>
      simp only [if_true, ends_bind, ends_edit, true_or]
      exact stop_decides (s := s₀) hs hret (fun _ => ⟨rfl, rfl⟩) trivial
    | false =>
      simp only [Bool.false_eq_true, if_false, ends_pure, false_or]
      refine restart_decides (n := s.session) (s := { s₀ with session := { s₀.session with
        peers := s₀.session.peers.removeMemory key } }) hs rfl rfl ?_
      have hpeers : s.session.peers.removeMemory key = s.session.peers ↔ _ :=
        PeerSet.removeMemory_eq_self
      exact ⟨fun h => hpeers.1 h.peers, fun h =>
        ⟨rfl, rfl, rfl, rfl, rfl, rfl, hpeers.2 h, rfl, rfl, rfl, rfl⟩⟩

lemma bindPeer_pending {node : NodeId} (node' : NodeId) (h : s.session.pendingPeers[node]? = none) :
    (bindPeer k node').Ends s (fun _ s' => s'.session.pendingPeers[node]? = none)
      (fun _ s' => s'.session.pendingPeers[node]? = none) := by
  unfold bindPeer
  simp only [ends_bind, ends_session]
  cases s.session.pendingPeers[node']? with
  | none => exact h
  | some d =>
    simp only [ends_unwrap_some, ends_check, unresolved_resolve, ends_ite, ends_pure,
      ends_bind, ends_edit]
    refine ⟨fun _ => h, fun _ => ?_⟩
    have herase : (s.session.pendingPeers.erase node')[node]? = none := by
      rw [Std.ExtTreeMap.getElem?_erase]
      split_ifs
      · rfl
      · exact h
    refine allocateGeneration_at.mono (fun i s₁ h₁ => ?_) fun _ s₁ h₁ => ?_
    · obtain ⟨-, rfl, rfl⟩ := h₁
      rw [ends_outside]
      refine (PeerActivation.bind_ends k _ d _ _).mono (fun p' w h₂ => ?_) fun _ _ _ => herase
      split
      · exact herase
      · exact herase
    · rw [h₁.2]
      exact herase

lemma peers_decide (hs : s.world.At m) (nodes : List NodeId)
    (hnodes : ∀ n ∈ nodes, n ∈ s.session.pendingPeers) :
    Decides s.session (¬ s.session.PeerDue nodes ∧ s.session.Refreshed)
      (Prog.mapList (bindPeer k) nodes) s := by
  unfold Decides
  induction nodes generalizing s with
  | nil =>
    refine restart_decides hs rfl rfl (iff_of_true (Retained.refl _) ?_)
    rintro ⟨n, hn, -⟩
    exact absurd hn List.not_mem_nil
  | cons node nodes ih =>
    obtain ⟨d, hd⟩ : ∃ d, s.session.pendingPeers[node]? = some d :=
      Option.isSome_iff_exists.1 (Std.ExtTreeMap.isSome_getElem?_iff_mem.2
        (hnodes node List.mem_cons_self))
    simp only [Prog.mapList, ends_bind, ends_pure]
    -- a peer that is due is no longer pending afterwards, and nothing puts it back
    have hlost : ∀ s₁ : Sys, s₁.session.pendingPeers[node]? = none →
        ¬ s.session.Retained s₁.session := by
      intro s₁ hnone hret
      rw [hret.pendingPeers, hd] at hnone
      exact absurd hnone (by simp)
    have hgone : ∀ pending : Std.ExtTreeMap NodeId PeerActivationDescriptor,
        (pending.erase node)[node]? = none := fun _ => Std.ExtTreeMap.getElem?_erase_self
    refine (bindPeer_at hs node hd).mono (fun _ s₁ h => ?_) fun _ s₁ h => ?_
    · obtain ⟨hw₁, ⟨-, hnone, hses⟩ | ⟨-, hsome, p, -, -, hses⟩⟩ := h
      · have hdue : s.session.PeerDue (node :: nodes) ↔ s₁.session.PeerDue nodes := by
          rw [hses]
          constructor
          · rintro ⟨n, hn, d', hd', hav⟩
            rcases List.mem_cons.1 hn with rfl | hn
            · obtain rfl : d = d' := Option.some.inj (hd.symm.trans hd')
              exact absurd hav (by simp [hnone])
            · exact ⟨n, hn, d', hd', hav⟩
          · rintro ⟨n, hn, h⟩
            exact ⟨n, List.mem_cons_of_mem _ hn, h⟩
        have hrest := ih (s := s₁) hw₁ fun n hn => by
          rw [hses]; exact hnodes n (List.mem_cons_of_mem _ hn)
        rw [hdue, ← hses]
        exact hrest
      · have hno : ¬ (¬ s.session.PeerDue (node :: nodes) ∧ s.session.Refreshed) := fun h =>
          h.1 ⟨node, List.mem_cons_self, d, hd, hsome⟩
        refine (ends_mapList (I := fun _ _ s' => s'.session.pendingPeers[node]? = none)
          (fun _ n _ _ _ _ h => bindPeer_pending n h) (by rw [hses]; exact hgone _)).mono
          (fun _ s₂ h => ?_) fun _ s₂ h => iff_of_false (hlost _ h) hno
        refine restart_lost (I := fun n => n.pendingPeers[node]? = none) (fun _ _ h => h)
          (fun n' hret h => ?_) h hno
        rw [hret.pendingPeers, hd] at h
        exact absurd h (by simp)
    · obtain ⟨-, hsome, -, i, hses⟩ := h
      refine iff_of_false (hlost _ (by rw [hses]; exact hgone _)) fun h => ?_
      exact h.1 ⟨node, List.mem_cons_self, d, hd, hsome⟩

lemma keepsOutput_due {format : NegotiatedAudioFormat} {buffers : BufferSetDescriptor}
    {io : PortIoDescriptor} (hF : n.format = some format) (hB : n.bufferDescriptor = some buffers)
    (hI : n.ioDescriptor = some io) (hres : Resolvable n.availableMemory buffers io) :
    n.KeepsOutput k m ↔ ¬ ((∃ g, OutputFits k m n format buffers io g) ∧ n.Answers m) := by
  unfold ClientNodeSession.KeepsOutput
  simp only [hF, hB, hI, if_pos hres]

lemma keepsOutput_not_due (h : ¬ n.OutputDue) : n.KeepsOutput k m ↔ n.Refreshed := by
  unfold ClientNodeSession.KeepsOutput
  split
  · rename_i hF hB hI
    rw [if_neg]
    exact fun hres => h ⟨by simp [hF], _, _, hB, hI, hres⟩
  · rfl

lemma retryOutput_not_due (hs : s.world.At m) (h : ¬ s.session.OutputDue) :
    (retryWhen (s.session.bufferDescriptor.isSome && s.session.ioDescriptor.isSome)
      (bindOutput k)).Ends s (fun _ s₁ => s₁.session = s.session ∧ s₁.world.At m)
      (fun _ _ => False) := by
  unfold retryWhen
  split_ifs
  swap
  · exact ⟨rfl, hs⟩
  by_cases hall : s.session.format = none ∨ s.session.bufferDescriptor = none ∨
      s.session.ioDescriptor = none
  · refine (bindOutput_incomplete hall).mono (fun _ s₁ h => ?_) fun _ _ h => h.elim
    rw [h.2]
    exact ⟨rfl, hs⟩
  simp only [not_or, ← ne_eq, Option.ne_none_iff_exists'] at hall
  obtain ⟨⟨format, hF⟩, ⟨buffers, hB⟩, io, hI⟩ := hall
  have hno : ¬ Resolvable s.session.availableMemory buffers io := fun hres =>
    h ⟨by simp [hF], _, _, hB, hI, hres⟩
  refine (bindOutput_at hs hF hB hI).mono (fun _ s₁ h₁ => ?_) fun _ s₁ h₁ => absurd h₁.1 hno
  rcases h₁ with ⟨-, -, hses, hw⟩ | ⟨-, hres, -⟩
  · exact ⟨hses, hw⟩
  · exact absurd hres hno

lemma output_decides (hf : s.session.Fresh) (hs : s.world.At m) :
    (retryWhen (s.session.bufferDescriptor.isSome && s.session.ioDescriptor.isSome)
      (bindOutput k)).Ends s
      (fun _ s₁ => Decides s.session (s.session.KeepsOutput k m ∧
          (s.session.OutputDue ∨ ¬ s.session.PeerDue s.session.pendingPeers.keys))
        (Prog.mapList (bindPeer k) s₁.session.pendingPeers.keys) s₁)
      (fun _ s₁ => s.session.Retained s₁.session ↔ s.session.KeepsOutput k m ∧
        (s.session.OutputDue ∨ ¬ s.session.PeerDue s.session.pendingPeers.keys)) := by
  by_cases hdue : s.session.OutputDue
  · obtain ⟨hform, buffers, io, hB, hI, hres⟩ := hdue
    obtain ⟨format, hF⟩ := Option.isSome_iff_exists.1 hform
    have hiff : (s.session.KeepsOutput k m ∧
        (s.session.OutputDue ∨ ¬ s.session.PeerDue s.session.pendingPeers.keys)) ↔
        ¬ ((∃ g, OutputFits k m s.session format buffers io g) ∧ s.session.Answers m) := by
      rw [keepsOutput_due hF hB hI hres]
      exact and_iff_left (Or.inl ⟨hform, buffers, io, hB, hI, hres⟩)
    simp only [hiff, retryWhen, hB, hI, Option.isSome_some, Bool.and_self, if_true]
    refine (bindOutput_at hs hF hB hI).mono (fun _ s₁ h => ?_) fun _ s₁ h => ?_
    · rcases h with ⟨-, hno, -⟩ | ⟨-, -, hans, g, hg, hid, hses, -⟩
      · exact absurd hres hno
      · refine Keeps.decides (I := fun n => n.output = some g) (Keeps.mapList (keeps_bindPeer
          (fun _ _ h => h) (fun _ _ h => h) fun _ _ h => h) _) (fun _ _ h => h)
          (fun n' hret h => ?_) (by rw [hses]) (not_not.2 ⟨⟨g, hg⟩, hans⟩)
        exact absurd (hf.output g (hret.output.symm.trans h)) (by omega)
    · obtain ⟨-, hses, hwhy⟩ := h
      refine iff_of_true (Retained.allocated hses) ?_
      rintro ⟨⟨g, hg⟩, hans⟩
      rcases hwhy with ⟨hno, -⟩ | ⟨-, hno, -⟩
      · exact hno g hg
      · exact hno hans
  · have hiff : (s.session.KeepsOutput k m ∧
        (s.session.OutputDue ∨ ¬ s.session.PeerDue s.session.pendingPeers.keys)) ↔
        ¬ s.session.PeerDue s.session.pendingPeers.keys ∧ s.session.Refreshed := by
      rw [keepsOutput_not_due hdue, or_iff_right hdue, and_comm]
    simp only [hiff]
    refine (retryOutput_not_due hs hdue).mono (fun _ s₁ h => ?_) fun _ _ h => h.elim
    rw [← h.1]
    exact peers_decide h.2 _ fun n hn => Std.ExtTreeMap.mem_keys.1 hn

lemma retryPending_decides (hf : s.session.Fresh) (hs : s.world.At m) :
    Decides s.session (¬ s.session.TransportDue ∧ s.session.KeepsOutput k m ∧
      (s.session.OutputDue ∨ ¬ s.session.PeerDue s.session.pendingPeers.keys))
      (retryPending k) s := by
  unfold Decides retryPending
  simp only [ends_bind, ends_session, ends_pure]
  -- without a transport that is due, the rest decides
  have hpass : ¬ s.session.TransportDue → ∀ s₁ : Sys, s₁.session = s.session → s₁.world.At m →
      (retryWhen (s₁.session.bufferDescriptor.isSome && s₁.session.ioDescriptor.isSome)
        (bindOutput k)).Ends s₁
      (fun _ s₂ => (Prog.mapList (bindPeer k) s₂.session.pendingPeers.keys).Ends s₂
        (fun _ s₃ => restart.Ends s₃ (fun _ _ => True) (fun _ s₄ => s.session.Retained s₄.session ↔
          ¬ s.session.TransportDue ∧ s.session.KeepsOutput k m ∧
            (s.session.OutputDue ∨ ¬ s.session.PeerDue s.session.pendingPeers.keys)))
        (fun _ s₃ => s.session.Retained s₃.session ↔
          ¬ s.session.TransportDue ∧ s.session.KeepsOutput k m ∧
            (s.session.OutputDue ∨ ¬ s.session.PeerDue s.session.pendingPeers.keys)))
      (fun _ s₂ => s.session.Retained s₂.session ↔
        ¬ s.session.TransportDue ∧ s.session.KeepsOutput k m ∧
          (s.session.OutputDue ∨ ¬ s.session.PeerDue s.session.pendingPeers.keys)) := by
    intro hno s₁ hses hw₁
    simp only [and_iff_right hno]
    rw [← hses]
    exact output_decides (hses ▸ hf) hw₁
  by_cases hdue : s.session.TransportDue
  swap
  · unfold retryWhen at hpass ⊢
    cases hT : s.session.pendingTransport with
    | none =>
      simp only [Option.isSome_none, Bool.false_eq_true, if_false, ends_pure]
      exact hpass hdue s rfl hs
    | some d =>
      simp only [Option.isSome_some, if_true]
      have hno : ¬ (s.session.availableMemory d.activation.memory).isSome := fun h =>
        hdue ⟨d, hT, h⟩
      refine (bindTransport_at hs hT).mono (fun _ s₁ h => ?_) fun _ s₁ h => absurd h.1 hno
      rcases h with ⟨-, -, hses, hw₁⟩ | ⟨-, hsome, -⟩
      · exact hpass hdue s₁ hses hw₁
      · exact absurd hsome hno
  · obtain ⟨d, hT, hav⟩ := hdue
    have hR : ¬ (¬ s.session.TransportDue ∧ s.session.KeepsOutput k m ∧
        (s.session.OutputDue ∨ ¬ s.session.PeerDue s.session.pendingPeers.keys)) := fun h =>
      h.1 ⟨d, hT, hav⟩
    -- the descriptor has been taken, and nothing puts it back
    have hlost : ∀ n, s.session.Retained n → ¬ n.pendingTransport = none := fun n hret h => by
      simp [hret.pendingTransport, hT] at h
    have hout : Keeps (fun n => n.pendingTransport = none) (bindOutput k) := by
      refine keeps_bindOutput (fun _ _ h => h) (fun n h => ?_) fun _ _ h => h
      unfold ClientNodeSession.stopped
      split_ifs <;> exact h
    have hpeers : ∀ nodes, Keeps (fun n => n.pendingTransport = none)
        (Prog.mapList (bindPeer k) nodes) :=
      Keeps.mapList (keeps_bindPeer (fun _ _ h => h) (fun _ _ h => h) fun _ _ h => h)
    simp only [retryWhen, hT, Option.isSome_some, if_true]
    refine (bindTransport_at hs hT).mono (fun _ s₁ h => ?_) fun _ s₁ h => ?_
    · rcases h with ⟨-, hnone, -⟩ | ⟨-, -, -, t, -, -, hses, -⟩
      · exact absurd hav (by simp [hnone])
      · refine ((hout.retryWhen _).ends (by rw [hses])).mono (fun _ s₂ h₂ => ?_) fun _ s₂ h₂ =>
          iff_of_false (fun hret => hlost _ hret h₂) hR
        exact (hpeers _).decides (fun _ _ h => h) hlost h₂ hR
    · obtain ⟨-, ⟨i, hses⟩, -⟩ := h
      exact iff_of_false (fun hret => hlost _ hret (by rw [hses])) hR

lemma memoryAvailable_decides (hf : s.session.Fresh) (hs : s.world.At m) (lease : MemoryLease) :
    Decides s.session ((SessionCommand.memoryAvailable lease).Retains k m s.session)
      (dispatch k (.memoryAvailable lease)) s := by
  have hsame : ∀ n, ({ s.session with availableMemory :=
      s.session.availableMemory.announce lease } : ClientNodeSession).Retained n ↔
      s.session.Retained n := fun n =>
    ⟨fun ⟨h₁, h₂, h₃, h₄, h₅, h₆, h₇, h₈, h₉, h₁₀, h₁₁⟩ =>
      ⟨h₁, h₂, h₃, h₄, h₅, h₆, h₇, h₈, h₉, h₁₀, h₁₁⟩,
    fun ⟨h₁, h₂, h₃, h₄, h₅, h₆, h₇, h₈, h₉, h₁₀, h₁₁⟩ =>
      ⟨h₁, h₂, h₃, h₄, h₅, h₆, h₇, h₈, h₉, h₁₀, h₁₁⟩⟩
  have h := retryPending_decides (k := k) (m := m) (s := { s with session := { s.session with
    availableMemory := s.session.availableMemory.announce lease } })
    (hf.of_eq rfl rfl rfl (Nat.le_refl _)) hs
  unfold Decides at h ⊢
  unfold dispatch
  rw [ends_bind, ends_edit]
  simp only [hsame] at h
  exact h

lemma disconnect_decides : Decides n R (do disconnect; pure ApplyOutcome.applied) s := by
  unfold Decides
  simp only [ends_bind, ends_pure]
  refine (disconnect_ends s).mono (fun _ s₁ h => ?_) fun _ _ h => h.elim
  obtain ⟨w, -, rfl⟩ := h
  exact (restart_disconnected s.session rfl).mono (fun _ _ _ => trivial) fun _ _ h => h.elim

/-- **Refused commands**, branch by branch. -/
theorem dispatch_decides (hf : s.session.Fresh) (hs : s.world.At m) (c : SessionCommand) :
    Decides s.session (c.Retains k m s.session) (dispatch k c) s := by
  cases c with
  | replaceTransport d => exact replaceTransport_decides hf hs d
  | setFormat value => exact setFormat_decides hf hs value
  | useBuffers value => exact useBuffers_decides hf hs value
  | setPortIo value => exact setPortIo_decides hf hs value
  | setPeerActivation d => exact setPeerActivation_decides hf hs d
  | removePeerActivation node => exact removePeerActivation_decides hs node
  | memoryAvailable lease => exact memoryAvailable_decides hf hs lease
  | removeMemory key => exact removeMemory_decides hs key
  | memoryDisconnected | disconnect => exact disconnect_decides
  | setActive active =>
    have h := setActive_decides hs active
    unfold Decides at h ⊢
    unfold dispatch
    simp only [ends_bind, ends_pure]
    exact h
  | setNodeCommand command =>
    have h := setNodeCommand_decides hs command
    unfold Decides at h ⊢
    unfold dispatch
    simp only [ends_bind, ends_pure]
    exact h
  | clearFormat | clearBuffers | clearPortIo =>
    unfold Decides dispatch
    try unfold clearFormat
    simp only [ends_bind, ends_edit, ends_pure]
    exact stop_decides hs (Retained.refl _) (fun _ => ⟨rfl, rfl⟩) trivial

end Commands

end Owner

/-- **Refused commands.** In every state a run reaches, and with a server that does nothing
meanwhile, a command that is refused leaves the configuration as it was exactly when the session
is disconnected or the command meets the condition `SessionCommand.Retains`. -/
theorem Sys.refused_retains_iff (mem : Shm) (counter : Fd → ℕ) (moves : List Move) (k : Kernel)
    (c : SessionCommand) :
    let s := (init mem counter).run moves
    let x := s.exec (.command c) k []
    x.1.isOk = false → (s.session.Retained x.2.session ↔
      s.session.state = .disconnected ∨ c.Retains k s.world.mem s.session) := by
  intro s x
  have hcoh := run_coherent mem counter moves
  have hf : s.session.Fresh := run_fresh mem counter moves
  refine Prog.Ends.result (p := Op.run k (.command c)) (s := s.scripted [])
    (R := fun res s' => res.isOk = false → (s.session.Retained s'.session ↔
      s.session.state = .disconnected ∨ c.Retains k s.world.mem s.session)) ?_
  simp only [Op.run, ends_bind, ends_pure]
  by_cases hd : s.session.state = .disconnected
  · refine (Owner.apply_disconnected (s := s.scripted []) hd c).mono (fun _ s' h hno => ?_)
      fun _ s' h _ => ?_
    · exact absurd hno (by simp [Except.isOk, Except.toBool])
    · rw [h]
      exact iff_of_true (Owner.Retained.refl _) (Or.inl hd)
  · rw [Owner.apply_open (s := s.scripted []) hd hcoh.idle]
    refine (Owner.dispatch_decides (s := s.scripted []) (k := k) (m := s.world.mem) hf ⟨rfl, rfl⟩
      c).mono (fun _ s₁ h => ?_) fun _ s₁ h _ => ?_
    · refine h.mono (fun _ _ _ hno => ?_) fun _ s₂ h₂ _ => ?_
      · exact absurd hno (by simp [Except.isOk, Except.toBool])
      · rw [or_iff_right hd]
        exact h₂
    · rw [or_iff_right hd]
      exact h

/-- A start that is asked for again while the server has triggered the sample session is refused,
and nothing changes. -/
theorem Sys.refused_start_retains :
    let s := (init Sample.mem Sample.counter).run (Sample.start ++ Sample.trigger)
    s.session.Retained (s.exec (.command (.setActive true)) Sample.kernel []).2.session :=
  (refused_retains_iff Sample.mem Sample.counter (Sample.start ++ Sample.trigger) Sample.kernel
    (.setActive true) (by decide +kernel)).2 (Or.inr (by
      show ((init Sample.mem Sample.counter).run
        (Sample.start ++ Sample.trigger)).session.activeRequested = true
      decide +kernel))

/-- A sample session that only lacks buffers is given a set without buffers. The set is refused,
and it is the set the session keeps. -/
theorem Sys.refused_buffers_kept :
    let s := (init Sample.mem Sample.counter).run [Sample.command (.memoryAvailable Sample.lease),
      Sample.command (.replaceTransport Sample.transport), Sample.command (.setFormat Sample.format),
      Sample.command (.setPortIo Sample.io)]
    let x := s.exec (.command (.useBuffers ⟨0, []⟩)) Sample.kernel []
    x.1.isOk = false ∧ s.session.bufferDescriptor = none ∧
      x.2.session.bufferDescriptor = some ⟨0, []⟩ ∧ ¬ s.session.Retained x.2.session := by
  intro s x
  have hkept : x.2.session.bufferDescriptor = some ⟨0, []⟩ := by decide +kernel
  have hnone : s.session.bufferDescriptor = none := by decide +kernel
  refine ⟨by decide +kernel, hnone, hkept, fun h => ?_⟩
  have := h.bufferDescriptor
  rw [hkept, hnone] at this
  exact absurd this (by simp)

end PipewireNative.Node
