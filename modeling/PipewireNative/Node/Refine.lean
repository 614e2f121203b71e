import PipewireNative.Node.Edit

/-!
The commands refine the edits: each helper of the owner, and then `apply` as a whole, ends only
in states that a sequence of edits reaches, and no `unwrap` in it fails.
-/

namespace PipewireNative.Node

open Lib Prog World Sys

namespace Owner

/-! ### Lookups -/

lemma unresolved_resolve (m : OrderedMemory) (id : MemoryId) :
    unresolved (m.resolve id) = .ok (m id).isNone := by
  unfold OrderedMemory.resolve
  cases m id <;> rfl

lemma anyUnresolved_eq (m : OrderedMemory) (ids : List MemoryId) :
    anyUnresolved m ids = .ok (ids.any fun id => (m id).isNone) := by
  induction ids with
  | nil => rfl
  | cons id ids ih =>
    simp only [anyUnresolved, unresolved_resolve, ih, List.any_cons]
    cases (m id).isNone <;> rfl

/-! ### Stopping, starting, and the transport field -/

variable (s : Sys)

theorem stop_ends : stop.Ends s
    (fun _ s' => s'.session = s.session.stopped ∧ Halted s.session.own s.world s'.world)
    (fun e s' => e ≠ .panic ∧ s'.session = s.session ∧
      ∃ r, s.session.own = some r ∧ Refused r s.world s'.world) := by
  unfold stop ClientNodeSession.own
  rw [ends_bind, ends_session]
  cases hT : s.session.transport with
  | none =>
    rw [ends_edit]
    exact ⟨rfl, rfl⟩
  | some t =>
    simp only [ends_bind, ends_outside, ends_edit]
    refine (t.deactivate_ends s.world).mono (fun _ w h => ⟨trivial, h⟩) fun e w h => ?_
    exact ⟨by simp, trivial, t.interval, rfl, h⟩

lemma drop_steps (t : TransportGeneration) (w : World) {ε : Type} :
    Steps (Calm (· = t.interval)) w ((t.drop : Prog World ε Unit) w).2 :=
  (t.drop_ends w).state (fun _ _ h => h.elim Deactivated.steps Refused.steps) fun _ _ h => h.elim

/-- The log entry that goes with a new value of the transport field. -/
def transportNote : Option TransportGeneration → World → Action
  | none, _ => .release
  | some t, w => .install t.id t.interval (w.mem.word (statusOf t.interval) 4)

lemma setTransport_of (c : Option TransportGeneration) {I : World → Prop}
    (hnone : s.session.transport = none → I s.world)
    (hdrop : ∀ t, s.session.transport = some t →
      (t.drop : Prog World SessionError Unit).Ends s.world (fun _ w => I w) (fun _ _ => False)) :
    (setTransport c).Ends s (fun _ s' => ∃ w, I w ∧
      s' = ⟨{ s.session with transport := c }, w.perform (transportNote c w)⟩)
      (fun _ _ => False) := by
  have hset (w : World) (hw : I w) : ∃ w', I w' ∧
      (⟨{ s.session with transport := c }, w.perform (transportNote c w)⟩ : Sys) =
        ⟨{ s.session with transport := c }, w'.perform (transportNote c w')⟩ := ⟨w, hw, rfl⟩
  unfold setTransport
  rw [ends_bind, ends_session]
  cases hT : s.session.transport with
  | none => cases c <;> exact hset s.world (hnone hT)
  | some t =>
    rw [ends_bind, ends_outside]
    refine (hdrop t hT).mono (fun _ w hw => ?_) fun _ _ h => h
    cases c <;> exact hset w hw

theorem setTransport_ends (c : Option TransportGeneration) : (setTransport c).Ends s
    (fun _ s' => ∃ w, Steps (Calm fun r => s.session.own = some r) s.world w ∧
      s' = ⟨{ s.session with transport := c }, w.perform (transportNote c w)⟩)
    (fun _ _ => False) := by
  refine setTransport_of s c (fun _ => .refl) fun t hT => ?_
  refine (t.drop_ends s.world).mono (fun _ w h => ?_) fun _ _ h => h
  refine Steps.mono (h.elim Deactivated.steps Refused.steps) fun a ha => ha.mono ?_
  rintro r rfl
  simp [ClientNodeSession.own, hT]

theorem ensureRunning_refines : ensureRunning.Refines s := by
  unfold Refines ensureRunning
  simp only [ends_bind, ends_session, ends_ite, ends_pure, ends_edit]
  refine ⟨fun _ => .refl, fun hw => ?_⟩
  rw [Bool.not_eq_false] at hw
  refine ⟨fun hr => .single (.unready s hw hr), fun hr => ?_⟩
  rw [Bool.not_eq_false] at hr
  obtain ⟨t, hT⟩ : ∃ t, s.session.transport = some t := by
    simp only [ClientNodeSession.isReady, Bool.and_eq_true] at hr
    exact Option.isSome_iff_exists.1 hr.1.1
  have hown : s.session.own = some t.interval := by simp [ClientNodeSession.own, hT]
  have hcalm : ∀ {w}, Steps (Calm (· = t.interval)) s.world w → Edits s { s with world := w } :=
    fun {w} h => .single (.calm s w (h.mono fun a ha => ha.mono fun r e => by rw [hown, e]))
  rw [hT, ends_unwrap_some, ends_outside]
  refine (t.status_ends s.world).mono (fun st w h => ?_) fun e w h => ⟨by simp, hcalm h.steps⟩
  obtain ⟨hs, hst⟩ := h
  cases st with
  | inactive =>
    simp only [ends_bind, ends_outside, ends_edit]
    refine (t.markReady_ends w).mono (fun _ w' h => ?_) fun e w' h => ⟨by simp, ?_⟩
    · exact .single (.start s t w' hw hr hT (Or.inr (h.head hs)))
    · exact hcalm ((Steps.mono hs fun _ => Reads.calm).trans h)
  | finished =>
    rw [ends_edit]
    exact .single (.start s t w hw hr hT (Or.inl ⟨hs, hst⟩))
  | _ =>
    simp only [ends_bind, ends_raise]
    exact ⟨by simp, hcalm (Steps.mono hs fun _ => Reads.calm)⟩

/-! ### Binding -/

theorem allocateGeneration_ends : allocateGeneration.Ends s
    (fun n s' => n = s.session.nextGeneration ∧
      s' = { s with session := { s.session with nextGeneration := s.session.nextGeneration + 1 } })
    (fun e s' => e ≠ .panic ∧ s' = s) := by
  unfold allocateGeneration
  simp only [ends_bind, ends_session, ends_ite, ends_edit, ends_pure, ends_raise]
  exact ⟨fun _ => ⟨trivial, trivial⟩, fun _ => ⟨by simp, trivial⟩⟩

lemma stopped_pending (s : ClientNodeSession) (p : Option TransportDescriptor) (n : ℕ)
    (t : Option TransportGeneration) :
    { ({ s with pendingTransport := p, nextGeneration := n } : ClientNodeSession).stopped with
      transport := t } =
    { ({ s with pendingTransport := p } : ClientNodeSession).stopped with
      transport := t, nextGeneration := n } := by
  unfold ClientNodeSession.stopped ClientNodeSession.isReady
  split_ifs <;> rfl

variable (k : Kernel)

theorem bindTransport_refines : (bindTransport k).Refines s := by
  unfold Refines bindTransport
  rw [ends_bind, ends_session]
  cases hP : s.session.pendingTransport with
  | none => exact .refl
  | some d =>
    simp only [ends_bind, ends_check, unresolved_resolve, ends_ite, ends_pure,
      ends_edit]
    refine ⟨fun _ => .refl, fun _ => ?_⟩
    let s₀ : Sys := ⟨{ s.session with pendingTransport := none }, s.world⟩
    have h₀ : Edits s s₀ :=
      .single (.book s _ (ClientNodeSession.kept_of_eq rfl (Nat.le_refl _) rfl rfl rfl rfl rfl rfl) rfl rfl)
    let s₁ : Sys :=
      ⟨{ s₀.session with nextGeneration := s.session.nextGeneration + 1 }, s.world⟩
    have h₁ : Edits s s₁ :=
      .single (.book s _ (ClientNodeSession.kept_of_eq rfl (Nat.le_succ _) rfl rfl rfl rfl rfl rfl) rfl rfl)
    refine (allocateGeneration_ends s₀).mono (fun n s' h => ?_) fun e s' h => ⟨h.1, by
      rw [h.2]; exact h₀⟩
    obtain ⟨rfl, rfl⟩ := h
    rw [ends_outside]
    refine (TransportGeneration.bind_ends k _ d _ s.world).mono (fun t w h => ?_) fun e w h => ?_
    · obtain ⟨hid, hgrant, hprobed⟩ := h
      rw [ends_onFail]
      simp only [ends_bind, ends_check]
      split
      · rename_i hdis
        refine (stop_ends { s₁ with world := w }).mono (fun _ s' h => ?_) fun e s' h => ?_
        · obtain ⟨hses, hhalt⟩ := h
          refine (setTransport_ends s' (some t)).mono (fun _ s'' h => ?_) fun _ _ h => h.elim
          obtain ⟨w', hw', rfl⟩ := h
          have hown : s'.session.own = s₀.session.own := by
            rw [hses]
            unfold ClientNodeSession.own ClientNodeSession.stopped
            split_ifs <;> rfl
          rw [hown] at hw'
          rw [Owner.ensureDisjoint_ok] at hdis
          rw [hses]
          show Edits s ⟨{ ({ s₀.session with
            nextGeneration := s.session.nextGeneration + 1 } : ClientNodeSession).stopped with
              transport := some t }, _⟩
          rw [stopped_pending]
          exact h₀.tail (.replace s₀ t w s'.world w' hprobed hhalt hw' hid
            (fun i hi => hdis _ (List.mem_singleton.2 rfl) i hi) hgrant)
        · obtain ⟨hp, hses, r, hown, href⟩ := h
          refine ⟨hp, ?_⟩
          -- the candidate is dropped after the refusal
          have hdrop := drop_steps t s'.world (ε := Empty)
          show Edits s ⟨s'.session, _⟩
          rw [hses]
          refine (h₁.tail (.probe s₁ t.interval w t.isRecord hprobed)).tail
            (.refused _ _ r s'.world _ (ClientNodeSession.kept_of_eq rfl (Nat.le_refl _) rfl rfl rfl rfl rfl rfl) hown
              href (hdrop.mono fun a ha => ha.mono ?_))
          rintro r rfl
          exact t.isRecord
      · refine ⟨by simp, ?_⟩
        have hdrop := drop_steps t w (ε := Empty)
        exact h₁.tail (.probe s₁ t.interval _ t.isRecord (hprobed.tail hdrop))
    · refine ⟨by simp, ?_⟩
      rcases h with h | ⟨r, hr, h⟩
      · exact h₁.tail (.calm s₁ w (h.mono fun _ => Reads.calm))
      · exact h₁.tail (.probe s₁ r w hr h)

/-- The session after generation numbers have been used up and records looked at. -/
def Looked (s s' : Sys) : Prop :=
  ∃ n w, s.session.nextGeneration ≤ n ∧ Steps Reads s.world w ∧
    s' = ⟨{ s.session with nextGeneration := n }, w⟩

variable {s} in
lemma Looked.edits {s' : Sys} (h : Looked s s') : Edits s s' := by
  obtain ⟨n, w, hn, hw, rfl⟩ := h
  refine .tail (.single (.calm s w (hw.mono fun _ => Reads.calm))) (.book _ _ ?_ rfl rfl)
  exact (ClientNodeSession.kept_of_eq rfl hn rfl rfl rfl rfl rfl rfl)

/-- What makes an output fit to be installed. -/
structure Fit (s : ClientNodeSession) (g : OutputGeneration) : Prop where
  sound : g.Sound
  disjoint : ∀ i ∈ g.intervals, ∀ j ∈ s.transportIntervals ++ s.peers.intervals, i.Disjoint j
  grants : ∀ key ∈ g.keys, s.availableMemory.Grants key
  fresh : g.id < s.nextGeneration

theorem outputCandidate_ends (format : NegotiatedAudioFormat) (buffers : BufferSetDescriptor)
    (io : PortIoDescriptor) : (outputCandidate k format buffers io).Ends s
      (fun o s' => Looked s s' ∧ ∀ g, o = some g → Fit s'.session g)
      (fun e s' => e ≠ .panic ∧ Looked s s') := by
  unfold outputCandidate
  simp only [ends_bind, ends_session, ends_check, anyUnresolved_eq, ends_ite,
    ends_pure]
  refine ⟨fun _ => ⟨⟨_, _, Nat.le_refl _, .refl, rfl⟩, by simp⟩, fun _ => ?_⟩
  refine (allocateGeneration_ends s).mono (fun n s' h => ?_) fun e s' h => ⟨h.1, by
    rw [h.2]; exact ⟨_, _, Nat.le_refl _, .refl, rfl⟩⟩
  obtain ⟨rfl, rfl⟩ := h
  rw [ends_outside]
  have looked : ∀ {w}, Steps Reads s.world w → Looked s
      ⟨{ s.session with nextGeneration := s.session.nextGeneration + 1 }, w⟩ :=
    fun {w} h => ⟨_, w, Nat.le_succ _, h, rfl⟩
  refine (OutputGeneration.bind_ends k _ format buffers io _ s.world).mono (fun g w h => ?_)
    fun e w h => ⟨by simp, looked h⟩
  obtain ⟨hs, hbound, hfor, hid⟩ := h
  split
  · rename_i hdis
    refine ⟨looked hs, fun g' hg' => ?_⟩
    cases hg'
    exact ⟨hbound.sound, ensureDisjoint_ok.1 hdis, hfor.grants, by rw [hid]; exact Nat.lt_succ_self _⟩
  · exact ⟨by simp, looked hs⟩

/-- Stopping is an edit, whatever way it ends, also when the intents have changed just before. -/
lemma stop_intend (active : Bool) (command : NodeCommandState) :
    stop.Ends ⟨s.session.intend active command, s.world⟩
      (fun _ s' => Edits s s' ∧ s'.session = (s.session.intend active command).stopped)
      (fun e s' => e ≠ .panic ∧ Edits s s') := by
  refine (stop_ends _).mono (fun _ s' h => ⟨?_, h.1⟩) fun e s' h => ⟨h.1, ?_⟩
  · obtain ⟨ses, w⟩ := s'
    obtain ⟨rfl, hhalt⟩ := h
    exact .single (.halt s _ _ w hhalt)
  · obtain ⟨ses, w⟩ := s'
    obtain ⟨-, rfl, r, hown, href⟩ := h
    exact .single (.refused s _ r w w
      (ClientNodeSession.kept_of_eq rfl (Nat.le_refl _) rfl rfl rfl rfl rfl rfl) hown href .refl)

lemma stop_edits : stop.Ends s
    (fun _ s' => Edits s s' ∧ s'.session = s.session.stopped)
    (fun e s' => e ≠ .panic ∧ Edits s s') :=
  stop_intend s s.session.activeRequested s.session.command

lemma Fit.stopped {s : ClientNodeSession} {g : OutputGeneration} (h : Fit s g) :
    Fit s.stopped g := by
  unfold ClientNodeSession.stopped
  split_ifs <;> exact ⟨h.sound, h.disjoint, h.grants, h.fresh⟩

lemma install_refines {g : OutputGeneration} (hg : Fit s.session g)
    {f : ClientNodeSession → ClientNodeSession} {α : Type} (a : α)
    (hf : ∀ n, ({ n with output := some g } : ClientNodeSession).Kept (f n))
    (hi : ∀ n, (f n).activeRequested = n.activeRequested ∧ (f n).command = n.command) :
    (do stop; edit f; pure a : Owner α).Refines s := by
  unfold Refines
  simp only [ends_bind, ends_edit, ends_pure]
  refine (stop_edits s).mono (fun _ s' h => ?_) fun e s' h => h
  obtain ⟨hed, hses⟩ := h
  have hfit : Fit s'.session g := by rw [hses]; exact hg.stopped
  have hne : s'.session.state ≠ .running := by rw [hses]; exact s.session.stopped_state_ne
  refine (hed.tail (.setOutput s' g hne hfit.sound hfit.disjoint hfit.grants hfit.fresh)).tail
    (.book _ _ (hf _) (hi _).1 (hi _).2)

theorem bindOutput_refines : (bindOutput k).Refines s := by
  unfold Refines bindOutput
  rw [ends_bind, ends_session]
  split
  · rename_i format buffers io _ _ _
    rw [ends_bind]
    refine (outputCandidate_ends s k format buffers io).mono (fun o s' h => ?_)
      fun e s' h => ⟨h.1, h.2.edits⟩
    obtain ⟨hl, hfit⟩ := h
    cases o with
    | none => exact hl.edits
    | some g =>
      have h := install_refines s' (hfit g rfl) (f := fun n => { n with output := some g })
        ApplyOutcome.applied (fun n => (ClientNodeSession.kept_of_eq rfl (Nat.le_refl _) rfl rfl rfl rfl rfl rfl))
        fun n => ⟨rfl, rfl⟩
      exact Prog.Ends.mono h (fun _ _ h => hl.edits.trans h) fun e _ h =>
        ⟨h.1, hl.edits.trans h.2⟩
  · exact .refl

/-! ### Composition -/

section Rules

variable {α β : Type} {s}

lemma refines_pure (a : α) : (pure a : Owner α).Refines s := .refl

lemma Refines.after {p : Owner α} {s' : Sys} (h : Edits s s') (hp : p.Refines s') :
    p.Ends s' (fun _ s'' => Edits s s'') (fun e s'' => e ≠ .panic ∧ Edits s s'') :=
  Prog.Ends.mono hp (fun _ _ h' => h.trans h') fun _ _ h' => ⟨h'.1, h.trans h'.2⟩

lemma Refines.bind {p : Owner β} {f : β → Owner α} (hp : p.Refines s)
    (hf : ∀ b s', (f b).Refines s') : (p >>= f).Refines s := by
  unfold Refines
  rw [ends_bind]
  exact Prog.Ends.mono hp (fun b s' h => (hf b s').after h) fun _ _ h => h

end Rules

theorem bindPeer_ends (node : NodeId) {d : PeerActivationDescriptor}
    (hd : s.session.pendingPeers[node]? = some d) : (bindPeer k node).Ends s
      (fun _ s' => Edits s s' ∧
        ∀ n, n ≠ node → s'.session.pendingPeers[n]? = s.session.pendingPeers[n]?)
      (fun e s' => e ≠ .panic ∧ Edits s s') := by
  unfold bindPeer
  rw [ends_bind, ends_session, hd]
  simp only [ends_bind, ends_unwrap_some, ends_check, unresolved_resolve, ends_ite,
    ends_pure, ends_edit]
  refine ⟨fun _ => ⟨.refl, fun _ _ => trivial⟩, fun _ => ?_⟩
  have herase : ∀ (n : NodeId) (d' : PeerActivationDescriptor),
      (s.session.pendingPeers.erase node)[n]? = some d' →
      s.session.pendingPeers[n]? = some d' := by
    intro n d' h
    rw [Std.ExtTreeMap.getElem?_erase] at h
    split_ifs at h
    exact h
  have hbook : ∀ (n : ℕ) (w : World), s.session.nextGeneration ≤ n →
      Steps Reads s.world w → Edits s ⟨{ s.session with
        pendingPeers := s.session.pendingPeers.erase node, nextGeneration := n }, w⟩ := by
    intro n w hn hw
    refine .tail (.single (.calm s w (hw.mono fun _ => Reads.calm))) (.book _ _ ?_ rfl rfl)
    exact ⟨rfl, hn, rfl, rfl, rfl, rfl, fun h _ => h, fun m d' h => Or.inl (herase m d' h)⟩
  refine (allocateGeneration_ends _).mono (fun n s' h => ?_) fun e s' h => ⟨h.1, by
    rw [h.2]; exact hbook _ _ (Nat.le_refl _) .refl⟩
  obtain ⟨rfl, rfl⟩ := h
  rw [ends_outside]
  refine (PeerActivation.bind_ends k _ d _ s.world).mono (fun p w h => ?_)
    fun e w h => ⟨by simp, hbook _ _ (Nat.le_succ _) h⟩
  obtain ⟨hnode, hgen, hgrant, hw⟩ := h
  split
  · rename_i hdis
    rw [ensureDisjoint_ok] at hdis
    refine ⟨?_, fun n hn => ?_⟩
    · -- the edits insert the peer first and take the descriptor away after it
      let s₁ : Sys := ⟨{ s.session with nextGeneration := s.session.nextGeneration + 1 }, w⟩
      have h₁ : Edits s s₁ := .tail (.single (.calm s w (hw.mono fun _ => Reads.calm)))
        (.book _ _ (ClientNodeSession.kept_of_eq rfl (Nat.le_succ _) rfl rfl rfl rfl rfl rfl) rfl rfl)
      refine .tail (h₁.tail (.insertPeer s₁ node d p hd hnode
        (fun i hi => hdis _ (List.mem_singleton.2 rfl) i hi) hgrant ?_)) (.book _ _ ?_ rfl rfl)
      · rw [hgen]; exact Nat.lt_succ_self _
      · exact ⟨rfl, Nat.le_refl _, rfl, rfl, rfl, rfl, fun h _ => h,
          fun m d' h => Or.inl (herase m d' h)⟩
    · show (s.session.pendingPeers.erase node)[n]? = _
      rw [Std.ExtTreeMap.getElem?_erase, if_neg]
      simpa [Std.LawfulEqCmp.compare_eq_iff_eq] using Ne.symm hn
  · exact ⟨by simp, hbook _ _ (Nat.le_succ _) hw⟩

/-- The pending peers are tried in order; each finds its descriptor still there. -/
theorem bindPeers_refines :
    Refines (Prog.mapList (bindPeer k) s.session.pendingPeers.keys) s := by
  have hord : s.session.pendingPeers.keys.Pairwise (fun a b => compare a b = .lt) :=
    s.session.pendingPeers.ordered_keys
  refine (ends_mapList (I := fun done _ s' => Edits s s' ∧ ∀ n, n ∉ done →
      s'.session.pendingPeers[n]? = s.session.pendingPeers[n]?)
    (fun done node rest _ s' hall h => ?_) ⟨.refl, fun _ _ => rfl⟩).mono
    (fun _ _ h => h.1) fun _ _ h => h
  obtain ⟨hed, hpend⟩ := h
  rw [hall, List.pairwise_append] at hord
  have hfresh : node ∉ done := by
    intro hmem
    have := hord.2.2 node hmem node (by simp)
    simp at this
  obtain ⟨d, hd⟩ : ∃ d, s.session.pendingPeers[node]? = some d := by
    have hmem : node ∈ s.session.pendingPeers := by
      rw [← Std.ExtTreeMap.mem_keys, hall]; simp
    exact ⟨_, Std.ExtTreeMap.getElem?_eq_some_getElem hmem⟩
  refine (bindPeer_ends s' k node (by rw [hpend node hfresh, hd])).mono (fun b s'' h => ?_)
    fun e s'' h => ⟨h.1, hed.trans h.2⟩
  refine ⟨hed.trans h.1, fun n hn => ?_⟩
  simp only [List.mem_append, List.mem_singleton, not_or] at hn
  rw [h.2 n hn.2, hpend n hn.1]

lemma retryWhen_refines {s : Sys} (c : Bool) {p : Owner ApplyOutcome} (hp : p.Refines s) :
    (retryWhen c p).Refines s := by
  unfold retryWhen
  split_ifs
  · exact hp
  · exact refines_pure _

theorem retryPending_refines : (retryPending k).Refines s := by
  unfold retryPending
  refine Refines.bind (p := session) .refl fun s₁ s' => ?_
  refine Refines.bind (retryWhen_refines _ (bindTransport_refines _ k)) fun a s' => ?_
  refine Refines.bind (p := session) .refl fun s₂ s' => ?_
  refine Refines.bind (retryWhen_refines _ (bindOutput_refines _ k)) fun b s' => ?_
  unfold Refines
  simp only [ends_bind, ends_session, ends_pure]
  exact bindPeers_refines s' k

/-! ### Commands -/

section Stopped

variable {s}

lemma doIf_refines (c : Bool) {p : Owner Unit} (hp : p.Refines s) : (doIf c p).Refines s := by
  unfold doIf
  split_ifs
  · exact hp
  · exact refines_pure _

lemma stop_then {α : Type} {p : Owner α}
    (hp : ∀ s' : Sys, s'.session = s.session.stopped → p.Refines s') :
    (do stop; p : Owner α).Refines s := by
  unfold Refines
  rw [ends_bind]
  exact (stop_edits s).mono (fun _ s' h => (hp s' h.2).after h.1) fun _ _ h => h

lemma stop_clear {f : ClientNodeSession → ClientNodeSession}
    (hf : ∀ n : ClientNodeSession, n.state ≠ .running →
      ({ n with output := none } : ClientNodeSession).Kept (f n))
    (hi : ∀ n, (f n).activeRequested = n.activeRequested ∧ (f n).command = n.command) :
    (do stop; edit f : Owner Unit).Refines s := by
  refine stop_then fun s' hs' => ?_
  have hne : s'.session.state ≠ .running := by rw [hs']; exact s.session.stopped_state_ne
  exact .tail (.single (.clearOutput s' hne)) (.book _ _ (hf _ hne) (hi _).1 (hi _).2)

end Stopped

theorem disconnect_ends : disconnect.Ends s (fun _ s' => Closed s s') (fun _ _ => False) := by
  unfold disconnect
  simp only [ends_bind, ends_attempt]
  have key : ∀ s₁ : Sys, s₁.session.transport = s.session.transport →
      s₁.session.disconnected = s.session.disconnected →
      Steps (Calm fun r => s.session.own = some r) s.world s₁.world →
      (setTransport none).Ends s₁ (fun _ s₂ => (edit (·.disconnected)).Ends s₂
        (fun _ s₃ => Closed s s₃) (fun _ _ => False)) (fun _ _ => False) := by
    intro s₁ ht hd hw
    refine (setTransport_ends s₁ none).mono (fun _ s₂ h => ?_) fun _ _ h => h.elim
    obtain ⟨w, hw', rfl⟩ := h
    rw [ends_edit]
    have hown : s₁.session.own = s.session.own := by unfold ClientNodeSession.own; rw [ht]
    rw [hown] at hw'
    have he : ({ s₁.session with transport := none } : ClientNodeSession).disconnected
        = s.session.disconnected := by rw [← hd]; rfl
    rw [he]
    exact ⟨w, hw.trans hw', rfl⟩
  refine (stop_ends s).mono (fun _ s₁ h => key s₁ ?_ ?_ h.2.steps) fun e s₁ h => key s₁ ?_ ?_ ?_
  · rw [h.1]; unfold ClientNodeSession.stopped; split_ifs <;> rfl
  · rw [h.1]; unfold ClientNodeSession.stopped; split_ifs <;> rfl
  · rw [h.2.1]
  · rw [h.2.1]
  · obtain ⟨-, -, r, hown, href⟩ := h
    exact href.steps.mono fun a ha => ha.mono fun r' e => by rw [hown, e]

theorem removeMemory_refines (key : MemoryKey) : (removeMemory key).Refines s := by
  unfold removeMemory
  refine Refines.bind (p := session) .refl fun _ s₁ => ?_
  refine Refines.bind (doIf_refines _ (stop_then fun s₂ hs₂ => ?_)) fun _ s₂ => ?_
  · refine Prog.Ends.mono (setTransport_ends s₂ none) (fun _ s₃ h => ?_) fun _ _ h => h.elim
    obtain ⟨w, hw, rfl⟩ := h
    refine .single (.release s₂ w ?_ hw)
    rw [hs₂]
    exact s₁.session.stopped_state_ne
  refine Refines.bind (p := session) .refl fun _ s₃ => ?_
  refine Refines.bind (doIf_refines _ (stop_then fun s₄ hs₄ => ?_)) fun _ s₄ => ?_
  · refine .single (.clearOutput s₄ ?_)
    rw [hs₄]
    exact s₃.session.stopped_state_ne
  refine .single (.removePeers s₄ _ fun node p h => ?_)
  simp only [PeerSet.removeMemory, Std.ExtTreeMap.getElem?_filter', Option.filter_eq_some_iff] at h
  exact h.1

lemma book_refines {α : Type} {f : ClientNodeSession → ClientNodeSession} {p : Owner α}
    (hf : s.session.Kept (f s.session))
    (hi : (f s.session).activeRequested = s.session.activeRequested ∧
      (f s.session).command = s.session.command)
    (hp : p.Refines ⟨f s.session, s.world⟩) : (do edit f; p : Owner α).Refines s := by
  unfold Refines
  rw [ends_bind, ends_edit]
  exact hp.after (.single (.book s _ hf hi.1 hi.2))

theorem clearFormat_refines : clearFormat.Refines s :=
  stop_clear (fun _ hn => ⟨rfl, Nat.le_refl _, rfl, rfl, rfl, rfl, fun _ h => absurd h hn,
    fun _ _ h => Or.inl h⟩) fun _ => ⟨rfl, rfl⟩

theorem setFormat_refines (value : NegotiatedAudioFormat) : (setFormat k value).Refines s := by
  unfold setFormat
  refine Refines.bind (p := session) .refl fun n s₁ => ?_
  refine book_refines _ ⟨rfl, Nat.le_refl _, rfl, rfl, rfl, rfl, fun _ _ => rfl,
    fun _ _ h => Or.inl h⟩ ⟨rfl, rfl⟩ ?_
  refine Refines.bind (doIf_refines _ (stop_clear ?_ ?_)) fun _ s₂ => bindOutput_refines s₂ k
  · exact fun n _ => ClientNodeSession.kept_of_eq rfl (Nat.le_refl _) rfl rfl rfl rfl rfl rfl
  · exact fun n => ⟨rfl, rfl⟩

theorem buffersPending_refines (value : BufferSetDescriptor) :
    (buffersPending k value).Refines s := by
  unfold buffersPending
  refine Refines.bind (p := session) .refl fun n s₁ => ?_
  split
  · rename_i format io _ _
    refine Refines.bind ?_ fun _ _ => refines_pure _
    exact (outputCandidate_ends s₁ k format value io).mono (fun _ _ h => h.1.edits)
      fun _ _ h => ⟨h.1, h.2.edits⟩
  · exact refines_pure _

theorem useBuffers_refines (value : BufferSetDescriptor) : (useBuffers k value).Refines s := by
  have hkept : ∀ (n : ClientNodeSession) (o : Option PortIoDescriptor),
      n.Kept { n with ioDescriptor := o, bufferDescriptor := some value } := fun n _ =>
    ClientNodeSession.kept_of_eq rfl (Nat.le_refl _) rfl rfl rfl rfl rfl rfl
  unfold useBuffers
  refine Refines.bind (p := session) .refl fun n s₁ => ?_
  split_ifs
  · refine Refines.bind (buffersPending_refines s₁ k value) fun pending s₂ => ?_
    refine stop_then fun s₃ hs₃ => Refines.bind ?_ fun _ _ => refines_pure _
    have hne : s₃.session.state ≠ .running := by rw [hs₃]; exact s₂.session.stopped_state_ne
    exact .tail (.single (.clearOutput s₃ hne)) (.book _ _ (hkept _ _) rfl rfl)
  · exact book_refines s₁ (hkept _ _) ⟨rfl, rfl⟩ (bindOutput_refines _ k)

theorem setPortIo_refines (value : PortIoDescriptor) : (setPortIo k value).Refines s := by
  have hkept : ∀ n : ClientNodeSession, n.Kept { n with ioDescriptor := some value } := fun n =>
    ClientNodeSession.kept_of_eq rfl (Nat.le_refl _) rfl rfl rfl rfl rfl rfl
  unfold setPortIo
  refine Refines.bind (p := session) .refl fun n s₁ => ?_
  split
  · rename_i format buffers _ _
    unfold Refines
    rw [ends_bind]
    refine (outputCandidate_ends s₁ k format buffers value).mono (fun o s₂ h => ?_)
      fun _ _ h => ⟨h.1, h.2.edits⟩
    obtain ⟨hl, hfit⟩ := h
    cases o with
    | some g =>
      exact (install_refines s₂ (hfit g rfl) (f := fun n =>
        { n with ioDescriptor := some value, output := some g }) ApplyOutcome.applied
        (fun n => hkept _) fun n => ⟨rfl, rfl⟩).after hl.edits
    | none =>
      refine Refines.after hl.edits (stop_then fun s₃ hs₃ => Refines.bind ?_
        fun _ _ => refines_pure _)
      have hne : s₃.session.state ≠ .running := by rw [hs₃]; exact s₂.session.stopped_state_ne
      exact .tail (.single (.clearOutput s₃ hne)) (.book _ _ (hkept _) rfl rfl)
  · exact book_refines s₁ (hkept _) ⟨rfl, rfl⟩ (refines_pure _)

theorem setPeerActivation_refines (value : PeerActivationDescriptor) :
    (setPeerActivation k value).Refines s := by
  unfold setPeerActivation
  refine Refines.bind (p := session) .refl fun n s₁ => ?_
  split_ifs
  · exact ⟨by simp, .refl⟩
  · refine book_refines s₁ ⟨rfl, Nat.le_refl _, rfl, rfl, rfl, rfl, fun h _ => h, fun m d h => ?_⟩
      ⟨rfl, rfl⟩ ?_
    · rw [Std.ExtTreeMap.getElem?_insert] at h
      split_ifs at h with hm
      · rw [Std.LawfulEqCmp.compare_eq_iff_eq] at hm
        cases h
        exact Or.inr hm
      · exact Or.inl h
    · refine (bindPeer_ends _ k value.node (d := value) ?_).mono (fun _ _ h => h.1) fun _ _ h => h
      exact Std.ExtTreeMap.getElem?_insert_self

theorem setActive_refines (active : Bool) : (setActive active).Refines s := by
  unfold Refines setActive
  rw [ends_bind, ends_edit]
  cases active with
  | true =>
    refine (ensureRunning_refines _).after (.single (.intent s true s.session.command fun h => ?_))
    simp only [ClientNodeSession.wanted, ClientNodeSession.intend, Bool.and_eq_true] at h ⊢
    exact ⟨trivial, h.2⟩
  | false => exact (stop_intend s false s.session.command).mono (fun _ _ h => h.1) fun _ _ h => h

theorem setNodeCommand_refines (command : NodeCommandState) :
    (setNodeCommand command).Refines s := by
  unfold Refines setNodeCommand
  rw [ends_bind, ends_edit]
  cases command with
  | start =>
    refine (ensureRunning_refines _).after
      (.single (.intent s s.session.activeRequested .start fun h => ?_))
    simp only [ClientNodeSession.wanted, ClientNodeSession.intend, Bool.and_eq_true] at h ⊢
    exact ⟨h.1, rfl⟩
  | pause =>
    exact (stop_intend s s.session.activeRequested .pause).mono (fun _ _ h => h.1) fun _ _ h => h
  | suspend =>
    simp only [clearFormat, ends_bind, ends_edit]
    refine (stop_intend s s.session.activeRequested .suspend).mono (fun _ s₁ h => ?_)
      fun _ _ h => h
    have hne : s₁.session.state ≠ .running := by
      rw [h.2]; exact ClientNodeSession.stopped_state_ne _
    refine (h.1.tail (.clearOutput s₁ hne)).tail (.book _ _ ?_ rfl rfl)
    exact ⟨rfl, Nat.le_refl _, rfl, rfl, rfl, rfl, fun _ h => absurd h hne, fun _ _ h => Or.inl h⟩

end Owner

def SessionCommand.closes : SessionCommand → Bool
  | .memoryDisconnected | .disconnect => true
  | _ => false

/-- What a command does to the leases, before anything else. -/
def SessionCommand.leases : SessionCommand → OrderedMemory → OrderedMemory
  | .memoryAvailable lease, m => m.announce lease
  | .removeMemory key, m => m.retire key
  | _, m => m

/-- The session after a restart that went through: running when both intents ask for it and
everything is bound. -/
def ClientNodeSession.settled (s : ClientNodeSession) : ClientNodeSession :=
  if s.refreshState.wanted && s.refreshState.isReady then { s.refreshState with state := .running }
  else s.refreshState

namespace Sys

/-- The system with the leases a command leaves. -/
def prepare (s : Sys) (c : SessionCommand) : Sys :=
  ⟨{ s.session with availableMemory := c.leases s.session.availableMemory }, s.world⟩

/-- What a command leaves: a session that is disconnected or inside a callback does not change at
all; otherwise it is torn down or edited, from the session with its leases updated. -/
inductive Applied (c : SessionCommand) (s : Sys) : Sys → Prop
  | ignored : s.session.state = .disconnected ∨ s.session.state = .cycleClaimed → Applied c s s
  | closed {s' : Sys} : c.closes → Closed s s' → Applied c s s'
  | edited {s' : Sys} : c.closes = false → s.session.state ≠ .disconnected →
      Edits (s.prepare c) s' → Applied c s s'

/-- What a command leaves that went through: edits, and then a restart. -/
def Settled (c : SessionCommand) (s s' : Sys) : Prop :=
  s.session.state ≠ .disconnected ∧
    ∃ s₁, Edits (s.prepare c) s₁ ∧ Edits s₁ s' ∧ s'.session = s₁.session.settled

end Sys

namespace Owner

variable (s : Sys) (k : Kernel)

theorem dispatch_refines {c : SessionCommand} (hc : c.closes = false) : (dispatch k c).Ends s
    (fun _ s' => Edits (s.prepare c) s') (fun e s' => e ≠ .panic ∧ Edits (s.prepare c) s') := by
  have hkept : ∀ n m : ClientNodeSession, m.pendingPeers = n.pendingPeers →
      m = { n with pendingTransport := m.pendingTransport, ioDescriptor := m.ioDescriptor,
                   bufferDescriptor := m.bufferDescriptor } → n.Kept m := by
    intro n m _ h
    rw [h]
    exact ClientNodeSession.kept_of_eq rfl (Nat.le_refl _) rfl rfl rfl rfl rfl rfl
  cases c with
  | replaceTransport value =>
    exact book_refines s (hkept _ _ rfl rfl) ⟨rfl, rfl⟩ (bindTransport_refines _ k)
  | setFormat value => exact setFormat_refines s k value
  | clearFormat => exact Refines.bind (clearFormat_refines s) fun _ _ => refines_pure _
  | useBuffers value => exact useBuffers_refines s k value
  | clearBuffers =>
    refine stop_then fun s₁ hs₁ => Refines.bind ?_ fun _ _ => refines_pure _
    have hne : s₁.session.state ≠ .running := by rw [hs₁]; exact s.session.stopped_state_ne
    exact .tail (.single (.clearOutput s₁ hne)) (.book _ _ (hkept _ _ rfl rfl) rfl rfl)
  | setPortIo value => exact setPortIo_refines s k value
  | clearPortIo =>
    refine stop_then fun s₁ hs₁ => Refines.bind ?_ fun _ _ => refines_pure _
    have hne : s₁.session.state ≠ .running := by rw [hs₁]; exact s.session.stopped_state_ne
    exact .tail (.single (.clearOutput s₁ hne)) (.book _ _ (hkept _ _ rfl rfl) rfl rfl)
  | setPeerActivation value => exact setPeerActivation_refines s k value
  | removePeerActivation node =>
    refine .tail (.single (.removePeers s (s.session.peers.erase node) fun m p h => ?_))
      (.book _ _ ⟨rfl, Nat.le_refl _, rfl, rfl, rfl, rfl, fun h _ => h, fun m d h => Or.inl ?_⟩
        rfl rfl)
    · rw [Std.ExtTreeMap.getElem?_erase] at h
      split_ifs at h
      exact h
    · rw [Std.ExtTreeMap.getElem?_erase] at h
      split_ifs at h
      exact h
  | memoryAvailable lease => exact retryPending_refines (s.prepare (.memoryAvailable lease)) k
  | removeMemory key =>
    exact Refines.bind (removeMemory_refines (s.prepare (.removeMemory key)) key)
      fun _ _ => refines_pure ApplyOutcome.applied
  | setActive active => exact Refines.bind (setActive_refines s active) fun _ _ => refines_pure _
  | setNodeCommand command =>
    exact Refines.bind (setNodeCommand_refines s command) fun _ _ => refines_pure _
  | memoryDisconnected | disconnect => exact absurd hc (by simp [SessionCommand.closes])

theorem restart_refines : restart.Refines s := by
  unfold restart
  refine Refines.bind (p := edit _) (.single (.refresh s)) fun _ s₁ => ?_
  refine Refines.bind (p := session) .refl fun _ s₂ => ?_
  exact doIf_refines _ (ensureRunning_refines s₂)

lemma ensureRunning_settles (hw : s.session.wanted) (hr : s.session.isReady) :
    ensureRunning.Ends s (fun _ s' => s'.session = { s.session with state := .running })
      (fun _ _ => True) := by
  obtain ⟨t, hT⟩ : ∃ t, s.session.transport = some t := by
    simp only [ClientNodeSession.isReady, Bool.and_eq_true] at hr
    exact Option.isSome_iff_exists.1 hr.1.1
  have hun : unwrap s.session.transport = unwrap (some t) := by rw [hT]
  unfold ensureRunning
  rw [ends_bind, ends_session, if_neg (by simp [hw]), if_neg (by simp [hr]), hun]
  simp only [ends_bind, ends_unwrap_some, ends_outside]
  refine (t.status_ends s.world).mono (fun st w _ => ?_) fun _ _ _ => trivial
  cases st with
  | inactive =>
    simp only [ends_bind, ends_outside, ends_edit]
    exact (t.markReady_ends w).mono (fun _ _ _ => trivial) fun _ _ _ => trivial
  | finished =>
    rw [ends_edit]
  | _ => simp only [ends_bind, ends_raise]

theorem restart_settles : restart.Ends s (fun _ s' => s'.session = s.session.settled)
    (fun _ _ => True) := by
  unfold restart ClientNodeSession.settled doIf
  simp only [ends_bind, ends_edit, ends_session, ends_ite, ends_pure]
  refine ⟨fun h => ?_, fun h => (if_neg h).symm⟩
  have h' := h
  rw [Bool.and_eq_true] at h'
  exact (ensureRunning_settles ⟨s.session.refreshState, s.world⟩ h'.1 h'.2).mono
    (fun _ s' hs => by rw [if_pos h, hs]) fun _ _ _ => trivial

/-- A restart of a session that has been torn down does nothing. -/
lemma restart_disconnected {s : Sys} (n : ClientNodeSession) (h : s.session = n.disconnected) :
    restart.Ends s (fun _ s' => s' = s) (fun _ _ => False) := by
  have hready : s.session.refreshState.isReady = false := by
    rw [h]; rfl
  have hsame : s.session.refreshState = s.session := by
    rw [h]; rfl
  unfold restart doIf
  simp only [ends_bind, ends_edit, ends_session, hready, Bool.and_false, Bool.false_eq_true,
    if_false, ends_pure]
  rw [hsame]

/-- **A command closes the session or is a sequence of edits.** -/
theorem apply_ends (c : SessionCommand) : (apply k c).Ends s
    (fun _ s' => Applied c s s' ∧ (c.closes = false → Settled c s s'))
    (fun e s' => e ≠ .panic ∧ Applied c s s') := by
  have run : s.session.state ≠ .disconnected → (do
      let outcome ← dispatch k c
      restart
      pure outcome : Owner ApplyOutcome).Ends s
      (fun _ s' => Applied c s s' ∧ (c.closes = false → Settled c s s'))
      (fun e s' => e ≠ .panic ∧ Applied c s s') := by
    intro hst
    simp only [ends_bind, ends_pure]
    cases hc : c.closes with
    | true =>
      have hdis : (dispatch k c).Ends s (fun _ s' => Closed s s') (fun _ _ => False) := by
        cases c <;> simp only [SessionCommand.closes, Bool.false_eq_true] at hc
        all_goals
          simp only [dispatch, ends_bind, ends_pure]
          exact disconnect_ends s
      refine hdis.mono (fun _ s₁ h => ?_) fun _ _ h => h.elim
      obtain ⟨w, hw, rfl⟩ := h
      refine (restart_disconnected s.session rfl).mono (fun _ s₂ h => ⟨?_, by simp⟩)
        fun _ _ h => h.elim
      rw [h]
      exact .closed hc ⟨w, hw, rfl⟩
    | false =>
      refine (dispatch_refines s k hc).mono (fun _ s₁ h => ?_) fun e s₁ h =>
        ⟨h.1, .edited hc hst h.2⟩
      refine ((restart_refines s₁).and (restart_settles s₁)).mono (fun _ s₂ h' => ?_)
        fun e s₂ h' => ⟨h'.1.1, .edited hc hst (h.trans h'.1.2)⟩
      exact ⟨.edited hc hst (h.trans h'.1), fun _ => ⟨hst, s₁, h, h'.1, h'.2⟩⟩
  unfold apply
  rw [ends_bind, ends_session]
  split
  · rename_i hst
    rw [ends_ite]
    refine ⟨fun hc => ⟨.ignored (Or.inl hst), ?_⟩, fun _ => ⟨by simp, .ignored (Or.inl hst)⟩⟩
    simp [hc, SessionCommand.closes]
  · rename_i hst
    exact ⟨by simp, .ignored (Or.inr hst)⟩
  · rename_i hst _
    exact run hst

end Owner

end PipewireNative.Node
