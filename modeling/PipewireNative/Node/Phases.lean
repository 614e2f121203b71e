import PipewireNative.Node.Wake

/-!
A wake in phases. A wake that claims a cycle opens it, processes it, reports its result and ends it
with one exchange; what follows the exchange is the triggering of the peers, or the way out of a
cycle that went wrong. `Sys.Phases` names the worlds between the phases, so that each phase can be
described on its own.
-/

namespace PipewireNative.Node

open Lib Lib.Word Prog World

/-- The errors of a cycle itself: of the callback, of the checks of the cycle and its buffers, and
of the finish clock. -/
def SessionError.isFault : SessionError → Bool
  | .callback _ | .callbackPanicked | .cycle _ | .port _ | .finishClockPanicked => true
  | _ => false

namespace World

/-- Nothing but loads of the record in `r`, exchanges of its status that fail, taking it out of
scheduling, and draining an eventfd. -/
def Idle (r : MemoryInterval) : Action → Prop
  | .load _ l n _ => r.Covers l n
  | .exchange _ l expected _ seen => seen ≠ expected ∧ l = statusOf r
  | .swap _ l desired _ => l = statusOf r ∧ desired = ActivationStatus.inactive.code
  | .drain _ _ => True
  | _ => False

/-- The next access moves the status word of the record in `r` from `a` to `b`. -/
def Shifts (r : MemoryInterval) (a b : ActivationStatus) (w w' : World) : Prop :=
  w.interfere.mem.word (statusOf r) 4 = a.code ∧
    w' = w.interfere.perform (.exchange .status (statusOf r) a.code b.code a.code)

/-- The next access finds another status word than `a` and leaves it. -/
def Misses (r : MemoryInterval) (a b : ActivationStatus) (w w' : World) : Prop :=
  w.interfere.mem.word (statusOf r) 4 ≠ a.code ∧
    w' = w.interfere.perform (.exchange .status (statusOf r) a.code b.code
      (w.interfere.mem.word (statusOf r) 4))

def stored (w : World) (f : Field) (l : Addr) (bs : List UInt8) : World :=
  w.interfere.perform (.store f l bs)

lemma Misses.steps {r : MemoryInterval} {a b : ActivationStatus} {w w' : World}
    (h : Misses r a b w w') : Steps (Idle r) w w' := by
  obtain ⟨hne, rfl⟩ := h
  exact (steps_interfere _ w).tail (.own _ _ rfl ⟨hne, rfl⟩)

end World

/-! ### The phases of a cycle -/

/-- A cycle has been claimed on the record of `t`, whose version was the one supported, and its
awake time stored. -/
def Opened (t : TransportGeneration) (awakeNs : ℕ) (w w' : World) : Prop :=
  ∃ w₁ w₂, Steps (Idle t.interval) w w₁ ∧ w₁.mem.word (versionOf t.interval) 4 = 1 ∧
    Shifts t.interval .triggered .awake w₁ w₂ ∧
    w' = w₂.stored .awakeTime (t.activation.at_ Abi.awakeTime) (leBytes 8 awakeNs)

/-- The world after the result and the finish time of a cycle have been stored. -/
def TransportGeneration.reported (t : TransportGeneration) (status : ℤ) (finishNs : ℕ)
    (w : World) : World :=
  (w.stored .processResult (t.activation.at_ Abi.state0Status) (leBytes 4 (ofI32 status))).stored
    .finishTime (t.activation.at_ Abi.finishTime) (leBytes 8 finishNs)

/-- A cycle has been opened, processed and reported; the exchange that ends it comes next. -/
def Ran (t : TransportGeneration) (g : OutputGeneration) (wake : Owner.Wake) (w : World)
    (result : Except SessionError (Option PublishedOutput)) (finishNs : ℕ) (w' : World) : Prop :=
  ∃ p w₁ w₂ status, Opened t wake.awakeNs w w₁ ∧ g.process wake.callback w₁ = (p, w₂) ∧
    TransportGeneration.finishResult wake.awakeNs wake.finishTime
      (TransportGeneration.cycleResult p).1 (TransportGeneration.cycleResult p).2 =
        (result, status, finishNs) ∧
    w' = t.reported status finishNs w₂

/-- The world after the rollback that follows a finish clock that panicked. -/
def OutputGeneration.unwound (g : OutputGeneration) (e : SessionError) (w : World) : World :=
  if e = .finishClockPanicked then (g.abortPublished w).2 else w

/-- The world after the transport has been dropped, which deactivates it. -/
def TransportGeneration.dropped (t : TransportGeneration) (w : World) : World :=
  (t.deactivate w).2

/-- The ways through a wake, by how far its cycle came. -/
inductive Sys.Phases (k : Kernel) (wake : Owner.Wake) (s : Sys) :
    Except Unwind WakeOutcome → Sys → Prop
  | ignored (r : Except Unwind WakeOutcome) :
      (∀ e, r = .error (.error e) → e.isFault = false) → r ≠ .error .panic →
      (∀ t, s.session.transport = some t → t.id ≠ wake.generation) → Phases k wake s r s
  | unclaimed (t : TransportGeneration) (r : Except Unwind WakeOutcome) (st : SessionState)
      (w : World) : s.session.transport = some t →
      (∀ e, r = .error (.error e) → e.isFault = false) → Steps (Idle t.interval) s.world w →
      t.id = wake.generation → r ≠ .error .panic →
      (st = s.session.state ∨ s.session.state = .running ∧ st = .failed ∧
        (∃ g, s.session.output = some g) ∧ ∃ e, r = .error e) →
      Phases k wake s r ⟨{ s.session with state := st }, w⟩
  | unfinished (t : TransportGeneration) (g : OutputGeneration)
      (result : Except SessionError (Option PublishedOutput)) (ns : ℕ) (e : ActivationError)
      (w₁ w₂ w₃ : World) : s.session.transport = some t → s.session.output = some g →
      Ran t g wake s.world result ns w₁ → Misses t.interval .awake .finished w₁ w₂ →
      Steps (Idle t.interval) w₂ w₃ → t.id = wake.generation → s.session.state = .running →
      Phases k wake s (.error (.error (.activation e))) ⟨{ s.session with state := .failed }, w₃⟩
  | triggered (t : TransportGeneration) (g : OutputGeneration) (v : Option PublishedOutput) (ns : ℕ)
      (o : WakeOutcome) (w₁ w₂ w₃ : World) : s.session.transport = some t →
      s.session.output = some g → Ran t g wake s.world (.ok v) ns w₁ →
      Shifts t.interval .awake .finished w₁ w₂ →
      s.session.peers.triggerAll k ns w₂ = (.ok (), w₃) →
      t.id = wake.generation → s.session.state = .running →
      Phases k wake s (.ok o) ⟨{ s.session with state := .running }, w₃⟩
  | untriggered (t : TransportGeneration) (g : OutputGeneration) (v : Option PublishedOutput)
      (ns : ℕ) (e : SessionError) (w₁ w₂ w₃ : World) : s.session.transport = some t →
      s.session.output = some g → Ran t g wake s.world (.ok v) ns w₁ →
      Shifts t.interval .awake .finished w₁ w₂ →
      s.session.peers.triggerAll k ns w₂ = (.error e, w₃) →
      t.id = wake.generation → s.session.state = .running →
      Phases k wake s (.error (.error e)) ⟨{ s.session with state := .failed }, t.dropped w₃⟩
  | faulted (t : TransportGeneration) (g : OutputGeneration) (e : SessionError) (ns : ℕ)
      (w₁ w₂ : World) : s.session.transport = some t → s.session.output = some g →
      Ran t g wake s.world (.error e) ns w₁ → Shifts t.interval .awake .finished w₁ w₂ →
      t.id = wake.generation → s.session.state = .running →
      Phases k wake s (.error (.error e))
        ⟨{ s.session with state := .failed }, t.dropped (g.unwound e w₂)⟩

/-! ### The accesses -/

section Accesses

variable (t : TransportGeneration) {v : ActivationView} {w : World}

lemma ActivationView.transition_shifts (v : ActivationView) (a b : ActivationStatus) :
    (v.transition a b).Ends w (fun _ w' => Shifts v.region.interval a b w w')
      (fun _ w' => Misses v.region.interval a b w w') := by
  unfold transition
  simp only [ends_bind, ends_compareExchange, ends_ite, ends_pure,
    ends_ofExcept, ends_fail]
  refine ⟨fun h => ⟨h, ?_⟩, fun h => ?_⟩
  · rw [h]; rfl
  · split <;> exact ⟨h, rfl⟩

lemma TransportGeneration.activationView_idle : t.activationView.Ends w
    (fun v w' => v.region = t.activation ∧ Steps (Idle t.interval) w w' ∧
      w'.mem.word (versionOf t.interval) 4 = 1)
    (fun _ w' => Steps (Idle t.interval) w w') := by
  have hptr := t.activation.ptr_ne
  have hstep : Steps (Idle t.interval) w (w.interfere.perform
      (.load .serverVersion (t.activation.at_ Abi.serverVersion) 4
        (w.interfere.mem.word (t.activation.at_ Abi.serverVersion) 4))) :=
    (steps_interfere _ w).tail (.own _ _ rfl t.isRecord.covers_version)
  unfold activationView ActivationView.fromRawParts
  rw [if_neg hptr]
  split_ifs
  · simp only [ends_mapErr, ends_bind, ends_load, ends_failIf, ends_pure]
    exact ⟨fun _ => hstep, fun h => ⟨trivial, hstep, not_not.mp h⟩⟩
  · exact .refl
  · exact .refl

lemma TransportGeneration.does_deactivate : Does (Idle t.interval) t.deactivate := by
  intro w
  refine ends_state.1 ?_
  unfold deactivate
  simp only [ends_bind, ends_mapErr]
  refine t.activationView_idle.mono (fun v w₁ h => ?_) fun _ _ h => h
  have hat : v.at_ Abi.status = statusOf t.interval := by rw [ActivationView.at_, h.1]; rfl
  simp only [ActivationView.deactivate, ends_bind, ends_swap, ends_ofExcept]
  have hs := (h.2.1.trans (steps_interfere _ w₁)).tail (.own _ _ rfl (by exact ⟨hat, rfl⟩) :
    Step (Idle t.interval) w₁.interfere (w₁.interfere.perform (.swap .status (v.at_ Abi.status)
      ActivationStatus.inactive.code (w₁.interfere.mem.word (v.at_ Abi.status) 4))))
  split <;> exact hs

lemma TransportGeneration.dropped_steps (w : World) :
    Steps (Idle t.interval) w (t.dropped w) := t.does_deactivate w

lemma EventFd.does_drain_idle {r : MemoryInterval} (k : Kernel) (fd : Fd) :
    Does (Idle r) (EventFd.drain k fd) := by
  intro w
  unfold EventFd.drain
  split
  · exact steps_interfere _ w
  · split_ifs
    · exact steps_interfere _ w
    · exact (steps_interfere _ w).tail (.own _ _ trivial trivial)

end Accesses

/-! ### One wake -/

section Claim

variable {t : TransportGeneration} {g : OutputGeneration} {wake : Owner.Wake} {w w₀ : World}

lemma TransportGeneration.finishClaimed_ran {v : ActivationView} (hv : v.region = t.activation)
    (hw : Opened t wake.awakeNs w₀ w) :
    (finishClaimed v wake.awakeNs wake.finishTime (g.process wake.callback)).Ends w
      (fun c w' => ∃ result ns w₁, c = .finished result ns ∧ Ran t g wake w₀ result ns w₁ ∧
        Shifts t.interval .awake .finished w₁ w')
      (fun e w' => ∃ result ns w₁ e', e = .activation e' ∧ Ran t g wake w₀ result ns w₁ ∧
        Misses t.interval .awake .finished w₁ w') := by
  have hi : v.region.interval = t.interval := by rw [hv]; rfl
  unfold finishClaimed ActivationView.publishResultAndFinish storeWord
  simp only [ends_bind, ends_attempt, ends_mapErr, ends_store, ends_pure]
  generalize hp : g.process wake.callback w = pw
  obtain ⟨p, w₂⟩ := pw
  have hat : ∀ field, v.at_ field = t.activation.at_ field := fun field => by
    rw [ActivationView.at_, hv]
  have hend : ∀ result status ns, finishResult wake.awakeNs wake.finishTime (cycleResult p).1
      (cycleResult p).2 = (result, status, ns) →
      (v.transition .awake .finished).Ends (t.reported status ns w₂)
        (fun _ w' => ∃ result' ns' w₁, ClaimCompletion.finished result ns =
          .finished result' ns' ∧ Ran t g wake w₀ result' ns' w₁ ∧
            Shifts t.interval .awake .finished w₁ w')
        (fun e w' => ∃ result ns w₁ e', SessionError.activation e = .activation e' ∧
          Ran t g wake w₀ result ns w₁ ∧ Misses t.interval .awake .finished w₁ w') := by
    intro result status ns h
    have hran : Ran t g wake w₀ result ns (t.reported status ns w₂) :=
      ⟨p, w, w₂, status, hw, hp, h, rfl⟩
    refine (v.transition_shifts .awake .finished).mono (fun _ w' hs => ?_) fun e w' hs => ?_
    · rw [hi] at hs
      exact ⟨result, ns, _, rfl, hran, hs⟩
    · rw [hi] at hs
      exact ⟨result, ns, _, e, rfl, hran, hs⟩
  rw [ends_of_run hp]
  simp only [hat]
  cases p <;> exact hend _ _ _ rfl

lemma TransportGeneration.claimAndFinish_ran (hw : Steps (Idle t.interval) w₀ w) :
    (t.claimAndFinish wake.awakeNs wake.finishTime (g.process wake.callback)).Ends w
      (fun c w' => (c = .notClaimed ∧ Steps (Idle t.interval) w₀ w') ∨
        ∃ result ns w₁, c = .finished result ns ∧ Ran t g wake w₀ result ns w₁ ∧
          Shifts t.interval .awake .finished w₁ w')
      (fun e w' => (e.isFault = false ∧ Steps (Idle t.interval) w₀ w') ∨
        ∃ result ns w₁ e', e = .activation e' ∧ Ran t g wake w₀ result ns w₁ ∧
          Misses t.interval .awake .finished w₁ w') := by
  unfold claimAndFinish
  rw [ends_bind]
  have hview : t.activationView.Ends w
      (fun v w' => v.region = t.activation ∧ Steps (Idle t.interval) w₀ w' ∧
        w'.mem.word (versionOf t.interval) 4 = 1)
      (fun e w' => e.isFault = false ∧ Steps (Idle t.interval) w₀ w') := by
    have herr : t.activationView.Ends w (fun _ _ => True) (fun e _ => e.isFault = false) := by
      unfold activationView
      rw [ends_mapErr]
      exact ends_of_forall (fun _ _ => trivial) fun _ _ => rfl
    exact (t.activationView_idle.and herr).mono
      (fun _ _ h => ⟨h.1.1, hw.trans h.1.2.1, h.1.2.2⟩) fun _ _ h => ⟨h.2, hw.trans h.1⟩
  refine hview.mono (fun v w₁ h => ?_) fun _ _ h => Or.inl h
  obtain ⟨hv, hs, hver⟩ := h
  have hi : v.region.interval = t.interval := by rw [hv]; rfl
  have hclaim := v.transition_shifts .triggered .awake (w := w₁)
  rw [hi] at hclaim
  simp only [ends_bind, ends_attempt, ActivationView.claimCycle, storeWord, ends_store]
  refine hclaim.mono (fun _ w₂ hshift => ?_) fun e w₂ hmiss => ?_
  · have hopen : Opened t wake.awakeNs w₀ (w₂.stored .awakeTime (t.activation.at_ Abi.awakeTime)
        (leBytes 8 wake.awakeNs)) := ⟨w₁, w₂, hs, hver, hshift, rfl⟩
    have hat : v.at_ Abi.awakeTime = t.activation.at_ Abi.awakeTime := by
      rw [ActivationView.at_, hv]
    rw [hat]
    exact (finishClaimed_ran hv hopen).mono (fun _ _ h => Or.inr h) fun _ _ h => Or.inr h
  · have hidle := hs.trans hmiss.steps
    split
    · exact Or.inl ⟨rfl, hidle⟩
    · exact Or.inl ⟨rfl, hidle⟩
    · simp_all

end Claim

lemma PeerSet.triggerFrom_error (k : Kernel) (ns : ℕ) : ∀ (l : List (NodeId × PeerActivation))
    (first : Option SessionError) (w : World), (∀ e, first = some e → e.isFault = false) →
    (triggerFrom k ns first l).Ends w (fun _ _ => True) (fun e _ => e.isFault = false) := by
  intro l
  induction l with
  | nil =>
    intro first w h
    cases first with
    | none => trivial
    | some e => exact h e rfl
  | cons entry l ih =>
    intro first w h
    obtain ⟨node, peer⟩ := entry
    unfold triggerFrom
    simp only [ends_bind, ends_attempt]
    have herr : (peer.trigger k ns).Ends w (fun _ _ => True)
        (fun e _ => (peerError node e).isFault = false) := by
      unfold PeerActivation.trigger
      simp only [ends_bind, ends_mapErr]
      refine ends_of_forall (fun v w₁ => ?_) fun _ _ => rfl
      refine ends_of_forall (fun o w₂ => ?_) fun _ _ => rfl
      cases o with
      | waiting n => trivial
      | triggered =>
        simp only [ends_bind, ends_mapErr, ends_pure]
        exact ends_of_forall (fun _ _ => trivial) fun _ _ => rfl
    refine herr.mono (fun _ w₁ _ => ih _ w₁ fun e he => ?_) fun e w₁ he => ih _ w₁ fun e' he' => ?_
    · cases first with
      | none => cases he
      | some e₀ => cases he; exact h _ rfl
    · cases first with
      | none => cases he'; exact he
      | some e₀ => cases he'; exact h _ rfl

lemma PeerSet.triggerAll_error {peers : PeerSet} {k : Kernel} {ns : ℕ} {e : SessionError}
    {w w' : World} (h : peers.triggerAll k ns w = (.error e, w')) : e.isFault = false := by
  have hends : (peers.triggerAll k ns).Ends w (fun _ _ => True) fun e _ => e.isFault = false :=
    triggerFrom_error k ns peers.toList none w (by simp)
  exact hends.run_error h

namespace Owner

variable {s : Sys} {wake : Wake} {k : Kernel}

lemma fail_dropped {t : TransportGeneration} (hT : s.session.transport = some t) : fail.Ends s
    (fun _ s' => s' = ⟨{ s.session with state := .failed }, t.dropped s.world⟩)
    (fun _ _ => False) := by
  unfold fail
  rw [ends_bind, ends_session, hT]
  simp only [ends_bind, ends_outside, ends_edit]
  have hdrop : (t.drop : Prog World SessionError Unit) s.world = (.ok (), t.dropped s.world) := rfl
  exact (ends_of_run hdrop).2 rfl

lemma fail_raise {α : Type} {t : TransportGeneration} {c : ClientNodeSession}
    (hT : c.transport = some t) (hses : s.session = { c with state := .cycleClaimed })
    (e : SessionError) : (do fail; raise e : Owner α).Ends s (fun _ _ => False)
      (fun e' s' => e' = .error e ∧
        s' = ⟨{ c with state := .failed }, t.dropped s.world⟩) := by
  have hT' : s.session.transport = some t := by rw [hses]; exact hT
  simp only [ends_bind, ends_raise]
  refine (fail_dropped hT').mono (fun _ s' h => ⟨trivial, ?_⟩) fun _ _ h => h.elim
  rw [h, hses]

lemma finishCycle_phases {t : TransportGeneration} {g : OutputGeneration} (s₀ : Sys)
    (hT : s₀.session.transport = some t) (hG : s₀.session.output = some g)
    (hid : t.id = wake.generation) (hrun : s₀.session.state = .running)
    (hses : s.session = { s₀.session with state := .cycleClaimed }) (drained : ℕ)
    {result : Except SessionError (Option PublishedOutput)} {ns : ℕ} {w₁ : World}
    (hran : Ran t g wake s₀.world result ns w₁)
    (hshift : Shifts t.interval .awake .finished w₁ s.world) :
    (finishCycle k drained result ns).Ends s (fun o s' => Sys.Phases k wake s₀ (.ok o) s')
      (fun e s' => Sys.Phases k wake s₀ (.error e) s') := by
  have hpeers : s.session.peers = s₀.session.peers := by rw [hses]
  have hout : s.session.output = some g := by rw [hses]; exact hG
  unfold finishCycle
  rw [ends_bind, ends_session]
  cases result with
  | ok v =>
    simp only [ends_bind, ends_outside, ends_attempt]
    rw [hpeers]
    generalize htr : s₀.session.peers.triggerAll k ns s.world = r
    obtain ⟨r, w₃⟩ := r
    rw [ends_of_run htr, ends_ofExcept]
    cases r with
    | ok u =>
      simp only [ends_edit, ends_pure]
      rw [hses]
      exact .triggered t g v ns _ w₁ s.world w₃ hT hG hran hshift htr hid hrun
    | error e =>
      have hend := fail_raise (s := { s with world := w₃ }) (α := WakeOutcome) hT hses e
      rw [ends_bind] at hend
      refine hend.mono (fun _ _ h => h.mono (fun _ _ h => h.elim) fun e' s' h => ?_)
        fun e' s' h => ?_
      · rw [h.1, h.2]
        exact .untriggered t g v ns e w₁ s.world w₃ hT hG hran hshift htr hid hrun
      · rw [h.1, h.2]
        exact .untriggered t g v ns e w₁ s.world w₃ hT hG hran hshift htr hid hrun
  | error e =>
    have hend : ∀ w, w = g.unwound e s.world →
        (do fail; raise e : Owner WakeOutcome).Ends { s with world := w }
          (fun o s' => Sys.Phases k wake s₀ (.ok o) s')
          (fun e s' => Sys.Phases k wake s₀ (.error e) s') := by
      rintro w rfl
      refine (fail_raise (s := { s with world := g.unwound e s.world }) hT hses e).mono
        (fun _ _ h => h.elim) fun e' s' h => ?_
      rw [h.1, h.2]
      exact .faulted t g e ns w₁ s.world hT hG hran hshift hid hrun
    rw [ends_bind]
    unfold doIf
    rw [ends_ite]
    refine ⟨fun he => ?_, fun he => hend s.world ?_⟩
    · rw [hout]
      simp only [ends_bind, ends_unwrap_some, ends_outside, ends_attempt, ends_pure]
      have hw : (g.abortPublished s.world).2 = g.unwound e s.world := by
        unfold OutputGeneration.unwound
        rw [if_pos (by simpa using he)]
      generalize hab : g.abortPublished s.world = r at hw
      obtain ⟨r, w⟩ := r
      have := hend w hw
      rw [ends_of_run hab]
      rw [ends_bind] at this
      cases r <;> exact this
    · unfold OutputGeneration.unwound
      rw [if_neg (by simpa using he)]

lemma runCycle_phases {t : TransportGeneration} (hT : s.session.transport = some t)
    (hid : t.id = wake.generation)
    (hready : s.session.state = .running → ∃ g, s.session.output = some g) (drained : ℕ)
    {w₀ : World} (hw₀ : Steps (Idle t.interval) w₀ s.world) :
    (runCycle k wake drained).Ends s
      (fun o s' => Sys.Phases k wake ⟨s.session, w₀⟩ (.ok o) s')
      (fun e s' => Sys.Phases k wake ⟨s.session, w₀⟩ (.error e) s') := by
  unfold runCycle
  rw [ends_bind, ends_session, ends_ite]
  refine ⟨fun _ => .unclaimed t _ s.session.state s.world hT (by simp) hw₀ hid (by simp) (.inl rfl),
    fun hst => ?_⟩
  have hrun := not_not.mp hst
  obtain ⟨g, hG⟩ := hready hrun
  have hunT : unwrap s.session.transport = unwrap (some t) := by rw [hT]
  have hunG : unwrap s.session.output = unwrap (some g) := by rw [hG]
  rw [hunT, hunG]
  simp only [ends_bind, ends_edit, ends_unwrap_some, ends_outside, ends_attempt]
  refine (t.claimAndFinish_ran hw₀).mono (fun c w h => ?_) fun e w h => ?_
  · rcases h with ⟨rfl, hidle⟩ | ⟨result, ns, w₁, rfl, hran, hshift⟩
    · simp only [ends_bind, ends_edit, ends_pure]
      exact .unclaimed t _ .running w hT (by simp) hidle hid (by simp) (.inl hrun.symm)
    · exact finishCycle_phases ⟨s.session, w₀⟩ hT hG hid hrun rfl drained hran hshift
  · have hend := fail_raise (s := ⟨{ s.session with state := .cycleClaimed }, w⟩)
      (c := s.session) (α := WakeOutcome) hT rfl e
    simp only [ends_bind] at hend
    refine hend.mono (fun _ _ hx => hx.mono (fun _ _ hx => hx.elim) fun e' s' he => ?_)
      fun e' s' he => ?_
    all_goals
      rw [he.1, he.2]
      rcases h with ⟨hf, hidle⟩ | ⟨result, ns, w₁, e₁, rfl, hran, hmiss⟩
      · refine .unclaimed t _ .failed _ hT (fun e'' he'' => ?_) (hidle.trans (t.dropped_steps _))
          hid (by simp) (.inr ⟨hrun, rfl, ⟨g, hG⟩, _, rfl⟩)
        cases he''
        exact hf
      · exact .unfinished t g result ns e₁ w₁ w _ hT hG hran hmiss (t.dropped_steps _) hid hrun

/-- **A wake in phases.** -/
theorem onWake_phases (hready : s.session.state = .running → ∃ g, s.session.output = some g) :
    (onWakeWithFinish k wake).Ends s (fun o s' => Sys.Phases k wake s (.ok o) s')
      (fun e s' => Sys.Phases k wake s (.error e) s') := by
  unfold onWakeWithFinish
  rw [ends_bind, ends_session]
  cases hT : s.session.transport with
  | none =>
    simp only [ClientNodeSession.transportGeneration, hT, Option.map_none, ends_raise]
    refine .ignored _ (fun e he => ?_) (by simp) (by simp [hT])
    cases he
    rfl
  | some t =>
    simp only [ClientNodeSession.transportGeneration, hT, Option.map_some, ends_ite,
      ends_pure]
    refine ⟨fun hne => .ignored _ (by simp) (by simp) fun t' ht' => ?_, fun hid => ?_⟩
    · cases hT.symm.trans ht'
      exact fun h => hne h.symm
    rw [ne_eq, not_not] at hid
    simp only [ends_bind, ends_unwrap_some, ends_outside, ends_attempt,
      TransportGeneration.drain, ends_mapErr]
    have hdrain : Does (Idle t.interval) (EventFd.drain k t.trigger) :=
      EventFd.does_drain_idle k t.trigger
    refine (hdrain.ends .refl).mono (fun drained w h => ?_) fun e w h => ?_
    · exact runCycle_phases (s := ⟨s.session, w⟩) hT hid.symm hready drained h
    · rw [ends_ite]
      refine ⟨fun _ => .unclaimed t _ s.session.state w hT (by simp) h hid.symm (by simp) (.inl rfl),
        fun _ => ?_⟩
      refine .unclaimed t _ s.session.state w hT (fun e' he => ?_) h hid.symm (by simp) (.inl rfl)
      cases he
      rfl

end Owner

/-! ### What the phases come to -/

section Woke

variable {t : TransportGeneration} {g : OutputGeneration} {wake : Owner.Wake} {w w₁ : World}
  {ivs : List MemoryInterval}

lemma Idle.waking {r : MemoryInterval} {a : Action} (h : Idle r a) : Waking r ivs a := by
  cases a with
  | load | drain => trivial
  | exchange => exact .inl h.1
  | swap => exact h
  | _ => exact h.elim

lemma TransportGeneration.stored_waking (t : TransportGeneration) {f : Field} {field n x : ℕ}
    (hf : f ≠ .ioStatus) (h8 : 8 ≤ field) (hn : field + n ≤ Abi.serverVersion) :
    Steps (Waking t.interval ivs) w (w.stored f (t.activation.at_ field) (leBytes n x)) :=
  (steps_interfere _ w).tail (.own _ _ trivial
    ⟨fun h => hf h.1, .inr ⟨field, h8, by rwa [leBytes_length], rfl⟩⟩)

lemma Ran.wakes {result : Except SessionError (Option PublishedOutput)} {ns : ℕ}
    (h : Ran t g wake w result ns w₁) (hg : g.Sound) (hivs : ∀ i ∈ g.intervals, i ∈ ivs) :
    Wakes t.interval ivs g w w₁ := by
  obtain ⟨p, wa, wb, status, ⟨w₂, w₃, hidle, -, hshift, hwa⟩, hproc, -, rfl⟩ := h
  have hp : Processed t.interval ivs g wa (g.process wake.callback wa).2 :=
    ends_state.1 (OutputGeneration.process_ends hg hivs)
  rw [hproc, hwa] at hp
  refine .cycle (hidle.mono fun _ => Idle.waking) ⟨_, steps_interfere _ w₂, hshift⟩
    (t.stored_waking (by decide) (by decide) (by decide)) hp ?_
  exact (t.stored_waking (by decide) (by decide) (by decide)).trans
    (t.stored_waking (by decide) (by decide) (by decide))

/-- **What a wake leaves**, whatever its phases. -/
theorem Sys.Phases.woke {k : Kernel} {s s' : Sys} {r : Except Unwind WakeOutcome}
    (h : Phases k wake s r s') (hsound : ∀ g, s.session.output = some g → g.Sound) :
    r ≠ .error .panic ∧ ∃ st, (st = s.session.state ∨
      s.session.state = .running ∧ st = .failed ∧ ∃ e, r = .error e) ∧ Woke wake s st s' := by
  have hidle {t : TransportGeneration} {ivs : List MemoryInterval} {w w' : World}
      (h : Steps (Idle t.interval) w w') : Steps (Waking t.interval ivs) w w' :=
    h.mono fun _ => Idle.waking
  have hfinish {t : TransportGeneration} {ivs : List MemoryInterval} {w w' : World}
      (h : Shifts t.interval .awake .finished w w') : Steps (Waking t.interval ivs) w w' := by
    obtain ⟨hword, rfl⟩ := h
    exact (steps_interfere _ w).tail (.own _ _ hword.symm (.inr (.inr ⟨rfl, rfl, rfl⟩)))
  have hran {t : TransportGeneration} {g : OutputGeneration} {w : World}
      {result : Except SessionError (Option PublishedOutput)} {ns : ℕ}
      (hG : s.session.output = some g) (h : Ran t g wake s.world result ns w) :
      Wakes t.interval (g.intervals ++ s.session.peers.intervals) g s.world w :=
    h.wakes (hsound g hG) fun _ => List.mem_append_left _
  have htrigger (t : TransportGeneration) (g : OutputGeneration) (ns : ℕ) (w : World) :
      Steps (Waking t.interval (g.intervals ++ s.session.peers.intervals)) w
        (s.session.peers.triggerAll k ns w).2 :=
    PeerSet.does_triggerAll _ (fun _ => List.mem_append_right _) k ns w
  cases h with
  | ignored _ _ hpanic hid => exact ⟨hpanic, _, .inl rfl, .ignored hid⟩
  | unclaimed t _ st w hT _ hs hid hpanic hst =>
    refine ⟨hpanic, st, hst.imp_right fun h => ⟨h.1, h.2.1, h.2.2.2⟩, ?_⟩
    rcases hst with rfl | ⟨hrun, rfl, ⟨g, hG⟩, -⟩
    · exact .drained t w hT hid (hidle hs)
    · exact .cycle t g .failed w hT hid hrun hG (.idle (hidle hs))
  | unfinished t g result ns e w₁ w₂ w₃ hT hG h hmiss hs hid hrun =>
    exact ⟨by simp, .failed, .inr ⟨hrun, rfl, _, rfl⟩, .cycle t g _ w₃ hT hid hrun hG
      ((hran hG h).tail ((hidle hmiss.steps).trans (hidle hs)))⟩
  | triggered t g v ns o w₁ w₂ w₃ hT hG h hshift htr hid hrun =>
    have h₃ := htrigger t g ns w₂
    rw [htr] at h₃
    exact ⟨by simp, .running, .inl hrun.symm, .cycle t g _ w₃ hT hid hrun hG
      ((hran hG h).tail ((hfinish hshift).trans h₃))⟩
  | untriggered t g v ns e w₁ w₂ w₃ hT hG h hshift htr hid hrun =>
    have h₃ := htrigger t g ns w₂
    rw [htr] at h₃
    exact ⟨by simp, .failed, .inr ⟨hrun, rfl, _, rfl⟩, .cycle t g _ _ hT hid hrun hG
      ((hran hG h).tail ((hfinish hshift).trans (h₃.trans (hidle (t.dropped_steps _)))))⟩
  | faulted t g e ns w₁ w₂ hT hG h hshift hid hrun =>
    have hback : Steps (Waking t.interval (g.intervals ++ s.session.peers.intervals)) w₂
        (g.unwound e w₂) := by
      unfold OutputGeneration.unwound
      split_ifs
      · exact OutputGeneration.does_abortPublished (hsound g hG) (fun _ => List.mem_append_left _) w₂
      · exact .refl
    exact ⟨by simp, .failed, .inr ⟨hrun, rfl, _, rfl⟩, .cycle t g _ _ hT hid hrun hG
      ((hran hG h).tail ((hfinish hshift).trans (hback.trans (hidle (t.dropped_steps _)))))⟩

end Woke

end PipewireNative.Node
