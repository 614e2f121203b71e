import PipewireNative.Node.Reach

/-!
Triggering the peers. What the owner does in the world, in the order it does it, is a list of
actions; one attempt on a peer has one of five shapes, and triggering all peers is one attempt for
each of them, in the order of their nodes.
-/

namespace PipewireNative.Node

open Lib Lib.Word Prog World

namespace World

/-! ### What the owner did, in order -/

/-- The actions of the owner in a log, the first one first. -/
def actions (log : List Event) : List Action :=
  (log.filterMap fun
    | .own a => some a
    | .server _ _ => none).reverse

lemma actions_append (new log : List Event) : actions (new ++ log) = actions log ++ actions new := by
  simp [actions, List.filterMap_append]

lemma mem_actions {log : List Event} {a : Action} : a ∈ actions log ↔ Event.own a ∈ log := by
  simp only [actions, List.mem_reverse, List.mem_filterMap]
  constructor
  · rintro ⟨e, he, h⟩
    cases e with
    | own b => cases h; exact he
    | server b c => cases h
  · exact fun h => ⟨_, h, rfl⟩

/-- The owner did exactly the actions of the list, in order. -/
def Did (tr : List Action) (w w' : World) : Prop :=
  ∃ new, w'.log = new ++ w.log ∧ actions new = tr

variable {tr tr' : List Action} {w w₁ w' : World}

lemma Did.refl (w : World) : Did [] w w := ⟨[], rfl, rfl⟩

lemma Did.trans (h : Did tr w w₁) (h' : Did tr' w₁ w') : Did (tr ++ tr') w w' := by
  obtain ⟨new, hl, rfl⟩ := h
  obtain ⟨new', hl', rfl⟩ := h'
  exact ⟨new' ++ new, by rw [hl', hl, List.append_assoc], actions_append new' new⟩

lemma Did.perform (w : World) (a : Action) : Did [a] w (w.perform a) := ⟨[.own a], rfl, rfl⟩

lemma Logs.did {P : Action → Prop} (h : Logs P w w') : ∃ tr, Did tr w w' ∧ ∀ a ∈ tr, P a := by
  obtain ⟨new, hl, hn⟩ := h
  exact ⟨actions new, ⟨new, hl, rfl⟩, fun a ha => hn a (mem_actions.1 ha)⟩

lemma Steps.did {P : Action → Prop} (h : Steps P w w') : ∃ tr, Did tr w w' ∧ ∀ a ∈ tr, P a :=
  h.log.did

lemma Did.interfere (w : World) : Did [] w w.interfere := by
  obtain ⟨tr, hd, hn⟩ := (steps_interfere (fun _ => False) w).did
  rwa [List.eq_nil_iff_forall_not_mem.2 hn] at hd

def performed (w w' : World) : List Action :=
  actions (w'.log.take (w'.log.length - w.log.length))

lemma Did.performed (h : Did tr w w') : w.performed w' = tr := by
  obtain ⟨new, hl, rfl⟩ := h
  unfold World.performed
  rw [hl, List.length_append, Nat.add_sub_cancel, List.take_left]

lemma Did.access (w : World) (a : Action) : Did [a] w (w.interfere.perform a) :=
  (Did.interfere w).trans (Did.perform _ a)

end World

/-! ### One attempt on a peer -/

namespace PeerActivation

variable (p : PeerActivation)

/-- The version of the peer is loaded, which is how an attempt begins. -/
def versionLoad (v : ℕ) : Action := .load .serverVersion (p.mapping.at_ Abi.serverVersion) 4 v

/-- The pending count of the peer is loaded, or was found to have been changed. -/
def Probes : Action → Prop
  | .load f l n _ => f = .pending ∧ l = p.mapping.at_ Abi.state0Pending ∧ n = 4
  | .exchange f l expected _ seen =>
    f = .pending ∧ l = p.mapping.at_ Abi.state0Pending ∧ seen ≠ expected
  | _ => False

def decrement (count : ℤ) : Action :=
  .exchange .pending (p.mapping.at_ Abi.state0Pending) (ofI32 count) (ofI32 (count - 1)) (ofI32 count)

/-- The status of the peer is exchanged for `TRIGGERED`, where it was seen to be `seen`. -/
def statusExchange (seen : ℕ) : Action :=
  .exchange .status (p.mapping.at_ Abi.status) ActivationStatus.notTriggered.code
    ActivationStatus.triggered.code seen

def timeStore (ns : ℕ) : Action := .store .signalTime (p.mapping.at_ Abi.signalTime) (leBytes 8 ns)

/-- The count a probe saw. -/
def counted : Action → ℤ
  | .load _ _ _ v => asI32 v
  | .exchange _ _ _ _ seen => asI32 seen
  | _ => 0

/-- What one attempt to decrement the pending count of a peer does: nothing, where the version is
not the one supported; look at the count, where it is not positive; decrement it; and where that
was the last one, move the status. Only where the status moved the signal time is stored, and then
the eventfd written, with or without success. -/
inductive Attempt (ns : ℕ) : List Action → Prop
  | unsupported (v : ℕ) : v ≠ activationVersion → Attempt ns [p.versionLoad v]
  | exhausted (probes : List Action) (a : Action) : (∀ b ∈ probes ++ [a], p.Probes b) →
      counted a ≤ 0 → Attempt ns (p.versionLoad activationVersion :: (probes ++ [a]))
  | waiting (probes : List Action) (count : ℤ) : (∀ a ∈ probes, p.Probes a) → 1 < count →
      Attempt ns (p.versionLoad activationVersion :: (probes ++ [p.decrement count]))
  | missed (probes : List Action) (seen : ℕ) : (∀ a ∈ probes, p.Probes a) →
      seen ≠ ActivationStatus.notTriggered.code →
      Attempt ns (p.versionLoad activationVersion ::
        (probes ++ [p.decrement 1, p.statusExchange seen]))
  | signalled (probes : List Action) (a : Action) : (∀ a ∈ probes, p.Probes a) →
      (a = .signal p.signal 1 ∨ a = .failedSignal p.signal 1) →
      Attempt ns (p.versionLoad activationVersion :: (probes ++ [p.decrement 1,
        p.statusExchange ActivationStatus.notTriggered.code, p.timeStore ns, a]))

/-- How the turns of the decrement end: the count is not positive, it was decremented and others
remain, the status was not the one expected, or the status moved. -/
inductive Turns (ns : ℕ) (current : ℤ) : Except ActivationError TriggerOutcome → List Action → Prop
  | none (e : ActivationError) : current ≤ 0 → Turns ns current (.error e) []
  | exhausted (e : ActivationError) (probes : List Action) (a : Action) :
      (∀ b ∈ probes ++ [a], p.Probes b) → counted a ≤ 0 →
      Turns ns current (.error e) (probes ++ [a])
  | waiting (probes : List Action) (count : ℤ) : (∀ a ∈ probes, p.Probes a) → 1 < count →
      Turns ns current (.ok (.waiting (count - 1))) (probes ++ [p.decrement count])
  | missed (e : ActivationError) (probes : List Action) (seen : ℕ) : (∀ a ∈ probes, p.Probes a) →
      seen ≠ ActivationStatus.notTriggered.code →
      Turns ns current (.error e) (probes ++ [p.decrement 1, p.statusExchange seen])
  | triggered (probes : List Action) : (∀ a ∈ probes, p.Probes a) →
      Turns ns current (.ok .triggered) (probes ++ [p.decrement 1,
        p.statusExchange ActivationStatus.notTriggered.code, p.timeStore ns])

variable {p} {ns : ℕ}

lemma Turns.cons {current : ℤ} {a : Action} {r : Except ActivationError TriggerOutcome}
    {tr : List Action} (ha : p.Probes a) (h : p.Turns ns (counted a) r tr) :
    p.Turns ns current r (a :: tr) := by
  have hcons : ∀ {probes}, (∀ b ∈ probes, p.Probes b) → ∀ b ∈ a :: probes, p.Probes b :=
    fun h => List.forall_mem_cons.2 ⟨ha, h⟩
  cases h with
  | none e hle => exact .exhausted e [] a (hcons (by simp)) hle
  | exhausted e probes b hp hle => exact .exhausted e (a :: probes) b (hcons hp) hle
  | waiting probes count hp hlt => exact .waiting (a :: probes) count (hcons hp) hlt
  | missed e probes seen hp hne => exact .missed e (a :: probes) seen (hcons hp) hne
  | triggered probes hp => exact .triggered (a :: probes) (hcons hp)

/-- **The turns of the decrement**, which the entries of the script bound. -/
lemma decrementLoop_turns {v : ActivationView} (hv : v.region = p.mapping) :
    ∀ (fuel : ℕ) (current : ℤ) (w : World), w.script.length < fuel →
      w.mem.word (p.mapping.at_ Abi.state0Pending) 4 = ofI32 current →
      (v.decrementLoop ns fuel current).Ends w
        (fun o w' => ∃ tr, Did tr w w' ∧ p.Turns ns current (.ok o) tr)
        (fun e w' => ∃ tr, Did tr w w' ∧ p.Turns ns current (.error e) tr) := by
  intro fuel
  induction fuel with
  | zero => exact fun _ _ h => absurd h (Nat.not_lt_zero _)
  | succ fuel ih =>
    intro current w hlen hword
    have hat : ∀ field, v.at_ field = p.mapping.at_ field := fun field => by
      rw [ActivationView.at_, hv]
    unfold ActivationView.decrementLoop
    simp only [ends_bind, ends_failIf, ends_compareExchange, ends_ite, hat]
    refine ⟨fun hle => ⟨[], .refl w, .none _ hle⟩, fun hpos => ⟨fun hseen => ?_, fun hseen => ?_⟩⟩
    · rw [hseen]
      -- the exchange decrements the count
      have hdid : Did [p.decrement current] w _ := .access w (p.decrement current)
      refine ⟨fun hlt => ⟨_, hdid, .waiting [] current (by simp) hlt⟩, fun hlt => ?_⟩
      obtain rfl : current = 1 := by omega
      have hstatus : statusOf v.region.interval = p.mapping.at_ Abi.status := by rw [hv]; rfl
      refine (v.transition_shifts .notTriggered .triggered).mono (fun _ w₂ h => ?_) fun e w₂ h => ?_
      · obtain ⟨-, rfl⟩ := h
        rw [hstatus]
        simp only [storeWord, ends_store, ends_pure]
        exact ⟨_, (hdid.trans (.access _ (p.statusExchange _))).trans
          (.access _ (p.timeStore ns)), .triggered [] (by simp)⟩
      · obtain ⟨hne, rfl⟩ := h
        rw [hstatus] at hne ⊢
        exact ⟨_, hdid.trans (.access _ (p.statusExchange _)), .missed e [] _ (by simp) hne⟩
    · -- the server acted before the exchange, so the script was not over
      have hne : w.script ≠ [] := fun hnil => hseen (by rw [interfere_quiet hnil]; exact hword)
      have hlt : w.interfere.script.length < fuel := by
        rw [interfere_script, List.length_tail]
        have := List.length_pos_iff.2 hne
        omega
      set seen := w.interfere.mem.word (p.mapping.at_ Abi.state0Pending) 4 with hs
      set a : Action := .exchange .pending (p.mapping.at_ Abi.state0Pending) (ofI32 current)
        (ofI32 (current - 1)) seen with ha
      have hmem : (w.interfere.perform a).mem.word (p.mapping.at_ Abi.state0Pending) 4 =
          ofI32 (asI32 seen) := by
        rw [perform_mem, ha, effect, if_neg hseen, ofI32_asI32 (Memory.word_lt32 _ _)]
      have hprobe : p.Probes a := ⟨rfl, rfl, hseen⟩
      refine (ih (asI32 seen) (w.interfere.perform a) hlt hmem).mono (fun o w' h => ?_)
        fun e w' h => ?_
      · obtain ⟨tr, hd, ht⟩ := h
        exact ⟨a :: tr, (Did.access w a).trans hd, ht.cons hprobe⟩
      · obtain ⟨tr, hd, ht⟩ := h
        exact ⟨a :: tr, (Did.access w a).trans hd, ht.cons hprobe⟩

lemma decrementPendingAndTrigger_turns {v : ActivationView} (hv : v.region = p.mapping)
    (w : World) : (v.decrementPendingAndTrigger ns).Ends w
      (fun o w' => ∃ a tr, Did (a :: tr) w w' ∧ p.Probes a ∧ p.Turns ns (counted a) (.ok o) tr)
      (fun e w' => ∃ a tr, Did (a :: tr) w w' ∧ p.Probes a ∧
        p.Turns ns (counted a) (.error e) tr) := by
  unfold ActivationView.decrementPendingAndTrigger
  simp only [ends_bind, ends_gets, ends_load]
  have hat : v.at_ Abi.state0Pending = p.mapping.at_ Abi.state0Pending := by
    rw [ActivationView.at_, hv]
  rw [hat]
  set value := w.interfere.mem.word (p.mapping.at_ Abi.state0Pending) 4 with hvalue
  have hlen : w.interfere.script.length < w.script.length + 1 := by
    rw [interfere_script, List.length_tail]
    omega
  set a : Action := .load .pending (p.mapping.at_ Abi.state0Pending) 4 value with ha
  have hword : (w.interfere.perform a).mem.word (p.mapping.at_ Abi.state0Pending) 4 =
      ofI32 (asI32 value) := by
    rw [ofI32_asI32 (Memory.word_lt32 _ _), perform_mem]
    rfl
  have hprobe : p.Probes a := ⟨rfl, rfl, rfl⟩
  refine (decrementLoop_turns hv _ (asI32 value) (w.interfere.perform a) hlen hword).mono
    (fun o w' h => ?_) fun e w' h => ?_
  · obtain ⟨tr, hd, ht⟩ := h
    exact ⟨a, tr, (Did.access w a).trans hd, hprobe, ht⟩
  · obtain ⟨tr, hd, ht⟩ := h
    exact ⟨a, tr, (Did.access w a).trans hd, hprobe, ht⟩

lemma signal_did (k : Kernel) (fd : Fd) (w : World) :
    ∃ a, Did [a] w (EventFd.signal k fd 1 w).2 ∧ (a = .signal fd 1 ∨ a = .failedSignal fd 1) := by
  unfold EventFd.signal
  split
  · exact ⟨_, .access w _, Or.inr rfl⟩
  · split_ifs
    · exact ⟨_, .access w _, Or.inr rfl⟩
    · exact ⟨_, .access w _, Or.inl rfl⟩

lemma Turns.attempt {a : Action} {r : Except ActivationError TriggerOutcome} {tr : List Action}
    (ha : p.Probes a) (h : p.Turns ns (counted a) r tr) (hr : r ≠ .ok .triggered) :
    p.Attempt ns (p.versionLoad activationVersion :: a :: tr) := by
  have hcons : ∀ {probes}, (∀ b ∈ probes, p.Probes b) → ∀ b ∈ a :: probes, p.Probes b :=
    fun h => List.forall_mem_cons.2 ⟨ha, h⟩
  cases h with
  | none e hle => exact .exhausted [] a (hcons (by simp)) hle
  | exhausted e probes b hp hle => exact .exhausted (a :: probes) b (hcons hp) hle
  | waiting probes count hp hlt => exact .waiting (a :: probes) count (hcons hp) hlt
  | missed e probes seen hp hne => exact .missed (a :: probes) seen (hcons hp) hne
  | triggered => exact absurd rfl hr

/-- **Triggering a peer** is one attempt on it. -/
theorem trigger_attempt (p : PeerActivation) (k : Kernel) (ns : ℕ) (w : World) :
    ∃ tr, Did tr w (p.trigger k ns w).2 ∧ p.Attempt ns tr := by
  refine (ends_state (I := fun w' => ∃ tr, Did tr w w' ∧ p.Attempt ns tr)).1 ?_
  have halign : p.mapping.mapped.ptr % Abi.align = 0 := by
    have h₁ := p.aligned
    have h₂ := p.mapping.ptr_mod
    unfold Abi.align
    omega
  unfold trigger ActivationView.fromRawParts
  rw [if_neg p.mapping.ptr_ne, dif_pos p.fits, dif_pos halign]
  simp only [ends_bind, ends_mapErr, ends_load, ends_failIf, ends_pure]
  refine ⟨fun hne => ⟨_, .access w (p.versionLoad _), .unsupported _ hne⟩, fun hver => ?_⟩
  rw [not_not.mp hver]
  have hload : Did [p.versionLoad activationVersion] w _ := .access w _
  refine (decrementPendingAndTrigger_turns (v := ⟨p.mapping, p.fits, halign⟩) rfl _).mono
    (fun o w₂ h => ?_) fun e w₂ h => ?_
  · obtain ⟨a, tr, hd, ha, ht⟩ := h
    cases o with
    | waiting n => exact ⟨_, hload.trans hd, ht.attempt ha (by simp)⟩
    | triggered =>
      simp only [ends_bind, ends_mapErr, ends_pure]
      obtain ⟨b, hb, hsig⟩ := signal_did k p.signal w₂
      refine ends_state.2 ⟨_, (hload.trans hd).trans hb, ?_⟩
      generalize hr : (Except.ok TriggerOutcome.triggered :
        Except ActivationError TriggerOutcome) = r at ht
      cases ht with
      | none | exhausted | missed => cases hr
      | waiting => cases hr
      | triggered probes hp =>
        have : p.Attempt ns _ := .signalled (a :: probes) b
          (List.forall_mem_cons.2 ⟨ha, hp⟩) hsig
        simpa using this
  · obtain ⟨a, tr, hd, ha, ht⟩ := h
    exact ⟨_, hload.trans hd, ht.attempt ha (by simp)⟩

end PeerActivation

/-- **Triggering peers** is one attempt on each of them, in order, whatever the ones before came
to. -/
theorem PeerSet.triggerFrom_attempts (k : Kernel) (ns : ℕ) :
    ∀ (l : List (NodeId × PeerActivation)) (first : Option SessionError) (w : World),
      ∃ trs, Did trs.flatten w (triggerFrom k ns first l w).2 ∧
        List.Forall₂ (fun e tr => e.2.Attempt ns tr) l trs := by
  intro l
  induction l with
  | nil => exact fun first w => ⟨[], .refl w, .nil⟩
  | cons e l ih =>
    intro first w
    obtain ⟨node, peer⟩ := e
    obtain ⟨tr, hd, ha⟩ := peer.trigger_attempt k ns w
    obtain ⟨first', hnext⟩ : ∃ first', triggerFrom k ns first ((node, peer) :: l) w =
        triggerFrom k ns first' l (peer.trigger k ns w).2 := ⟨_, rfl⟩
    obtain ⟨trs, hds, has⟩ := ih first' (peer.trigger k ns w).2
    rw [hnext]
    exact ⟨tr :: trs, hd.trans hds, .cons ha has⟩

end PipewireNative.Node
