import PipewireNative.Node.Frame
import PipewireNative.Node.Quiet
import PipewireNative.Node.Lifecycle

/-!
Memory keys. A generation holds the exact keys it was bound with, while numeric IDs are reused.
Where an ID is announced again only after its key was removed, and a removal finds a record it can
stop, every key that is held is the key of the lease there is, and a removal drops what holds its
key and nothing else.
-/

namespace PipewireNative.Node

open Lib Prog World Sys

/-! ### Records that let themselves be stopped -/

/-- The act leaves a record that answers answering. -/
def ServerAct.Spares (r : MemoryInterval) : ServerAct → Prop
  | .store l bs => ∀ m : Shm, Answers m r → Answers (m.write l bs) r
  | .signal _ _ => True

namespace World

variable {r : MemoryInterval} {w w' : World}

/-- The record answers, and the server will leave it so until its script is over. -/
def Assured (r : MemoryInterval) (w : World) : Prop :=
  Answers w.mem r ∧ ∀ acts ∈ w.script, ∀ a ∈ acts, a.Spares r

lemma Assured.interfere (h : Assured r w) : Assured r w.interfere := by
  unfold World.interfere
  split
  · exact h
  · rename_i acts rest hs
    have hacts : ∀ a ∈ acts, a.Spares r := h.2 acts (by rw [hs]; exact List.mem_cons_self)
    have h' : Assured r { w with script := rest } :=
      ⟨h.1, fun acts' h' => h.2 acts' (by rw [hs]; exact List.mem_cons_of_mem _ h')⟩
    generalize ({ w with script := rest } : World) = v at h'
    clear hs
    induction acts generalizing v with
    | nil => exact h'
    | cons a acts ih =>
      refine ih (fun a' ha' => hacts a' (List.mem_cons_of_mem _ ha')) _ ?_
      have ha := hacts a List.mem_cons_self
      cases a with
      | store l bs => exact ⟨ha _ h'.1, h'.2⟩
      | signal fd n => exact h'

lemma Assured.reads (h : Assured r w) (hs : Steps Reads w w') : Assured r w' := by
  induction hs with
  | refl => exact h
  | tail _ hstep ih =>
    cases hstep with
    | interfere => exact ih.interfere
    | own a _ ha =>
      cases a <;> first
        | exact ih
        | exact absurd ha (by simp [Reads])

lemma Assured.not_refused (h : Assured r w) : ¬ Refused r w w' := by
  rintro ⟨w₁, hs, hbad, -⟩
  obtain ⟨hver, hst⟩ := (h.reads hs).1
  rcases hbad with hbad | hbad
  · exact hbad hver
  · omega

end World

/-! ### Keys that are current -/

/-- The keys that transport, output and peers hold are those of the leases there are. -/
structure ClientNodeSession.Current (s : ClientNodeSession) : Prop where
  transport : ∀ t, s.transport = some t → s.availableMemory.Grants t.activationKey
  output : ∀ g, s.output = some g → ∀ key ∈ g.keys, s.availableMemory.Grants key
  peers : ∀ (n : NodeId) (p : PeerActivation), s.peers[n]? = some p → s.availableMemory.Grants p.key

lemma ClientNodeSession.Current.of_eq {s n : ClientNodeSession} (h : s.Current)
    (hm : n.availableMemory = s.availableMemory) (ht : n.transport = s.transport)
    (ho : n.output = s.output) (hp : n.peers = s.peers) : n.Current where
  transport := by rw [hm, ht]; exact h.transport
  output := by rw [hm, ho]; exact h.output
  peers := by rw [hm, hp]; exact h.peers

lemma OrderedMemory.Grants.announce {m : OrderedMemory} {key : MemoryKey} {lease : MemoryLease}
    (h : m.Grants key) (hfree : m lease.key.id = none) : (m.announce lease).Grants key := by
  obtain ⟨l, hl, hkey⟩ := h
  refine ⟨l, ?_, hkey⟩
  unfold OrderedMemory.announce
  rw [Function.update_of_ne, hl]
  intro hid
  rw [hid, hfree] at hl
  exact absurd hl (by simp)

lemma OrderedMemory.Grants.retire {m : OrderedMemory} {key key' : MemoryKey} (h : m.Grants key)
    (hne : key ≠ key') : (m.retire key').Grants key := by
  obtain ⟨l, hl, hkey⟩ := h
  refine ⟨l, ?_, hkey⟩
  unfold OrderedMemory.retire
  split_ifs with hany
  · rw [Function.update_of_ne, hl]
    intro hid
    rw [← hid, hl, Option.any_some, decide_eq_true_eq] at hany
    exact hne (hkey.symm.trans hany)
  · exact hl

lemma ClientNodeSession.stopped_memory {s : ClientNodeSession} :
    s.stopped.availableMemory = s.availableMemory := by
  unfold stopped; split_ifs <;> rfl

lemma ClientNodeSession.Current.stopped {s : ClientNodeSession} (h : s.Current) :
    s.stopped.Current :=
  h.of_eq stopped_memory stopped_transport stopped_output stopped_peers

theorem Sys.Edit.current {s s' : Sys} (h : Edit s s') (hc : s.session.Current) :
    s'.session.Current := by
  cases h with
  | book n hk | refused n r w₁ w hk => exact hc.of_eq hk.memory hk.transport hk.output hk.peers
  | halt active command w _ => exact ClientNodeSession.Current.stopped (hc.of_eq rfl rfl rfl rfl)
  | replace t w₁ w₂ w₃ _ _ _ _ _ hg =>
    have hst := hc.stopped
    refine ⟨fun t' e => ?_, hst.output, hst.peers⟩
    obtain rfl : t = t' := Option.some.inj e
    show s.session.stopped.availableMemory.Grants _
    rw [ClientNodeSession.stopped_memory]
    exact hg
  | release w _ _ => exact ⟨by simp, hc.output, hc.peers⟩
  | setOutput g _ _ _ hg _ =>
    refine ⟨hc.transport, fun g' e => ?_, hc.peers⟩
    obtain rfl : g = g' := Option.some.inj e
    exact hg
  | clearOutput => exact ⟨hc.transport, by simp, hc.peers⟩
  | insertPeer node d p _ _ _ hg _ =>
    refine ⟨hc.transport, hc.output, fun n q e => ?_⟩
    simp only [Std.ExtTreeMap.getElem?_insert] at e
    split_ifs at e
    · cases e; exact hg
    · exact hc.peers n q e
  | removePeers peers hsub =>
    exact ⟨hc.transport, hc.output, fun n p hp => hc.peers n p (hsub n p hp)⟩
  | refresh => rw [ClientNodeSession.refreshState_eq]; exact hc.of_eq rfl rfl rfl rfl
  | _ => exact hc.of_eq rfl rfl rfl rfl

theorem Sys.Edits.current {s s' : Sys} (h : Edits s s') (hc : s.session.Current) :
    s'.session.Current := by
  induction h with
  | refl => exact hc
  | tail _ he ih => exact he.current ih

/-! ### Removals -/

/-- What held the key has been dropped, and nothing else. -/
structure ClientNodeSession.Dropped (key : MemoryKey) (s s' : ClientNodeSession) : Prop where
  transport : s'.transport = s.transport.filter fun t => decide (t.activationKey ≠ key)
  output : s'.output = s.output.filter fun g => !g.dependsOn key
  peers : s'.peers = s.peers.removeMemory key

def ClientNodeSession.Holds (s : ClientNodeSession) (key : MemoryKey) : Prop :=
  (s.transport.any fun t => decide (t.activationKey = key)) = true ∨
    (s.output.any fun g => g.dependsOn key) = true

/-- A removal does not get stuck: where transport or output hold the key, the own record is
assured. -/
def Sys.Yields (s : Sys) (key : MemoryKey) (script : List (List ServerAct)) : Prop :=
  s.session.Holds key → ∀ r, s.session.own = some r → (s.scripted script).world.Assured r

lemma Sys.yields_quiet {s : Sys} {key : MemoryKey} {r : MemoryInterval}
    (hown : s.session.own = some r) (hans : Answers s.world.mem r) : s.Yields key [] := by
  intro _ r' hr'
  obtain rfl := Option.some.inj (hown.symm.trans hr')
  exact ⟨hans, fun acts h => absurd h List.not_mem_nil⟩

lemma ClientNodeSession.not_current {s : ClientNodeSession} {key : MemoryKey} {id : MemoryId}
    (hnone : s.availableMemory id = none) (hkey : s.transport.map (·.activationKey) = some key)
    (hid : key.id = id) : ¬ s.Current := by
  obtain ⟨t, ht, rfl⟩ := Option.map_eq_some_iff.1 hkey
  intro h
  obtain ⟨l, hl, -⟩ := h.transport t ht
  rw [hid, hnone] at hl
  exact absurd hl (by simp)

lemma ClientNodeSession.not_dropped {s s' : ClientNodeSession} {key : MemoryKey}
    (hkey : s'.transport.map (·.activationKey) = some key) : ¬ s.Dropped key s' := by
  obtain ⟨t, ht, rfl⟩ := Option.map_eq_some_iff.1 hkey
  intro h
  have hdrop := h.transport
  rw [ht, eq_comm, Option.filter_eq_some_iff] at hdrop
  simpa using hdrop.2

lemma ClientNodeSession.Dropped.current {s s' : ClientNodeSession} {key : MemoryKey}
    (h : s.Dropped key s') (hm : s'.availableMemory = s.availableMemory.retire key)
    (hc : s.Current) : s'.Current := by
  constructor
  · intro t ht
    rw [h.transport, Option.filter_eq_some_iff] at ht
    rw [hm]
    exact (hc.transport t ht.1).retire (by simpa using ht.2)
  · intro g hg key' hkey'
    rw [h.output, Option.filter_eq_some_iff] at hg
    rw [hm]
    refine (hc.output g hg.1 key' hkey').retire fun he => ?_
    have hno : g.dependsOn key = false := by simpa using hg.2
    rw [← he, (g.dependsOn_iff key').2 hkey'] at hno
    exact absurd hno (by simp)
  · intro n p hp
    rw [h.peers] at hp
    simp only [PeerSet.removeMemory, Std.ExtTreeMap.getElem?_filter',
      Option.filter_eq_some_iff] at hp
    rw [hm]
    exact (hc.peers n p hp.1).retire (by simpa using hp.2)

lemma filter_of_any_false {α : Type} {o : Option α} {f : α → Bool} (h : o.any f = false) :
    (o.filter fun a => !f a) = o := by
  cases o with
  | none => rfl
  | some a =>
    rw [Option.any_some] at h
    simp [Option.filter, h]

lemma filter_of_any {α : Type} {o : Option α} {f : α → Bool} (h : o.any f = true) :
    (o.filter fun a => !f a) = none := by
  cases o with
  | none => rfl
  | some a =>
    rw [Option.any_some] at h
    simp [Option.filter, h]

namespace Owner

variable {s : Sys} {key : MemoryKey} {k : Kernel}

/-- **What a removal drops.** -/
theorem removeMemory_drops (hy : s.session.Holds key → ∀ r, s.session.own = some r →
    s.world.Assured r) : (removeMemory key).Ends s
      (fun _ s' => s.session.Dropped key s'.session ∧
        s'.session.availableMemory = s.session.availableMemory ∧
        (¬ s.session.Holds key → s'.session = { s.session with
          peers := s.session.peers.removeMemory key }))
      (fun _ _ => False) := by
  have hfil : (fun t : TransportGeneration => decide (t.activationKey ≠ key)) =
      fun t => !decide (t.activationKey = key) := by funext t; simp
  unfold removeMemory
  simp only [ends_bind, ends_session, ends_edit]
  cases hT : s.session.transport.any fun t => decide (t.activationKey = key) with
  | true =>
    unfold doIf
    simp only [if_true, ends_bind]
    refine (stop_ends s).mono (fun _ s₁ h₁ => ?_) fun _ _ h₁ => ?_
    swap
    · obtain ⟨-, -, r, hr, href⟩ := h₁
      exact (hy (Or.inl hT) r hr).not_refused href
    refine (setTransport_ends s₁ none).mono (fun _ s₂ h₂ => ?_) fun _ _ h => h.elim
    obtain ⟨w, -, rfl⟩ := h₂
    have hout : s₁.session.output = s.session.output := by
      rw [h₁.1, ClientNodeSession.stopped_output]
    have hpeers : s₁.session.peers = s.session.peers := by
      rw [h₁.1, ClientNodeSession.stopped_peers]
    have hmem : s₁.session.availableMemory = s.session.availableMemory := by
      rw [h₁.1, ClientNodeSession.stopped_memory]
    have hnone : s.session.transport.filter (fun t => decide (t.activationKey ≠ key)) = none := by
      rw [hfil]; exact filter_of_any hT
    split_ifs with hO
    · simp only [ends_bind, ends_edit]
      refine (stop_ends _).mono (fun _ s₃ h₃ => ?_) fun _ _ h₃ => ?_
      · rw [show s₁.session.output = s.session.output from hout] at hO
        refine ⟨⟨?_, ?_, ?_⟩, ?_, fun h => absurd (Or.inl hT) h⟩
        · show s₃.session.transport = _
          rw [h₃.1, ClientNodeSession.stopped_transport, hnone]
        · exact (filter_of_any hO).symm
        · show s₃.session.peers.removeMemory key = _
          rw [h₃.1, ClientNodeSession.stopped_peers]
          show s₁.session.peers.removeMemory key = _
          rw [hpeers]
        · show s₃.session.availableMemory = _
          rw [h₃.1, ClientNodeSession.stopped_memory]
          exact hmem
      · obtain ⟨-, -, r, hr, -⟩ := h₃
        exact absurd hr (by simp [ClientNodeSession.own])
    · rw [ends_pure]
      rw [show s₁.session.output = s.session.output from hout, Bool.not_eq_true] at hO
      refine ⟨⟨hnone.symm, ?_, ?_⟩, hmem, fun h => absurd (Or.inl hT) h⟩
      · show s₁.session.output = _
        rw [hout]
        exact (filter_of_any_false hO).symm
      · show s₁.session.peers.removeMemory key = _
        rw [hpeers]
  | false =>
    have hkept : s.session.transport.filter (fun t => decide (t.activationKey ≠ key)) =
        s.session.transport := by
      rw [hfil]; exact filter_of_any_false hT
    unfold doIf
    simp only [Bool.false_eq_true, if_false, ends_pure]
    cases hO : s.session.output.any fun g => g.dependsOn key with
    | true =>
      simp only [if_true, ends_bind, ends_edit]
      refine (stop_ends s).mono (fun _ s₁ h₁ => ?_) fun _ _ h₁ => ?_
      · refine ⟨⟨?_, (filter_of_any hO).symm, ?_⟩, ?_, fun h => absurd (Or.inr hO) h⟩
        · show s₁.session.transport = _
          rw [h₁.1, ClientNodeSession.stopped_transport, hkept]
        · show s₁.session.peers.removeMemory key = _
          rw [h₁.1, ClientNodeSession.stopped_peers]
        · show s₁.session.availableMemory = _
          rw [h₁.1, ClientNodeSession.stopped_memory]
      · obtain ⟨-, -, r, hr, href⟩ := h₁
        exact (hy (Or.inr hO) r hr).not_refused href
    | false =>
      simp only [Bool.false_eq_true, if_false, ends_pure]
      exact ⟨⟨hkept.symm, (filter_of_any_false hO).symm, rfl⟩, trivial, fun _ => trivial⟩

lemma restart_running (h : s.session.state = .running) (hr : s.session.isReady = true) :
    (restart s).2.session.state = .running := by
  refine (ends_state (I := fun s' : Sys => s'.session.state = .running)).1 ?_
  have hsame : s.session.refreshState = s.session := by
    unfold ClientNodeSession.refreshState; rw [h]
  unfold restart doIf
  simp only [ends_bind, ends_edit, ends_session, hsame]
  split_ifs with hgo
  swap
  · exact h
  rw [Bool.and_eq_true] at hgo
  unfold ensureRunning
  rw [ends_bind, ends_session, if_neg (by simp [hgo.1]), if_neg (by simp [hr])]
  refine Keeps.ends (I := fun n => n.state = .running) ?_ h
  refine (keeps_unwrap _).bind fun t => (keeps_outside _).bind fun st => ?_
  cases st with
  | inactive => exact (keeps_outside _).bind fun _ => keeps_edit fun _ _ => rfl
  | finished => exact keeps_edit fun _ _ => rfl
  | _ => exact keeps_raise _

end Owner

namespace Sys

/-- **A removal, as a command.** -/
theorem exec_removeMemory (s : Sys) (hc : s.session.Coherent)
    (hcl : s.session.state = .disconnected → s.session.Cleared) {key : MemoryKey}
    {script : List (List ServerAct)} (hy : s.Yields key script) (k : Kernel) :
    let s' := (s.exec (.command (.removeMemory key)) k script).2
    s.session.Dropped key s'.session ∧
      s'.session.availableMemory = s.session.availableMemory.retire key ∧
      (¬ s.session.Holds key → s.session.state = .running → s'.session.state = .running) := by
  refine (ends_state (p := Op.run k (.command (.removeMemory key))) (s := s.scripted script)
    (I := fun s' => s.session.Dropped key s'.session ∧
      s'.session.availableMemory = s.session.availableMemory.retire key ∧
      (¬ s.session.Holds key → s.session.state = .running → s'.session.state = .running))).1 ?_
  simp only [Op.run, ends_bind, ends_pure]
  by_cases hd : s.session.state = .disconnected
  · -- nothing is bound any more, and nothing is dropped
    have hcl := hcl hd
    have hsame : s.session.Dropped key s.session :=
      ⟨by rw [hcl.transport]; rfl, by rw [hcl.output]; rfl, by rw [hcl.peers]; rfl⟩
    have hmem : s.session.availableMemory = s.session.availableMemory.retire key := by
      unfold OrderedMemory.retire
      rw [hcl.availableMemory]
      rfl
    refine (Owner.apply_disconnected (s := s.scripted script) hd _).mono (fun _ s' h => ?_)
      fun _ s' h => ?_
    · exact absurd h.1 (by simp)
    · rw [h]
      exact ⟨hsame, hmem, fun _ h => h⟩
  · rw [Owner.apply_open (s := s.scripted script) hd hc.idle]
    unfold Owner.dispatch
    simp only [ends_bind, Owner.ends_edit, ends_pure]
    refine (Owner.removeMemory_drops (s := ⟨{ s.session with
      availableMemory := s.session.availableMemory.retire key }, (s.scripted script).world⟩)
      hy).mono (fun _ s₁ h => ?_) fun _ _ h => h.elim
    obtain ⟨hdrop, hmem, hsame⟩ := h
    have hfields : Owner.Keeps (fun n => s.session.Dropped key n ∧
        n.availableMemory = s.session.availableMemory.retire key) Owner.restart :=
      Owner.keeps_restart fun _ _ h => ⟨⟨h.1.transport, h.1.output, h.1.peers⟩, h.2⟩
    refine ends_state.2 ⟨?_, ?_, fun hno hrun => ?_⟩
    · exact (hfields s₁ ⟨⟨hdrop.transport, hdrop.output, hdrop.peers⟩, hmem⟩).1
    · exact (hfields s₁ ⟨⟨hdrop.transport, hdrop.output, hdrop.peers⟩, hmem⟩).2
    · have hses := hsame hno
      refine Owner.restart_running (by rw [hses]; exact hrun) ?_
      rw [hses]
      exact hc.ready hrun

/-- The move, if it announces memory, finds nothing available under its ID; if it removes memory,
it does not get stuck. -/
def Paced (s : Sys) : Move → Prop
  | .op (.command (.memoryAvailable lease)) _ _ =>
    s.session.availableMemory lease.key.id = none
  | .op (.command (.removeMemory key)) _ script => s.Yields key script
  | _ => True

lemma Applied.current {c : SessionCommand} {s s' : Sys} (h : Applied c s s')
    (hc : s.session.Current) (hp : ∀ lease, c = .memoryAvailable lease →
      s.session.availableMemory lease.key.id = none) (hr : ∀ key, c ≠ .removeMemory key) :
    s'.session.Current := by
  cases h with
  | ignored => exact hc
  | closed _ h =>
    obtain ⟨w, -, rfl⟩ := h
    exact ⟨by simp [ClientNodeSession.disconnected], by simp [ClientNodeSession.disconnected],
      by simp [ClientNodeSession.disconnected]⟩
  | edited _ _ h =>
    refine h.current ?_
    cases c with
    | memoryAvailable lease =>
      have hfree := hp lease rfl
      exact ⟨fun t ht => (hc.transport t ht).announce hfree,
        fun g hg key hkey => (hc.output g hg key hkey).announce hfree,
        fun n p hpeer => (hc.peers n p hpeer).announce hfree⟩
    | removeMemory key => exact absurd rfl (hr key)
    | _ => exact hc.of_eq rfl rfl rfl rfl

lemma move_current {s : Sys} (hcoh : s.session.Coherent)
    (hcl : s.session.state = .disconnected → s.session.Cleared) (hc : s.session.Current) {m : Move}
    (hp : s.Paced m) : (s.move m).session.Current := by
  cases m with
  | server a => exact hc
  | op o k script =>
    cases o with
    | command c =>
      by_cases hr : ∃ key, c = .removeMemory key
      · obtain ⟨key, rfl⟩ := hr
        obtain ⟨hdrop, hmem, -⟩ := s.exec_removeMemory hcoh hcl hp k
        exact hdrop.current hmem hc
      · refine (s.exec_command c k script).2.1.current hc ?_ fun key h => hr ⟨key, h⟩
        rintro lease rfl
        exact hp
    | wake w =>
      obtain ⟨-, st, -, hw⟩ := s.exec_wake hcoh w k script
      show (s.exec (.wake w) k script).2.session.Current
      generalize (s.exec (.wake w) k script).2 = s' at hw
      cases hw with
      | ignored | drained | cycle => exact hc.of_eq rfl rfl rfl rfl

/-- **Memory keys.** In every run that announces an ID only while nothing is available under it and
whose removals do not get stuck, every key that transport, output and peers hold is that of the
lease available for its ID; and a further removal that does not get stuck drops exactly what holds
its key, and does not stop a running session whose transport and output do not. -/
theorem keys_current (mem : Shm) (counter : Fd → ℕ) (moves : List Move)
    (hp : Along Paced (init mem counter) moves) :
    let s := (init mem counter).run moves
    s.session.Current ∧ ∀ key k script, s.Yields key script →
      let s' := (s.exec (.command (.removeMemory key)) k script).2
      s.session.Dropped key s'.session ∧
        (¬ s.session.Holds key → s.session.state = .running → s'.session.state = .running) := by
  intro s
  have hcoh : s.session.Coherent := run_coherent mem counter moves
  have hcl : s.session.state = .disconnected → s.session.Cleared := run_cleared mem counter moves
  refine ⟨?_, fun key k script hy => ?_⟩
  · refine (hp.keeps (I := fun s => s.session.Coherent ∧
      (s.session.state = .disconnected → s.session.Cleared) ∧ s.session.Current)
      (fun s' m h hm => ?_) ⟨ClientNodeSession.coherent_new, ?_, ?_⟩ moves (List.prefix_refl _)).2.2
    · obtain ⟨h₁, h₂, h₃⟩ := h
      exact ⟨s'.move_coherent m h₁, move_cleared h₁ h₂ m, move_current h₁ h₂ h₃ hm⟩
    · simp [init, ClientNodeSession.new]
    · constructor <;> simp [init, ClientNodeSession.new]
  · obtain ⟨hdrop, -, hrun⟩ := s.exec_removeMemory hcoh hcl hy k
    exact ⟨hdrop, hrun⟩

/-- The sample session, and the removal of its memory. -/
theorem keys_current_sample :
    ((((init Sample.mem Sample.counter).run Sample.start).exec
      (.command (.removeMemory ⟨1, 1⟩)) Sample.kernel []).2.session.transport) =
    ((init Sample.mem Sample.counter).run Sample.start).session.transport.filter
      fun t => decide (t.activationKey ≠ ⟨1, 1⟩) := by
  have hp : Along Paced (init Sample.mem Sample.counter) Sample.start :=
    .next trivial <| .next trivial <| .next trivial <| .next trivial <| .next trivial <|
      .next (by show _ = none; decide +kernel) <| .next trivial <| .next trivial <| .done _
  have hown : ((init Sample.mem Sample.counter).run Sample.start).session.own =
      some ⟨Sample.backing, 0, 2312⟩ := by decide +kernel
  have hver : ((init Sample.mem Sample.counter).run Sample.start).world.mem.word
      (versionOf ⟨Sample.backing, 0, 2312⟩) 4 = 1 := by decide +kernel
  have hst : ((init Sample.mem Sample.counter).run Sample.start).world.mem.word
      (statusOf ⟨Sample.backing, 0, 2312⟩) 4 ≤ 4 := by decide +kernel
  exact ((keys_current Sample.mem Sample.counter Sample.start hp).2 ⟨1, 1⟩ Sample.kernel []
    (yields_quiet hown ⟨hver, hst⟩)).1.transport

/-- The server takes its version out of the sample session's own record, and then the memory is
removed: the removal is refused, and what it would have dropped stays bound to memory that is no
longer available. -/
theorem removal_stuck :
    let s := ((init Sample.mem Sample.counter).run Sample.start).move
      (.server (.store ⟨Sample.backing, 544⟩ [0, 0, 0, 0]))
    let x := s.exec (.command (.removeMemory ⟨1, 1⟩)) Sample.kernel []
    x.1.isOk = false ∧ x.2.session.availableMemory 1 = none ∧
      (x.2.session.transport.map (·.activationKey)) = some ⟨1, 1⟩ ∧ ¬ x.2.session.Current ∧
      ¬ s.session.Dropped ⟨1, 1⟩ x.2.session := by
  intro s x
  have hkey : (x.2.session.transport.map (·.activationKey)) = some ⟨1, 1⟩ := by decide +kernel
  have hnone : x.2.session.availableMemory 1 = none := by decide +kernel
  exact ⟨by decide +kernel, hnone, hkey, ClientNodeSession.not_current hnone hkey rfl,
    ClientNodeSession.not_dropped hkey⟩

end Sys

end PipewireNative.Node
