import PipewireNative.Node.Lifecycle
import PipewireNative.Node.Quiet

/-!
Transport candidates that are rejected. A candidate announces the client's version in its record
while it is built, and takes the record out of scheduling when it is dropped. Whether a rejection
leaves the memory as it was therefore depends on how far the candidate came and on what the record
said before.
-/

namespace PipewireNative.Node

open Lib Lib.Word Prog World Sys

/-! ### Stores that change nothing -/

section Stores

variable {m : Shm} {r : MemoryInterval}

/-- The record announces the client's version. -/
def Greeted (m : Shm) (r : MemoryInterval) : Prop :=
  m.word ⟨r.obj, r.start + Abi.clientVersion⟩ 4 = activationVersion

def Inactive (m : Shm) (r : MemoryInterval) : Prop :=
  m.word (statusOf r) 4 = ActivationStatus.inactive.code

instance (m : Shm) (r : MemoryInterval) : Decidable (Greeted m r) := by
  unfold Greeted; infer_instance

instance (m : Shm) (r : MemoryInterval) : Decidable (Inactive m r) := by
  unfold Inactive; infer_instance

lemma greeted_eq_self : greeted r m = m ↔ Greeted m r :=
  Memory.setWord_eq_self_iff (by decide)

lemma rested_eq_self : rested r m = m ↔ Inactive m r :=
  Memory.setWord_eq_self_iff (ActivationStatus.code_lt _)

lemma greeted_inactive (hr : IsRecord r) : Inactive (greeted r m) r ↔ Inactive m r := by
  unfold Inactive
  rw [greeted_word hr hr.status_aligned]

/-- A candidate that was dropped has changed nothing where both stores found what they store. -/
lemma rested_greeted_eq_self (hr : IsRecord r) :
    rested r (greeted r m) = m ↔ Greeted m r ∧ Inactive m r := by
  constructor
  · intro h
    have hin : Inactive m r := by
      rw [← h]
      exact rested_status
    rw [rested_eq_self.2 ((greeted_inactive hr).2 hin)] at h
    exact ⟨greeted_eq_self.1 h, hin⟩
  · rintro ⟨han, hin⟩
    rw [greeted_eq_self.2 han, rested_eq_self.2 hin]

end Stores

/-! ### How far a candidate comes -/

/-- The candidate that a descriptor describes comes as far as its record in `r`: there is a number
for it, its region is mapped, and the record has the version supported. -/
structure ClientNodeSession.Reaches (s : ClientNodeSession) (k : Kernel) (m : Shm)
    (d : TransportDescriptor) (r : MemoryInterval) : Prop where
  room : s.nextGeneration + 1 < usizeBound
  mapped : ∃ key mapping, s.availableMemory.resolve d.activation.memory = .ok key ∧
    s.availableMemory.map (k.map .activation) key d.activation.offset d.activation.len = .ok mapping ∧
    mapping.Record m ∧ mapping.interval = r

/-- The kernel takes both eventfds. -/
def TransportDescriptor.Signals (k : Kernel) (d : TransportDescriptor) : Prop :=
  k.fcntl d.triggerFd = none ∧ k.fcntl d.completionFd = none

/-- **When a rejected candidate spares the memory.** It does not come as far as its record, or the
record announces the client's version already. When the eventfds are taken, the record is also out
of scheduling already, and when nothing is in the way of the candidate, the session's own record
has lost its version. -/
def ClientNodeSession.Spares (s : ClientNodeSession) (k : Kernel) (m : Shm) (d : TransportDescriptor) :
    Prop :=
  ∀ r, s.Reaches k m d r → Greeted m r ∧ (d.Signals k → Inactive m r ∧
    ((∀ i ∈ s.outputIntervals ++ s.peers.intervals, r.Disjoint i) →
      ∀ own, s.own = some own → m.word (versionOf own) 4 ≠ 1))

section Candidates

variable {m : Shm} {w : World} {k : Kernel} {memory : OrderedMemory} {s : ClientNodeSession}
  {d : TransportDescriptor} {r r' : MemoryInterval}

lemma ClientNodeSession.Reaches.unique (h : s.Reaches k m d r) (h' : s.Reaches k m d r') : r = r' := by
  obtain ⟨key, mapping, hkey, hmap, -, rfl⟩ := h.mapped
  obtain ⟨key', mapping', hkey', hmap', -, rfl⟩ := h'.mapped
  cases hkey.symm.trans hkey'
  cases hmap.symm.trans hmap'
  rfl

lemma ClientNodeSession.Reaches.isRecord (h : s.Reaches k m d r) : IsRecord r := by
  obtain ⟨key, mapping, -, -, hrec, rfl⟩ := h.mapped
  exact hrec.isRecord

lemma fromOwnedFd_ok {fd fd' : Fd} (h : EventFd.fromOwnedFd k fd = .ok fd') : k.fcntl fd = none := by
  unfold EventFd.fromOwnedFd at h
  cases hf : k.fcntl fd with
  | none => rfl
  | some e => rw [hf] at h; cases h

lemma fromOwnedFd_error {fd : Fd} {e : IoError} (h : EventFd.fromOwnedFd k fd = .error e) :
    k.fcntl fd ≠ none := by
  intro hf
  unfold EventFd.fromOwnedFd at h
  rw [hf] at h
  cases h

/-- A candidate is built with the version announced in its record. One that is not has not come to
its record, or the kernel refused an eventfd. -/
theorem TransportGeneration.bind_reaches (hw : w.At m) (id : ℕ)
    (hroom : s.nextGeneration + 1 < usizeBound) : (bind k id d s.availableMemory).Ends w
      (fun t w' => s.Reaches k m d t.interval ∧ d.Signals k ∧ t.For k s.availableMemory d ∧
        w'.At (greeted t.interval m))
      (fun _ w' => (w'.At m ∧ ∀ r, ¬ s.Reaches k m d r) ∨
        ∃ r, s.Reaches k m d r ∧ ¬ d.Signals k ∧ w'.At (greeted r m)) := by
  unfold bind
  simp only [ends_bind, ends_mapErr, ends_ofExcept]
  split
  case h_2 =>
    rename_i e hkey
    refine .inl ⟨hw, fun r hr => ?_⟩
    obtain ⟨key, mapping, hkey', -⟩ := hr.mapped
    cases hkey.symm.trans hkey'
  rename_i key hkey
  split
  case h_2 =>
    rename_i e hmap
    refine .inl ⟨hw, fun r hr => ?_⟩
    obtain ⟨key', mapping, hkey', hmap', -⟩ := hr.mapped
    cases hkey.symm.trans hkey'
    cases hmap.symm.trans hmap'
  rename_i mapping hmap
  refine (ActivationView.fromRawParts_at hw mapping).mono (fun v w₁ h => ?_) fun _ w₁ h => ?_
  · obtain ⟨rfl, hrec, hw₁⟩ := h
    have hreaches : s.Reaches k m d v.region.interval := ⟨hroom, key, _, hkey, hmap, hrec, rfl⟩
    simp only [ends_note, ActivationView.initializeClientV1, storeWord]
    refine (hw₁.perform (.candidate v.region.interval)).ends_store fun w₂ hw₂ => ?_
    split
    case h_2 =>
      rename_i e he
      exact .inr ⟨_, hreaches, fun hsig => fromOwnedFd_error he hsig.1, hw₂⟩
    rename_i trigger htrigger
    split
    case h_2 =>
      rename_i e he
      exact .inr ⟨_, hreaches, fun hsig => fromOwnedFd_error he hsig.2, hw₂⟩
    rename_i completion hcompletion
    exact ⟨hreaches, ⟨fromOwnedFd_ok htrigger, fromOwnedFd_ok hcompletion⟩,
      ⟨hkey, hmap, htrigger, hcompletion⟩, hw₂⟩
  · refine .inl ⟨h.2, fun r hr => ?_⟩
    obtain ⟨key', mapping', hkey', hmap', hrec, -⟩ := hr.mapped
    cases hkey.symm.trans hkey'
    cases hmap.symm.trans hmap'
    exact h.1 hrec

end Candidates

/-! ### What the rejection leaves -/

section Left

variable {m : Shm} {k : Kernel} {s : ClientNodeSession} {d : TransportDescriptor} {r : MemoryInterval}

lemma spares_of_not_reaches (h : ∀ r, ¬ s.Reaches k m d r) : s.Spares k m d :=
  fun r hr => absurd hr (h r)

lemma ClientNodeSession.Reaches.spares_iff (h : s.Reaches k m d r) :
    s.Spares k m d ↔ Greeted m r ∧ (d.Signals k → Inactive m r ∧
      ((∀ i ∈ s.outputIntervals ++ s.peers.intervals, r.Disjoint i) →
        ∀ own, s.own = some own → m.word (versionOf own) 4 ≠ 1)) := by
  constructor
  · intro hs
    exact hs r h
  · intro hs r' hr'
    rw [hr'.unique h]
    exact hs

lemma ClientNodeSession.Reaches.unsignalled (h : s.Reaches k m d r) (hsig : ¬ d.Signals k) :
    greeted r m = m ↔ s.Spares k m d := by
  rw [h.spares_iff, greeted_eq_self]
  exact ⟨fun han => ⟨han, fun h' => absurd h' hsig⟩, fun h' => h'.1⟩

lemma ClientNodeSession.Reaches.overlapping (h : s.Reaches k m d r) (hsig : d.Signals k)
    (hover : ¬ ∀ i ∈ s.outputIntervals ++ s.peers.intervals, r.Disjoint i) :
    rested r (greeted r m) = m ↔ s.Spares k m d := by
  rw [h.spares_iff, rested_greeted_eq_self h.isRecord]
  constructor
  · rintro ⟨han, hin⟩
    exact ⟨han, fun _ => ⟨hin, fun hdis => absurd hdis hover⟩⟩
  · rintro ⟨han, hrest⟩
    exact ⟨han, (hrest hsig).1⟩

lemma ClientNodeSession.Reaches.unstopped (h : s.Reaches k m d r) (hsig : d.Signals k)
    (hdis : ∀ i ∈ s.outputIntervals ++ s.peers.intervals, r.Disjoint i) (hno : ¬ s.Answers m) :
    (if (s.resisted (greeted r m)).word (versionOf r) 4 = 1 then rested r (s.resisted (greeted r m))
      else s.resisted (greeted r m)) = m ↔ s.Spares k m d := by
  have hr := h.isRecord
  have hver : m.word (versionOf r) 4 = 1 := by
    obtain ⟨key, mapping, -, -, hrec, rfl⟩ := h.mapped
    exact hrec.version
  unfold ClientNodeSession.Answers at hno
  push Not at hno
  obtain ⟨own, hown, hno⟩ := hno
  have hownr := ClientNodeSession.own_isRecord hown
  rw [h.spares_iff]
  by_cases hlost : m.word (versionOf own) 4 = 1
  · -- the own record is taken out of scheduling, whatever its word was
    have hstatus : 4 < m.word (statusOf own) 4 := by
      by_contra hle
      exact hno ⟨hlost, by omega⟩
    have hres : s.resisted (greeted r m) = rested own (greeted r m) := by
      unfold ClientNodeSession.resisted
      rw [hown]
      exact if_pos (by rw [greeted_word hr hownr.version_aligned]; exact hlost)
    have hfour : ∀ m' : Shm, m'.word (statusOf own) 4 = 4 → m' ≠ m := by
      rintro m' hm' rfl
      omega
    have hrested : (rested own (greeted r m)).word (statusOf own) 4 = 4 := rested_status
    rw [hres]
    refine ⟨fun heq => absurd heq ?_, fun hs => absurd hlost ((hs.2 hsig).2 hdis own hown)⟩
    split_ifs
    · refine hfour _ ?_
      by_cases hsame : statusOf own = statusOf r
      · rw [hsame]
        exact rested_status
      · rw [rested_word hr hownr.status_aligned hsame]
        exact hrested
    · exact hfour _ hrested
  · have hres : s.resisted (greeted r m) = greeted r m := by
      unfold ClientNodeSession.resisted
      rw [hown]
      exact if_neg (by rw [greeted_word hr hownr.version_aligned]; exact hlost)
    rw [hres, if_pos (by rw [greeted_word hr hr.version_aligned]; exact hver),
      rested_greeted_eq_self hr]
    constructor
    · rintro ⟨han, hin⟩
      refine ⟨han, fun _ => ⟨hin, fun _ own' hown' => ?_⟩⟩
      cases hown.symm.trans hown'
      exact hlost
    · rintro ⟨han, hrest⟩
      exact ⟨han, (hrest hsig).1⟩

end Left

namespace Owner

variable {s : Sys} {m : Shm} {k : Kernel} {d : TransportDescriptor}

/-- **A transport that is not installed** leaves the memory as it was exactly when it spares it. -/
theorem bindTransport_spares (hs : s.world.At m) (hd : s.session.pendingTransport = some d) :
    (bindTransport k).Ends s (fun _ _ => True)
      (fun _ s' => s'.world.script = [] ∧ (s'.world.mem = m ↔ s.session.Spares k m d)) := by
  unfold bindTransport
  rw [ends_bind, ends_session, hd]
  simp only [ends_bind, ends_check, unresolved_resolve, ends_ite, ends_pure,
    ends_edit, Option.isNone_iff_eq_none]
  refine ⟨fun _ => trivial, fun hres => ?_⟩
  refine allocateGeneration_at.mono (fun n s₁ h => ?_) fun _ s₁ h => ?_
  swap
  · rw [h.2]
    refine ⟨hs.quiet, fun _ => spares_of_not_reaches fun r hr => h.1 hr.room, fun _ => hs.mem⟩
  obtain ⟨hroom, rfl, rfl⟩ := h
  rw [ends_outside]
  refine (TransportGeneration.bind_reaches (s := s.session) hs _ hroom).mono (fun t w h => ?_)
    fun _ w h => ?_
  swap
  · rcases h with ⟨hw, hno⟩ | ⟨r, hr, hsig, hw⟩
    · exact ⟨hw.quiet, fun _ => spares_of_not_reaches hno, fun _ => hw.mem⟩
    · refine ⟨hw.quiet, ?_⟩
      rw [← hr.unsignalled hsig]
      show w.mem = m ↔ _
      rw [hw.mem]
  obtain ⟨hr, hsig, hfor, hw⟩ := h
  rw [ends_onFail]
  simp only [ends_bind, ends_check]
  split
  · rename_i hok
    have hdis : ∀ i ∈ s.session.outputIntervals ++ s.session.peers.intervals, t.interval.Disjoint i :=
      fun i hi => ensureDisjoint_ok.1 hok _ (List.mem_singleton.2 rfl) i hi
    refine (stop_at hw).mono (fun _ s₂ h => ?_) fun _ s₂ h => ?_
    · exact (setTransport_at h.2.2 (some t)).mono (fun _ _ _ => trivial) fun _ _ h => h.elim
    · obtain ⟨hans, hses, hw₂⟩ := h
      have hno : ¬ s.session.Answers m := fun h => hans ((answers_greeted t.isRecord).2 h)
      have hdrop := (t.drop_at hw₂ (ε := Empty)).state (fun _ _ h => h) fun _ _ h => h.elim
      refine ⟨hdrop.quiet, ?_⟩
      rw [← hr.unstopped hsig hdis hno]
      show ((t.drop : Prog World Empty Unit) s₂.world).2.mem = m ↔ _
      rw [hdrop.mem]
      rfl
  · rename_i e hover
    have hver : (greeted t.interval m).word (versionOf t.interval) 4 = 1 := by
      obtain ⟨key, mapping, -, -, hrec, heq⟩ := hr.mapped
      rw [greeted_word t.isRecord t.isRecord.version_aligned, ← heq]
      exact hrec.version
    have hdrop : ((t.drop : Prog World Empty Unit) w).2.At
        (rested t.interval (greeted t.interval m)) :=
      (t.drop_at hw).state (fun _ _ h => by rw [if_pos hver] at h; exact h) fun _ _ h => h.elim
    have hway : ¬ ∀ i ∈ s.session.outputIntervals ++ s.session.peers.intervals,
        t.interval.Disjoint i := by
      intro hap
      refine absurd (hover.symm.trans (ensureDisjoint_ok (u := ()).2 fun i hi j hj => ?_)) (by simp)
      rw [List.mem_singleton.1 hi]
      exact hap j hj
    refine ⟨hdrop.quiet, ?_⟩
    rw [← hr.overlapping hsig hway]
    show ((t.drop : Prog World Empty Unit) w).2.mem = m ↔ _
    rw [hdrop.mem]

end Owner

/-! ### Commands -/

/-- `ReplaceTransport` is refused, and the candidate is not installed. -/
def Sys.Rejects (s : Sys) (k : Kernel) (d : TransportDescriptor) : Prop :=
  (s.exec (.command (.replaceTransport d)) k []).1.isOk = false ∧
    (s.exec (.command (.replaceTransport d)) k []).2.session.transport = s.session.transport

lemma ClientNodeSession.spares_pending {s : ClientNodeSession} {k : Kernel} {m : Shm}
    {d : TransportDescriptor} {p : Option TransportDescriptor} :
    ({ s with pendingTransport := p } : ClientNodeSession).Spares k m d ↔ s.Spares k m d :=
  ⟨fun h r hr => h r ⟨hr.room, hr.mapped⟩, fun h r hr => h r ⟨hr.room, hr.mapped⟩⟩

lemma ClientNodeSession.spares_of_unavailable {s : ClientNodeSession} {k : Kernel} {m : Shm}
    {d : TransportDescriptor} (h : s.availableMemory d.activation.memory = none) : s.Spares k m d := by
  refine spares_of_not_reaches fun r hr => ?_
  obtain ⟨key, mapping, hkey, -⟩ := hr.mapped
  unfold OrderedMemory.resolve at hkey
  rw [h] at hkey
  cases hkey

lemma Sys.Rejects.spares_iff {s : Sys} {k : Kernel} {d : TransportDescriptor}
    (hidle : s.session.state ≠ .cycleClaimed) (hfresh : s.session.Fresh)
    (hcleared : s.session.state = .disconnected → s.session.Cleared) (h : s.Rejects k d) :
    (s.exec (.command (.replaceTransport d)) k []).2.world.mem = s.world.mem ↔
      s.session.Spares k s.world.mem d := by
  obtain ⟨hfail, hsame⟩ := h
  refine Prog.Ends.result (p := Op.run k (.command (.replaceTransport d))) (s := s.scripted [])
    (R := fun r s' => r.isOk = false → s'.session.transport = s.session.transport →
      (s'.world.mem = s.world.mem ↔ s.session.Spares k s.world.mem d)) ?_ hfail hsame
  have hs : (s.scripted []).world.At s.world.mem := ⟨rfl, rfl⟩
  simp only [Op.run, ends_bind, ends_pure]
  by_cases hd : s.session.state = .disconnected
  · refine (Owner.apply_disconnected (s := s.scripted []) hd _).mono (fun _ s' h => ?_) fun _ s' h => ?_
    · cases h.1
    · intro _ _
      rw [h]
      have hmem : s.session.availableMemory d.activation.memory = none := by
        rw [(hcleared hd).availableMemory]
      exact ⟨fun _ => ClientNodeSession.spares_of_unavailable hmem, fun _ => rfl⟩
  · rw [Owner.apply_open (s := s.scripted []) hd hidle]
    simp only [Owner.dispatch, ends_bind, Owner.ends_edit]
    refine ((Owner.bindTransport_at (k := k) (s := ⟨{ s.session with pendingTransport := some d },
      (s.scripted []).world⟩) hs rfl).and (Owner.bindTransport_spares hs rfl)).mono
        (fun o s₁ h => ?_) fun _ s₁ h => ?_
    · rcases h.1 with ⟨-, hmem, hses, hw⟩ | ⟨-, -, -, t, -, hid, hses, hw⟩
      · refine (Owner.restart_at hw).mono (fun _ _ _ hok => by cases hok) fun _ s₂ h₂ => ?_
        intro _ _
        refine ⟨fun _ => ClientNodeSession.spares_of_unavailable hmem, fun _ => h₂.2.2.2.mem⟩
      · refine (Owner.restart_at hw).mono (fun _ _ _ hok => by cases hok) fun _ s₂ h₂ => ?_
        intro _ htransport
        -- the candidate is in place, under a number that no transport had
        rw [h₂.2.2.1, ClientNodeSession.refreshState_eq, hses] at htransport
        have hless := hfresh.transport t htransport.symm
        rw [hid] at hless
        exact absurd hless (lt_irrefl _)
    · intro _ _
      exact h.2.2.trans ClientNodeSession.spares_pending

/-- **Rejected transports.** A `ReplaceTransport` whose candidate is not installed leaves every byte
of the shared memory as it was exactly when the candidate spares it. -/
theorem Sys.rejected_spares_iff (mem : Shm) (counter : Fd → ℕ) (moves : List Move) (k : Kernel)
    (d : TransportDescriptor) (h : ((init mem counter).run moves).Rejects k d) :
    (((init mem counter).run moves).exec (.command (.replaceTransport d)) k []).2.world.mem =
        ((init mem counter).run moves).world.mem ↔
      ((init mem counter).run moves).session.Spares k ((init mem counter).run moves).world.mem d :=
  h.spares_iff (run_coherent mem counter moves).idle (run_fresh mem counter moves)
    (run_cleared mem counter moves)

def Sample.greetedMem : Shm := fun o a => if a = 540 then 1 else Sample.mem o a

def Sample.strictKernel : Kernel :=
  { Sample.kernel with fcntl := fun _ => some (.custom .invalidInput "") }

/-- The sample transport on a record that announces the version already, with eventfds that are
refused. -/
theorem Sys.rejected_spares_greeted :
    (((init Sample.greetedMem Sample.counter).run [Sample.command (.memoryAvailable Sample.lease)]).exec
      (.command (.replaceTransport Sample.transport)) Sample.strictKernel []).2.world.mem =
        ((init Sample.greetedMem Sample.counter).run
          [Sample.command (.memoryAvailable Sample.lease)]).world.mem := by
  refine (rejected_spares_iff Sample.greetedMem Sample.counter
    [Sample.command (.memoryAvailable Sample.lease)] Sample.strictKernel Sample.transport
      ⟨by decide +kernel, ?_⟩).2 ?_
  · exact (Option.isNone_iff_eq_none.1 (by decide +kernel)).trans
      (Option.isNone_iff_eq_none.1 (by decide +kernel)).symm
  · intro r hr
    obtain ⟨key, mapping, hkey, hmap, -, rfl⟩ := hr.mapped
    have hinterval : mapping.interval = ⟨Sample.backing, 0, 2312⟩ := by
      cases hkey
      have heval : (((init Sample.greetedMem Sample.counter).run
          [Sample.command (.memoryAvailable Sample.lease)]).session.availableMemory.map
            (Sample.strictKernel.map .activation) ⟨1, 1⟩ 0 2312).toOption.map (·.interval) =
              some ⟨Sample.backing, 0, 2312⟩ := by decide +kernel
      have hsome := (congrArg (fun x => (Except.toOption x).map MemoryMapping.interval) hmap).symm.trans heval
      exact Option.some.inj hsome
    rw [hinterval]
    exact ⟨by decide +kernel, fun hsig => absurd hsig.1 (by decide)⟩

/-- The record of the sample session's peer is offered as its own. The candidate is refused because
the peer is in the way, and the peer's record has been taken out of scheduling. -/
theorem Sys.rejected_peer :
    errorOf (((init Sample.mem Sample.counter).run Sample.start).exec
        (.command (.replaceTransport ⟨10, 11, ⟨1, 4096, 2312⟩⟩)) Sample.kernel []).1 =
        some (.error (.invalidTransition "overlapping generation mappings")) ∧
      ((init Sample.mem Sample.counter).run Sample.start).world.mem Sample.backing 4096 = 0 ∧
      (((init Sample.mem Sample.counter).run Sample.start).exec
        (.command (.replaceTransport ⟨10, 11, ⟨1, 4096, 2312⟩⟩)) Sample.kernel []).2.world.mem
          Sample.backing 4096 = 4 :=
  ⟨by decide +kernel, by decide +kernel, by decide +kernel⟩

end PipewireNative.Node
