import PipewireNative.Node.Fault
import PipewireNative.Node.Propagate

/-!
When the output is written. The media, the chunks, the IO record and the process result are written
while a cycle is claimed, and not once the exchange that ends it has been made: as long as the
finish clock returns, or there is nothing to take back.
-/

namespace PipewireNative.Node

open Lib Lib.Word Prog World

/-- The media bytes, the fields of a chunk, the IO record and the process result. -/
def outputFields : List Field :=
  [.media, .chunkOffset, .chunkSize, .chunkStride, .chunkFlags, .ioBufferId, .ioStatus,
    .processResult]

def Action.OutputWrite : Action → Prop
  | .store f _ _ => f ∈ outputFields
  | _ => False

instance : DecidablePred Action.OutputWrite := fun a => by
  cases a with
  | store f l bs => exact inferInstanceAs (Decidable (f ∈ outputFields))
  | _ => exact isFalse id

/-- The status of a record was moved from `a` to `b`. -/
def Action.moved (a b : ActivationStatus) : Action → Bool
  | .exchange f _ expected desired seen =>
    decide (f = .status ∧ expected = a.code ∧ desired = b.code ∧ seen = a.code)
  | _ => false

/-- The action would end a cycle: the exchange from `AWAKE` to `FINISHED`, whether it succeeds or
not, and the swap that takes a record out of scheduling. -/
def Action.closing : Action → Bool
  | .exchange f _ expected desired _ =>
    decide (f = .status ∧ expected = ActivationStatus.awake.code ∧
      desired = ActivationStatus.finished.code)
  | .swap f _ _ _ => decide (f = .status)
  | _ => false

/-- A cycle is claimed: since the status was last moved to `AWAKE`, nothing was done that would end
the cycle. The newest event of a log comes first. -/
def World.claimed : List Event → Bool
  | [] => false
  | .own a :: log => a.moved .triggered .awake || !a.closing && claimed log
  | .server _ _ :: log => claimed log

/-- The output is written only while a cycle is claimed. -/
def World.Sealed (log : List Event) : Prop :=
  ∀ post a pre, log = post ++ .own a :: pre → a.OutputWrite → claimed pre = true

/-! ### How a log grows -/

section Logs

variable {log : List Event} {a : Action} {tr : List Action} {w w' : World}

lemma World.sealed_cons : Sealed (.own a :: log) ↔ (a.OutputWrite → claimed log = true) ∧ Sealed log := by
  constructor
  · exact fun h => ⟨h [] a log rfl, fun post b pre e => h (.own a :: post) b pre (by rw [e]; rfl)⟩
  · rintro ⟨ha, h⟩ post b pre e hb
    cases post with
    | nil => cases e; exact ha hb
    | cons x post =>
      obtain ⟨-, rfl⟩ : _ ∧ log = post ++ .own b :: pre := List.cons.inj e
      exact h post b pre rfl hb

lemma World.sealed_server {m m' : Shm} : Sealed (.server m m' :: log) ↔ Sealed log := by
  constructor
  · exact fun h post b pre e => h (.server m m' :: post) b pre (by rw [e]; rfl)
  · rintro h post b pre e hb
    cases post with
    | nil => cases e
    | cons x post =>
      obtain ⟨-, rfl⟩ : _ ∧ log = post ++ .own b :: pre := List.cons.inj e
      exact h post b pre rfl hb

instance decidableSealed : (log : List Event) → Decidable (Sealed log)
  | [] => isTrue fun post a pre e => by simp at e
  | .own _ :: log =>
    haveI := decidableSealed log
    decidable_of_iff _ sealed_cons.symm
  | .server _ _ :: log =>
    haveI := decidableSealed log
    decidable_of_iff _ sealed_server.symm

lemma World.Did.sealed (h : Did tr w w') (htr : ∀ a ∈ tr, ¬ a.OutputWrite) (hs : Sealed w.log) :
    Sealed w'.log := by
  obtain ⟨new, hl, rfl⟩ := h
  rw [hl]
  clear hl
  induction new with
  | nil => exact hs
  | cons e new ih =>
    have hnew : ∀ a ∈ actions new, ¬ a.OutputWrite := fun a ha =>
      htr a (mem_actions.2 (List.mem_cons_of_mem _ (mem_actions.1 ha)))
    cases e with
    | own a =>
      exact sealed_cons.2 ⟨fun ha => absurd ha (htr a (mem_actions.2 List.mem_cons_self)), ih hnew⟩
    | server m m' => exact sealed_server.2 (ih hnew)

lemma World.Did.claimed (h : Did tr w w') (htr : ∀ a ∈ tr, a.closing = false)
    (hs : Sealed w.log ∧ claimed w.log = true) : Sealed w'.log ∧ claimed w'.log = true := by
  obtain ⟨new, hl, rfl⟩ := h
  rw [hl]
  clear hl
  induction new with
  | nil => exact hs
  | cons e new ih =>
    have hnew : ∀ a ∈ actions new, a.closing = false := fun a ha =>
      htr a (mem_actions.2 (List.mem_cons_of_mem _ (mem_actions.1 ha)))
    obtain ⟨hseal, hclaim⟩ := ih hnew
    cases e with
    | own a =>
      refine ⟨sealed_cons.2 ⟨fun _ => hclaim, hseal⟩, ?_⟩
      simp [World.claimed, htr a (mem_actions.2 List.mem_cons_self), hclaim]
    | server m m' => exact ⟨sealed_server.2 hseal, hclaim⟩

lemma World.Logs.sealed {P : Action → Prop} (h : Logs P w w') (hP : ∀ a, P a → ¬ a.OutputWrite)
    (hs : Sealed w.log) : Sealed w'.log := by
  obtain ⟨tr, hd, ha⟩ := h.did
  exact hd.sealed (fun a h => hP a (ha a h)) hs

lemma World.Steps.sealed {P : Action → Prop} (h : Steps P w w') (hP : ∀ a, P a → ¬ a.OutputWrite)
    (hs : Sealed w.log) : Sealed w'.log := h.log.sealed hP hs

lemma World.Steps.claimed {P : Action → Prop} (h : Steps P w w')
    (hP : ∀ a, P a → a.closing = false)
    (hs : Sealed w.log ∧ World.claimed w.log = true) :
    Sealed w'.log ∧ World.claimed w'.log = true := by
  obtain ⟨tr, hd, ha⟩ := h.did
  exact hd.claimed (fun a h => hP a (ha a h)) hs

lemma World.Idle.not_write {r : MemoryInterval} (h : Idle r a) : ¬ a.OutputWrite := by
  cases a <;> first | exact id | exact h.elim

lemma World.Commanding.not_write (h : Commanding a) : ¬ a.OutputWrite := by
  cases a with
  | store f l bs => rw [show f = .clientVersion from h]; simp [Action.OutputWrite, outputFields]
  | _ => exact id

lemma World.Reads.not_write (h : Reads a) : ¬ a.OutputWrite := by
  cases a <;> first | exact id | exact h.elim

end Logs

/-! ### The phases -/

section Phases

variable {t : TransportGeneration} {g : OutputGeneration} {wake : Owner.Wake} {w w' : World} {ns : ℕ}

lemma Opened.claimed {awakeNs : ℕ} (h : Opened t awakeNs w w') (hs : Sealed w.log) :
    Sealed w'.log ∧ claimed w'.log = true := by
  obtain ⟨w₁, w₂, hidle, -, ⟨-, rfl⟩, rfl⟩ := h
  have h₁ := hidle.sealed (fun _ => Idle.not_write) hs
  have h₂ := (Did.interfere w₁).sealed (by simp) h₁
  have h₃ : Sealed (w₁.interfere.perform (.exchange .status (statusOf t.interval)
      ActivationStatus.triggered.code ActivationStatus.awake.code
      ActivationStatus.triggered.code)).log := sealed_cons.2 ⟨fun h => h.elim, h₂⟩
  exact Did.claimed (.access _ _) (by simp [Action.closing]) ⟨h₃, rfl⟩

lemma Ran.claimed {result : Except SessionError (Option PublishedOutput)} (hg : g.Sound)
    (h : Ran t g wake w result ns w') (hs : Sealed w.log) :
    Sealed w'.log ∧ World.claimed w'.log = true := by
  obtain ⟨p, w₁, w₂, status, hopen, hproc, -, rfl⟩ := h
  have hw₂ : w₂ = (g.process wake.callback w₁).2 := by rw [hproc]
  have h₁ := (OutputGeneration.does_process_within hg wake.callback w₁).claimed
    (fun a ha => by cases a <;> first | rfl | exact ha.elim) (hopen.claimed hs)
  rw [← hw₂] at h₁
  have h₂ := Did.claimed (.access w₂ (.store .processResult (t.activation.at_ Abi.state0Status)
    (leBytes 4 (ofI32 status)))) (by simp [Action.closing]) h₁
  exact Did.claimed (.access _ _) (by simp [Action.closing]) h₂

/-- The exchange that ends a cycle writes nothing of the output. -/
lemma Shifts.sealed {a b : ActivationStatus} (h : Shifts t.interval a b w w') (hs : Sealed w.log) :
    Sealed w'.log := by
  obtain ⟨-, rfl⟩ := h
  exact Did.sealed (.access _ _) (by simp [Action.OutputWrite, outputFields]) hs

lemma PeerActivation.Attempt.not_write {p : PeerActivation} {tr : List Action}
    (h : p.Attempt ns tr) : ∀ a ∈ tr, ¬ a.OutputWrite := by
  have hprobe : ∀ {a}, p.Probes a → ¬ a.OutputWrite := fun {a} ha => by
    cases a <;> first | exact id | exact ha.elim
  have hload : ∀ v, ¬ (p.versionLoad v).OutputWrite := fun _ => id
  have hdec : ∀ count, ¬ (p.decrement count).OutputWrite := fun _ => id
  have hstatus : ∀ seen, ¬ (p.statusExchange seen).OutputWrite := fun _ => id
  have htime : ¬ (p.timeStore ns).OutputWrite := by simp [timeStore, Action.OutputWrite, outputFields]
  intro a ha
  cases h with
  | unsupported v => rw [List.mem_singleton.1 ha]; exact hload v
  | exhausted probes b hp =>
    rcases List.mem_cons.1 ha with rfl | ha
    · exact hload _
    · exact hprobe (hp a ha)
  | waiting probes count hp =>
    simp only [List.mem_cons, List.mem_append, List.not_mem_nil, or_false] at ha
    rcases ha with rfl | ha | rfl
    · exact hload _
    · exact hprobe (hp a ha)
    · exact hdec _
  | missed probes seen hp =>
    simp only [List.mem_cons, List.mem_append, List.not_mem_nil, or_false] at ha
    rcases ha with rfl | ha | rfl | rfl
    · exact hload _
    · exact hprobe (hp a ha)
    · exact hdec _
    · exact hstatus _
  | signalled probes b hp hb =>
    simp only [List.mem_cons, List.mem_append, List.not_mem_nil, or_false] at ha
    rcases ha with rfl | ha | rfl | rfl | rfl | rfl
    · exact hload _
    · exact hprobe (hp a ha)
    · exact hdec _
    · exact hstatus _
    · exact htime
    · rcases hb with rfl | rfl <;> exact id

lemma PeerSet.triggerAll_sealed (peers : PeerSet) (k : Kernel) (ns : ℕ) (hs : Sealed w.log) :
    Sealed (peers.triggerAll k ns w).2.log := by
  obtain ⟨trs, hd, hatt⟩ := triggerFrom_attempts k ns peers.toList none w
  have hnot : ∀ tr ∈ trs, ∀ a ∈ tr, ¬ a.OutputWrite := by
    clear hd
    generalize peers.toList = l at hatt
    induction hatt with
    | nil => simp
    | cons he _ ih => exact List.forall_mem_cons.2 ⟨he.not_write, ih⟩
  refine hd.sealed (fun a ha => ?_) hs
  obtain ⟨tr, htr, ha⟩ := List.mem_flatten.1 ha
  exact hnot tr htr a ha

end Phases

/-! ### Nothing to take back -/

/-- Of the callbacks that ran since `ids`, none has handed in a token for the buffer of its cycle. -/
def World.Withheld (ids ids' : List (ℕ × Handed)) : Prop :=
  ∀ new, ids' = new ++ ids → ∀ p ∈ new, p.2 = .nothing

def OutputGeneration.Unannounced (g : OutputGeneration) (m : Shm) : Prop :=
  asI32 (m.word (g.io.at_ Abi.ioStatus) 4) ≠ BufferStatus.haveData.code

section Unannounced

variable {t : TransportGeneration} {g : OutputGeneration} {ivs : List MemoryInterval} {m : Shm}
  {ids : List (ℕ × Handed)} {w : World}

/-- The IO record is spared by the server, and where the callbacks since `ids` handed in nothing, it
announces no data. -/
def OutputGeneration.Still (g : OutputGeneration) (ids : List (ℕ × Handed)) (w : World) : Prop :=
  ∃ m new, On [g.io.interval] m (new ++ ids) w ∧ ((∀ p ∈ new, p.2 = .nothing) → g.Unannounced m)

lemma abortSelected_still {io : BuffersIoView} {c : OutputCycle} (hio : io.region = g.io)
    {new : List (ℕ × Handed)} (hw : On [g.io.interval] m (new ++ ids) w) :
    g.Still ids (abortSelected io c w).2 := by
  refine (ends_state (I := g.Still ids)).1 ?_
  unfold abortSelected OutputBuffer.abort BuffersIoView.publishNeedData
  simp only [ends_bind]
  refine (c.buffer.chunk.does_state.ends .refl).mono (fun st w₁ hs => ?_) fun e _ _ => e.elim
  refine (c.buffer.chunk.publish_on _ (hw.reads hs)).mono (fun _ w₂ hw₂ => ?_) fun e _ _ => e.elim
  refine (io.publish_on .needData c.bufferId hw₂).mono (fun _ w₃ hw₃ => ?_) fun e _ _ => e.elim
  refine ⟨_, _, hw₃, fun _ => ?_⟩
  unfold OutputGeneration.Unannounced
  rw [hio, ioWrite_status]
  decide

/-- A cycle whose callback hands in nothing announces nothing. -/
theorem OutputGeneration.process_still (callback : OutputProcess) (hw : g.Still ids w) :
    g.Still ids (g.process callback w).2 := by
  refine (ends_state (I := g.Still ids)).1 ?_
  obtain ⟨m, new, hw, hst⟩ := hw
  unfold process
  simp only [ends_bind, ends_mapErr, ends_ofExcept]
  split
  case h_2 => exact ⟨m, new, hw, hst⟩
  rename_i io hio
  have hio' := BuffersIoView.fromRawParts_ok hio
  refine g.outputBuffers_ends.mono (fun bs w₁ h => ?_) fun _ _ h => ⟨m, new, hw.reads h, hst⟩
  obtain ⟨hs, hof⟩ := h
  have hmem : io.region.interval ∈ [g.io.interval] := by rw [hio']; simp
  refine (select_on hmem bs g.format (hw.reads hs)).mono (fun o w₂ h => ?_)
    fun _ _ h => ⟨m, new, h.1, hst⟩
  obtain ⟨hw₂, -, hsel⟩ := h
  cases o with
  | none => exact ⟨m, new, hw₂, hst⟩
  | some c =>
    unfold processCycle runCallback
    simp only [ends_bind, ends_onFail, ends_pure, ends_access, ends_store]
    generalize callback.answer c _ = back
    obtain ⟨bytes, back⟩ := back
    have hon := (hw₂.interfere.callback c.bufferId (c.handed back)).stored .media c.buffer.mediaAt
      (bytes.take c.capacity)
    rw [← List.cons_append] at hon
    have hfail := abortSelected_still (c := c) hio' hon
    cases back with
    | panicked => exact hfail
    | returned res =>
      cases res with
      | error message => exact hfail
      | ok token =>
        simp only [publishCommitted, OutputBuffer.publish, ends_mapErr, ends_bind, ends_failIf,
          ends_pure]
        refine ⟨fun _ => hfail, fun hname => ⟨fun _ => hfail, fun _ => ?_⟩⟩
        refine (c.buffer.chunk.publish_on _ hon).mono (fun _ w₃ hw₃ => ?_) fun _ _ h => h.elim
        refine (io.publish_on .haveData token.bufferId hw₃).mono (fun _ w₄ hw₄ => ?_)
          fun _ _ h => h.elim
        -- the token names the buffer, so something was handed in
        refine ⟨_, _, hw₄, fun hnone => absurd (hnone _ List.mem_cons_self) ?_⟩
        rw [OutputCycle.handed, if_neg hname]
        split_ifs <;> simp

lemma OutputGeneration.abortPublished_still (hw : On [g.io.interval] m ids w)
    (hst : g.Unannounced m) : Steps Reads w (g.abortPublished w).2 := by
  refine (ends_state (I := fun w' => Steps Reads w w')).1 ?_
  unfold abortPublished
  simp only [ends_bind, ends_mapErr, ends_ofExcept]
  split
  case h_2 => exact .refl
  rename_i io hio
  have hio' := BuffersIoView.fromRawParts_ok hio
  have hmem : io.region.interval ∈ [g.io.interval] := by rw [hio']; simp
  refine ((BuffersIoView.state_on hmem hw).and (io.does_state.ends .refl)).mono (fun st w₁ h => ?_)
    fun _ _ h => h.1.elim
  obtain ⟨⟨rfl, -⟩, hs⟩ := h
  rw [hio', ends_ite]
  exact ⟨fun _ => hs, fun h => absurd hst h⟩

lemma Ran.still (hdis : ∀ i ∈ g.intervals, t.interval.Disjoint i) {wake : Owner.Wake} {ns : ℕ}
    {w₁ w₂ : World} {result : Except SessionError (Option PublishedOutput)}
    (hran : Ran t g wake w result ns w₁) (hshift : Shifts t.interval .awake .finished w₁ w₂)
    (hw : g.Still ids w) : g.Still ids w₂ := by
  obtain ⟨p, wa, wb, status, hopen, hproc, -, rfl⟩ := hran
  have hbeside : ∀ field n, field + n ≤ Abi.size →
      ∀ i ∈ [g.io.interval], i.Disjoint (storeSpan (t.activation.at_ field) n) := by
    intro field n hn i hi
    rw [List.mem_singleton.1 hi]
    exact (hdis _ (List.mem_cons_self ..)).symm.of_covers
      (t.activation.covers (Nat.le_trans hn t.fits))
  have hwa : g.Still ids wa := by
    obtain ⟨m, new, hw, hst⟩ := hw
    exact ⟨m, new, hopen.spared (hbeside Abi.status 4 (by decide)) (hbeside _ _ (by decide)) hw, hst⟩
  have hwb := OutputGeneration.process_still wake.callback hwa
  rw [hproc] at hwb
  obtain ⟨m, new, hwb, hst⟩ := hwb
  obtain ⟨-, rfl⟩ := hshift
  have hrep : On [g.io.interval] m (new ++ ids) (t.reported status ns wb) :=
    (hwb.stored_beside .processResult (by rw [leBytes_length]; exact hbeside _ _ (by decide))).stored_beside
      .finishTime (by rw [leBytes_length]; exact hbeside _ _ (by decide))
  exact ⟨m, new, hrep.interfere.perform (Or.inr (hbeside Abi.status 4 (by decide))), hst⟩

end Unannounced

/-! ### Along a run -/

namespace Sys

/-- The move, if it is a wake, has a finish clock that returns, or leaves nothing to take back: the
server spares the IO record, which announces no data, and the callback hands in nothing. -/
def Timely (s : Sys) : Move → Prop
  | .op (.wake wake) k script => wake.finishTime.isSome ∨ ∀ g, s.session.output = some g →
      Sparing [g.io.interval] script ∧ g.Unannounced s.world.mem ∧
        Withheld (calls s.world.log) (calls (s.exec (.wake wake) k script).2.world.log)
  | _ => True

lemma Phases.sealed {k : Kernel} {wake : Owner.Wake} {s s' : Sys} {r : Except Unwind WakeOutcome}
    (ids : List (ℕ × Handed)) (hc : s.session.Coherent) (h : Phases k wake s r s')
    (ht : wake.finishTime.isSome ∨ ∀ g, s.session.output = some g →
      g.Still ids s.world ∧ Withheld ids (calls s'.world.log))
    (hs : Sealed s.world.log) : Sealed s'.world.log := by
  have hidle : ∀ {t : TransportGeneration} {w w'}, Steps (Idle t.interval) w w' → Sealed w.log →
      Sealed w'.log := fun h => h.sealed fun _ => Idle.not_write
  cases h with
  | ignored r hr => exact hs
  | unclaimed t r st w hT hr hsteps => exact hidle hsteps hs
  | unfinished t g result ns e w₁ w₂ w₃ hT hG hran hmiss hsteps =>
    exact hidle hsteps (hidle hmiss.steps (hran.claimed (hc.sound g hG) hs).1)
  | triggered t g v ns o w₁ w₂ w₃ hT hG hran hshift htrig =>
    have h₃ := s.session.peers.triggerAll_sealed k ns
      (Shifts.sealed hshift (hran.claimed (hc.sound g hG) hs).1)
    rwa [htrig] at h₃
  | untriggered t g v ns e w₁ w₂ w₃ hT hG hran hshift htrig =>
    have h₃ := s.session.peers.triggerAll_sealed k ns
      (Shifts.sealed hshift (hran.claimed (hc.sound g hG) hs).1)
    rw [htrig] at h₃
    exact hidle (t.dropped_steps w₃) h₃
  | faulted t g e ns w₁ w₂ hT hG hran hshift =>
    have h₂ := Shifts.sealed hshift (hran.claimed (hc.sound g hG) hs).1
    have hcalls : calls (t.dropped (g.unwound e w₂)).log = calls w₂.log := by
      have hdropped : Steps (Waking t.interval g.intervals) (g.unwound e w₂)
          (t.dropped (g.unwound e w₂)) := (t.dropped_steps _).mono fun _ => Idle.waking
      refine (Steps.calls hdropped).trans ?_
      unfold OutputGeneration.unwound
      split_ifs
      · exact Steps.calls (OutputGeneration.does_abortPublished (r := t.interval) (hc.sound g hG)
          (fun _ => id) w₂)
      · rfl
    refine hidle (t.dropped_steps _) ?_
    unfold OutputGeneration.unwound
    split_ifs with he
    · -- the finish clock panicked, so there is nothing to take back
      have hnone : ¬ wake.finishTime.isSome := fun h => hran.fault_of_error.2 h he
      obtain ⟨hstill, hheld⟩ := ht.resolve_left hnone g hG
      obtain ⟨m, new, hon, hst⟩ := Ran.still (hc.transport_output t g hT hG) hran hshift hstill
      refine (OutputGeneration.abortPublished_still hon (hst (hheld new ?_))).sealed
        (fun _ => Reads.not_write) h₂
      exact hcalls.trans hon.called
    · exact h₂

lemma move_sealed {s : Sys} (hc : s.session.Coherent) {m : Move} (ht : s.Timely m)
    (hs : Sealed s.world.log) : Sealed (s.move m).world.log := by
  cases m with
  | server a =>
    cases a with
    | store l bs => exact sealed_server.2 hs
    | signal fd n => exact hs
  | op o k script =>
    cases o with
    | command c =>
      exact ((s.exec_command c k script).2.1.logs).sealed (fun _ => Commanding.not_write) hs
    | wake wake =>
      obtain ⟨r, -, hphases⟩ := s.exec_phases hc wake k script
      refine Phases.sealed (s := s.scripted script) (calls s.world.log) hc hphases
        (ht.imp_right fun h g hG => ?_) hs
      obtain ⟨hspare, hst, hheld⟩ := h g hG
      exact ⟨⟨s.world.mem, [], ⟨hspare, fun i _ => .refl i _, rfl⟩, fun _ => hst⟩, hheld⟩

/-- **Output is written while a cycle is claimed.** In every run whose wakes have finish clocks that
return, or nothing to take back, every write to media bytes, to a chunk, to the IO record or to the
process result comes after an exchange that claims a cycle and before the one that ends it. -/
theorem output_sealed (mem : Shm) (counter : Fd → ℕ) (moves : List Move)
    (ht : Along Timely (init mem counter) moves) :
    ∀ ms, ms <+: moves → Sealed ((init mem counter).run ms).world.log := by
  intro ms hms
  have hinit : Sealed (init mem counter).world.log := fun post a pre e => by simp [init] at e
  exact (ht.keeps (I := fun s => s.session.Coherent ∧ Sealed s.world.log)
    (fun s m h hm => ⟨s.move_coherent m h.1, move_sealed h.1 hm h.2⟩) ⟨run_coherent mem counter [], hinit⟩ ms hms).2

/-- The sample session, whose callback commits a frame. -/
theorem output_sealed_sample :
    Sealed ((init Sample.mem Sample.counter).run Sample.cycle).world.log := by
  have ht : Along Timely (init Sample.mem Sample.counter) Sample.cycle :=
    .next trivial <| .next trivial <| .next trivial <| .next trivial <| .next trivial <|
      .next trivial <| .next trivial <| .next trivial <| .next trivial <| .next trivial <|
        .next (Or.inl rfl) <| .done _
  exact output_sealed Sample.mem Sample.counter Sample.cycle ht Sample.cycle (List.prefix_refl _)

/-- The sample session, whose finish clock panics after the callback has committed a frame: the
chunk and the IO record are written once more after the exchange that ended the cycle. -/
theorem output_unsealed :
    let s := (init Sample.mem Sample.counter).run (Sample.start ++ Sample.trigger)
    let x := s.exec (.wake ⟨1, 5, none, Sample.callback⟩) Sample.kernel []
    errorOf x.1 = some (.error .finishClockPanicked) ∧ ¬ Sealed x.2.world.log := by
  decide +kernel

end Sys

end PipewireNative.Node
