import PipewireNative.Node.Rollback

/-!
Cycles that go wrong. Whatever went wrong in a cycle that was claimed and ended, the session has
failed, its own record is out of scheduling with the result `-EIO`, and a buffer that was selected
has been given back: as long as the server spares the words the way out relies on.
-/

namespace PipewireNative.Node

open Lib Lib.Word Prog World

namespace TransportGeneration

variable (t : TransportGeneration)

def resultSpan : MemoryInterval := storeSpan (t.activation.at_ Abi.state0Status) 4

def versionSpan : MemoryInterval := storeSpan (versionOf t.interval) 4

end TransportGeneration

/-- What a cycle relies on beside its own record: the IO record, and the chunk of the buffer it
names. -/
def OutputGeneration.cyclePlaces (g : OutputGeneration) (m : Shm) : List MemoryInterval :=
  g.io.interval :: (g.buffers[m.word (g.io.at_ Abi.ioBufferId) 4]?).toList.map (·.chunk.span)

/-- What the way out of a cycle relies on. -/
def watched (t : TransportGeneration) (g : OutputGeneration) (m : Shm) : List MemoryInterval :=
  [t.resultSpan, t.versionSpan] ++ g.cyclePlaces m

section Watched

variable {t : TransportGeneration} {g : OutputGeneration} {m : Shm}

/-- A place of the own record, beside the process result and the version, lies beside all that is
watched. -/
lemma watched_beside (hdis : ∀ i ∈ g.intervals, t.interval.Disjoint i) (hg : g.Sound) {field n : ℕ}
    (hr : field + n ≤ Abi.state0Status ∨ Abi.state0Status + 4 ≤ field)
    (hv : field + n ≤ Abi.serverVersion) :
    ∀ i ∈ watched t g m, i.Disjoint (storeSpan (t.activation.at_ field) n) := by
  have hcov : t.interval.Covers (t.activation.at_ field) n := by
    refine t.activation.covers ?_
    have := t.fits
    simp only [Abi.serverVersion, Abi.size] at hv this
    omega
  intro i hi
  simp only [watched, OutputGeneration.cyclePlaces, List.mem_append, List.mem_cons,
    List.not_mem_nil, or_false, List.mem_map, Option.mem_toList] at hi
  rcases hi with (rfl | rfl) | rfl | ⟨b, hb, rfl⟩
  · intro _
    simp only [TransportGeneration.resultSpan, storeSpan, MemoryMapping.at_] at *
    omega
  · intro _
    simp only [TransportGeneration.versionSpan, storeSpan, MemoryMapping.at_, versionOf,
      TransportGeneration.interval, MemoryMapping.interval] at *
    omega
  · exact (hdis _ (List.mem_cons_self ..)).symm.of_covers hcov
  · have hmem := List.mem_of_getElem? hb
    exact (hg.beside_chunk hmem (hdis _ (OutputGeneration.mem_intervals hmem).1)).symm.of_covers hcov

lemma status_beside (hdis : ∀ i ∈ g.intervals, t.interval.Disjoint i) (hg : g.Sound) :
    ∀ i ∈ watched t g m, i.Disjoint (storeSpan (statusOf t.interval) 4) := by
  have hat : statusOf t.interval = t.activation.at_ Abi.status := rfl
  rw [hat]
  exact watched_beside hdis hg (by decide) (by decide)

lemma covers_of_span {l : Addr} {n : ℕ} : (storeSpan l n).Covers l n :=
  ⟨rfl, Nat.le_refl _, Nat.le_refl _⟩

variable (hdis : ∀ i ∈ g.intervals, t.interval.Disjoint i) (hg : g.Sound)
include hdis

lemma own_beside {i : MemoryInterval} (hi : i ∈ g.intervals) :
    t.resultSpan.Disjoint i ∧ t.versionSpan.Disjoint i := by
  have hfits := t.fits
  simp only [Abi.size] at hfits
  refine ⟨((hdis i hi).symm.of_covers (t.activation.covers ?_)).symm,
    ((hdis i hi).symm.of_covers t.isRecord.covers_version).symm⟩
  simp only [Abi.state0Status]
  omega

include hg

lemma watched_watched : g.Watched (m.word (g.io.at_ Abi.ioBufferId) 4) (watched t g m) where
  io := by simp [watched, OutputGeneration.cyclePlaces]
  chunk b hb := by simp [watched, OutputGeneration.cyclePlaces, hb]
  media := by
    intro i hi b hb
    have hmedia := (OutputGeneration.mem_intervals hb).2
    simp only [watched, OutputGeneration.cyclePlaces, List.mem_append, List.mem_cons,
      List.not_mem_nil, or_false, List.mem_map, Option.mem_toList] at hi
    rcases hi with (rfl | rfl) | rfl | ⟨b', hb', rfl⟩
    · exact (own_beside hdis hmedia).1
    · exact (own_beside hdis hmedia).2
    · exact (List.pairwise_cons.1 hg.disjoint).1 _ (List.mem_flatMap.2 ⟨b, hb, by simp⟩)
    · have hmem' := List.mem_of_getElem? hb'
      exact (hg.beside_chunk hmem' (hg.metadata_media hmem' hb).symm).symm

end Watched

/-! ### The way out -/

section Out

variable {t : TransportGeneration} {g : OutputGeneration} {ivs : List MemoryInterval} {m : Shm}
  {ids : List (ℕ × Handed)} {w w' : World}

/-- A record of the version supported is taken out of scheduling, whatever its status was. -/
lemma TransportGeneration.dropped_on (hver : t.versionSpan ∈ ivs)
    (hst : ∀ i ∈ ivs, i.Disjoint (storeSpan (statusOf t.interval) 4))
    (hm : m.word (versionOf t.interval) 4 = 1) (hw : On ivs m ids w) :
    On ivs m ids (t.dropped w) ∧
      (t.dropped w).mem.word (statusOf t.interval) 4 = ActivationStatus.inactive.code := by
  refine (ends_state (I := fun w' => On ivs m ids w' ∧
    w'.mem.word (statusOf t.interval) 4 = ActivationStatus.inactive.code)).1 ?_
  unfold deactivate activationView
  simp only [ends_bind, ends_mapErr]
  refine (ActivationView.fromRawParts_ends w t.activation).mono (fun v w₁ h => ?_)
    fun _ w₁ h => ?_
  · obtain ⟨hv, hs, -⟩ := h
    have hat : v.at_ Abi.status = statusOf t.interval := by rw [ActivationView.at_, hv]; rfl
    simp only [ActivationView.deactivate, ends_bind, ends_swap, ends_ofExcept, hat]
    have hend : On ivs m ids (w₁.interfere.perform (.swap .status (statusOf t.interval)
        ActivationStatus.inactive.code (w₁.interfere.mem.word (statusOf t.interval) 4))) ∧
        (w₁.interfere.perform (.swap .status (statusOf t.interval) ActivationStatus.inactive.code
          (w₁.interfere.mem.word (statusOf t.interval) 4))).mem.word (statusOf t.interval) 4 =
            ActivationStatus.inactive.code :=
      ⟨(hw.reads hs).interfere.perform hst, Memory.word_setWord_same (ActivationStatus.code_lt _)⟩
    split <;> exact hend
  · refine absurd ?_ (h.2 t.isRecord)
    rw [← hm]
    exact (hw.reads h.1).word hver covers_of_span

lemma World.Idle.avoids {a : Action} (ha : Idle t.interval a)
    (hst : ∀ i ∈ ivs, i.Disjoint (storeSpan (statusOf t.interval) 4)) : a.Avoids ivs := by
  cases a with
  | exchange f l x d seen => exact Or.inl ha.1
  | swap f l d seen => rw [show l = _ from ha.1]; exact hst
  | load | drain => trivial
  | _ => exact ha.elim

lemma OutputGeneration.Vacated.on {id : ℕ} (h : g.Vacated id m) (W : g.Watched id ivs)
    (hw : On ivs m ids w) : g.Vacated id w.mem where
  view := h.view
  status := by
    obtain ⟨io, hio⟩ := h.view
    rw [hw.word W.io (g.io.covers (by rw [len_of_view hio]; decide))]
    exact h.status
  bufferId := by
    obtain ⟨io, hio⟩ := h.view
    rw [hw.word W.io (g.io.covers (by rw [len_of_view hio]; decide))]
    exact h.bufferId
  size b hb := by
    rw [hw.word (W.chunk b hb) (b.chunk.covers (by decide))]
    exact h.size b hb

/-- A cycle that went wrong reports an I/O error; and only a finish clock that panicked makes a
cycle go wrong that was processed. -/
lemma TransportGeneration.finishResult_error {awakeNs : ℕ} {finishTime : Option ℕ}
    {p : Except Unwind (Option PublishedOutput × ℤ)} {e : SessionError} {status : ℤ} {ns : ℕ}
    (h : finishResult awakeNs finishTime (cycleResult p).1 (cycleResult p).2 =
      (.error e, status, ns)) : status = -eio ∧ (p.isOk → e = .finishClockPanicked) := by
  unfold finishResult at h
  split at h
  · unfold cycleResult at h
    split at h
    · simp at h
    · simp_all [Except.isOk, Except.toBool]
    · simp_all [Except.isOk, Except.toBool]
  · simp_all

lemma Opened.spared {awakeNs : ℕ} (h : Opened t awakeNs w w')
    (hst : ∀ i ∈ ivs, i.Disjoint (storeSpan (statusOf t.interval) 4))
    (haw : ∀ i ∈ ivs, i.Disjoint (storeSpan (t.activation.at_ Abi.awakeTime) 8))
    (hw : On ivs m ids w) : On ivs m ids w' := by
  obtain ⟨w₁, w₂, hs, hv, ⟨-, rfl⟩, rfl⟩ := h
  have hw₁ := hw.steps hs fun a ha => ha.avoids hst
  exact (hw₁.interfere.perform (a := .exchange .status _ _ _ _) (Or.inr hst)).stored_beside
    .awakeTime (by rw [leBytes_length]; exact haw)

lemma Opened.version {awakeNs : ℕ} (h : Opened t awakeNs w w')
    (hst : ∀ i ∈ ivs, i.Disjoint (storeSpan (statusOf t.interval) 4)) (hver : t.versionSpan ∈ ivs)
    (hw : On ivs m ids w) : m.word (versionOf t.interval) 4 = 1 := by
  obtain ⟨w₁, w₂, hs, hv, -, -⟩ := h
  have hw₁ := hw.steps hs fun a ha => ha.avoids hst
  rw [← hv]
  exact (hw₁.word hver covers_of_span).symm

lemma reported_agree (hdis : ∀ i ∈ g.intervals, t.interval.Disjoint i) {bs : List UInt8}
    (hbs : bs.length = 4) {i : MemoryInterval} (hi : i ∈ g.intervals) :
    Memory.Agree i (m.write (t.activation.at_ Abi.state0Status) bs) m := by
  refine Memory.Agree.write_beside (.refl i m) ?_
  rw [hbs]
  exact (own_beside hdis hi).1.symm

section Fault

variable {wake : Owner.Wake} {e : SessionError} {ns : ℕ} {w₁ w₂ : World}
  (hdis : ∀ i ∈ g.intervals, t.interval.Disjoint i) (hg : g.Sound)
include hdis hg

lemma Ran.on (hran : Ran t g wake w (.error e) ns w₁)
    (hw : On (watched t g m) m ids w) :
    ∃ m₁ ids₁, On (watched t g m) m₁ ids₁ w₁ ∧ m₁.word (versionOf t.interval) 4 = 1 ∧
      m₁.word (t.activation.at_ Abi.state0Status) 4 = ofI32 (-eio) ∧
      ((∃ io, BuffersIoView.fromRawParts .buffers g.io = .ok io) →
        m₁.word (g.io.at_ Abi.ioBufferId) 4 = m.word (g.io.at_ Abi.ioBufferId) 4) ∧
      (ids₁ = ids ∨ ∃ id handed, id = m.word (g.io.at_ Abi.ioBufferId) 4 ∧
        ids₁ = (id, handed) :: ids ∧ (handed ≠ .misfit →
          e = .finishClockPanicked ∧ g.Presents id m₁ ∨ g.Vacated id m₁)) := by
  have W : g.Watched (m.word (g.io.at_ Abi.ioBufferId) 4) (watched t g m) := watched_watched hdis hg
  obtain ⟨p, wa, wb, status, hopen, hproc, hres, rfl⟩ := hran
  obtain ⟨rfl, hclock⟩ := TransportGeneration.finishResult_error hres
  have hwa := hopen.spared (status_beside hdis hg)
    (watched_beside hdis hg (by decide) (by decide)) hw
  have hver := hopen.version (status_beside hdis hg) (by simp [watched]) hw
  -- what `process` leaves
  obtain ⟨m₁, ids₁, hwb, hconf, hcase⟩ : ∃ m₁ ids₁, On (watched t g m) m₁ ids₁ wb ∧
      g.Confines m m₁ ∧ ((m₁ = m ∧ ids₁ = ids) ∨
        ∃ id handed, id = m.word (g.io.at_ Abi.ioBufferId) 4 ∧ ids₁ = (id, handed) :: ids ∧
          m₁.word (g.io.at_ Abi.ioBufferId) 4 = id ∧ (handed ≠ .misfit →
            e = .finishClockPanicked ∧ g.Presents id m₁ ∨ g.Vacated id m₁)) := by
    have hp := OutputGeneration.process_on wake.callback hg W hwa
    rw [ends_of_run hproc, ends_ofExcept] at hp
    cases p with
    | ok a =>
      obtain ⟨m₁, ids₁, hon, hconf, hcase⟩ := hp
      refine ⟨m₁, ids₁, hon, hconf, hcase.imp_right ?_⟩
      rintro ⟨id, handed, hid, hids, hword, hpres⟩
      exact ⟨id, handed, hid, hids, hword, fun h => Or.inl ⟨hclock rfl, hpres h⟩⟩
    | error u =>
      obtain ⟨m₁, ids₁, hon, hconf, hcase⟩ := hp
      refine ⟨m₁, ids₁, hon, hconf, hcase.imp_right ?_⟩
      rintro ⟨id, handed, hid, hids, hvac⟩
      exact ⟨id, handed, hid, hids, hvac.bufferId, fun _ => Or.inr hvac⟩
  -- the result is stored beside the output and beside the version
  have hlen : (leBytes 4 (ofI32 (-eio))).length = 4 := leBytes_length _ _
  have hagree : ∀ i ∈ g.intervals, Memory.Agree i
      (m₁.write (t.activation.at_ Abi.state0Status) (leBytes 4 (ofI32 (-eio)))) m₁ :=
    fun i hi => reported_agree hdis hlen hi
  refine ⟨_, ids₁, (hwb.stored .processResult (t.activation.at_ Abi.state0Status)
    (leBytes 4 (ofI32 (-eio)))).stored_beside .finishTime ?_, ?_, ?_, fun hview => ?_, ?_⟩
  · rw [leBytes_length]
    exact watched_beside hdis hg (by decide) (by decide)
  · rw [Memory.word_write_apart, (hconf _ fun i hi => (own_beside hdis hi).2).word covers_of_span]
    · exact hver
    · intro _
      simp only [MemoryMapping.at_, versionOf, hlen, Abi.state0Status, Abi.serverVersion,
        TransportGeneration.interval, MemoryMapping.interval]
      omega
  · exact Memory.word_setWord_same (ofI32_lt _)
  · rw [OutputGeneration.io_word_of_agree hagree hview (by decide)]
    rcases hcase with ⟨rfl, -⟩ | ⟨id, handed, hid, -, hword, -⟩
    · rfl
    · rw [← hid, hword]
  · rcases hcase with ⟨-, hids⟩ | ⟨id, handed, hid, hids, -, h⟩
    · exact Or.inl hids
    · refine Or.inr ⟨id, handed, hid, hids, fun hne => (h hne).imp (fun h => ⟨h.1, ?_⟩) fun h => ?_⟩
      · exact h.2.of_agree hg hagree
      · exact h.of_agree hg hagree

/-- **A cycle that went wrong.** Its own record is out of scheduling and its result is an I/O
error; no callback ran, or one on a buffer whose selection has been taken back. -/
theorem Ran.fault (hran : Ran t g wake w (.error e) ns w₁)
    (hshift : Shifts t.interval .awake .finished w₁ w₂)
    (hw : On (watched t g m) m ids w) :
    let w' := t.dropped (g.unwound e w₂)
    w'.mem.word (statusOf t.interval) 4 = ActivationStatus.inactive.code ∧
      w'.mem.word (t.activation.at_ Abi.state0Status) 4 = ofI32 (-eio) ∧
      (calls w'.log = ids ∨ ∃ id handed, calls w'.log = (id, handed) :: ids ∧
        (handed ≠ .misfit → g.Vacated id w'.mem)) := by
  intro w'
  have W : g.Watched (m.word (g.io.at_ Abi.ioBufferId) 4) (watched t g m) := watched_watched hdis hg
  have hst := status_beside (m := m) hdis hg
  obtain ⟨m₁, ids₁, hw₁, hver₁, hres₁, hio₁, hcase₁⟩ := Ran.on hdis hg hran hw
  obtain ⟨-, rfl⟩ := hshift
  have hw₂ := hw₁.interfere.perform (a := .exchange .status (statusOf t.interval)
    ActivationStatus.awake.code ActivationStatus.finished.code ActivationStatus.awake.code)
    (Or.inr hst)
  -- the rollback keeps the words of the own record
  obtain ⟨m₂, hw₃, hver₂, hres₂, hcase₂⟩ : ∃ m₂, On (watched t g m) m₂ ids₁ (g.unwound e _) ∧
      m₂.word (versionOf t.interval) 4 = 1 ∧
      m₂.word (t.activation.at_ Abi.state0Status) 4 = ofI32 (-eio) ∧
      (ids₁ = ids ∨ ∃ id handed, id = m.word (g.io.at_ Abi.ioBufferId) 4 ∧
        ids₁ = (id, handed) :: ids ∧ (handed ≠ .misfit → g.Vacated id m₂)) := by
    unfold OutputGeneration.unwound
    split_ifs with he
    · obtain ⟨m₂, hon, hconf, hvac⟩ := OutputGeneration.abortPublished_on hg
        (fun hview => by rw [hio₁ hview]; exact W) hw₂
      refine ⟨m₂, hon, ?_, ?_, ?_⟩
      · rw [(hconf _ fun i hi => (own_beside hdis hi).2).word covers_of_span]
        exact hver₁
      · rw [(hconf _ fun i hi => (own_beside hdis hi).1).word covers_of_span]
        exact hres₁
      · refine hcase₁.imp_right ?_
        rintro ⟨id, handed, hid, hids, h⟩
        exact ⟨id, handed, hid, hids, fun hne => hvac id ((h hne).imp_left fun h => h.2)⟩
    · refine ⟨m₁, hw₂, hver₁, hres₁, hcase₁.imp_right ?_⟩
      rintro ⟨id, handed, hid, hids, h⟩
      exact ⟨id, handed, hid, hids, fun hne => (h hne).resolve_left fun h => he h.1⟩
  obtain ⟨hw', hstatus⟩ := TransportGeneration.dropped_on (by simp [watched]) hst hver₂ hw₃
  refine ⟨hstatus, ?_, ?_⟩
  · rw [hw'.word (i := t.resultSpan) (by simp [watched]) covers_of_span]
    exact hres₂
  · rw [hw'.called]
    refine hcase₂.imp_right ?_
    rintro ⟨id, handed, rfl, hids, hvac⟩
    exact ⟨_, handed, hids, fun hne => (hvac hne).on W hw'⟩

end Fault

end Out

namespace Sys

lemma calls_of_mem {new log : List Event} {ids : List (ℕ × Handed)} (h : calls (new ++ log) = ids ++ calls log)
    {id : ℕ} {handed : Handed} (hid : Event.own (.callback id handed) ∈ new) :
    (id, handed) ∈ ids := by
  unfold calls at h
  rw [List.filterMap_append, List.append_cancel_right_eq] at h
  rw [← h]
  exact List.mem_filterMap.2 ⟨_, hid, rfl⟩

lemma Phases.fault {k : Kernel} {wake : Owner.Wake} {s s' : Sys} {e : SessionError}
    (h : Phases k wake s (.error (.error e)) s') (he : e.isFault = true) :
    ∃ t g ns w₁ w₂, s.session.transport = some t ∧ s.session.output = some g ∧
      Ran t g wake s.world (.error e) ns w₁ ∧ Shifts t.interval .awake .finished w₁ w₂ ∧
      s' = ⟨{ s.session with state := .failed }, t.dropped (g.unwound e w₂)⟩ := by
  generalize hr : (Except.error (.error e) : Except Unwind WakeOutcome) = r at h
  cases h with
  | ignored r h => rw [h e hr.symm] at he; cases he
  | unclaimed t r st w _ h _ => rw [h e hr.symm] at he; cases he
  | unfinished => cases hr; cases he
  | triggered => cases hr
  | untriggered t g v ns e' w₁ w₂ w₃ _ _ _ _ h =>
    cases hr
    rw [PeerSet.triggerAll_error h] at he
    cases he
  | faulted t g e' ns w₁ w₂ hT hG hran hshift =>
    cases hr
    exact ⟨t, g, ns, w₁, w₂, hT, hG, hran, hshift, rfl⟩

/-- **Cycles that go wrong.** A wake that claims a cycle and returns an error of the callback, of the
checks of the cycle or its buffers, or of the finish clock leaves the session failed, its own
record out of scheduling with the result `-EIO`, and a buffer that was selected given back, unless
its callback handed in a token that names the buffer and does not fit the cycle. The server must have
spared the IO record and the chunk, and the version and the result in the own record. -/
theorem fault_leaves (mem : Shm) (counter : Fd → ℕ) (moves : List Move) (wake : Owner.Wake)
    (k : Kernel) (script : List (List ServerAct)) :
    let s := (init mem counter).run moves
    let s' := (s.exec (.wake wake) k script).2
    ∀ t g e, s.session.transport = some t → s.session.output = some g →
      Sparing (watched t g s.world.mem) script →
      (s.exec (.wake wake) k script).1 = .error (.error e) → e.isFault = true →
      s'.session.state = .failed ∧
        s'.world.mem.word (statusOf t.interval) 4 = ActivationStatus.inactive.code ∧
        s'.world.mem.word (t.activation.at_ Abi.state0Status) 4 = ofI32 (-eio) ∧
        ∃ new, s'.world.log = new ++ s.world.log ∧
          ∀ id handed, .own (.callback id handed) ∈ new → handed ≠ .misfit →
            g.Vacated id s'.world.mem := by
  intro s s' t g e hT hG hspare hres hfault
  have hc : s.session.Coherent := run_coherent mem counter moves
  obtain ⟨r, hr, hphases⟩ := s.exec_phases hc wake k script
  obtain rfl : r = .error (.error e) := by
    rw [hres] at hr
    cases r with
    | ok o => cases hr
    | error u => cases hr; rfl
  obtain ⟨t', g', ns, w₁, w₂, hT', hG', hran, hshift, hs'⟩ := hphases.fault hfault
  obtain rfl : t = t' := Option.some.inj (hT.symm.trans hT')
  obtain rfl : g = g' := Option.some.inj (hG.symm.trans hG')
  have hon : On (watched t g s.world.mem) s.world.mem (calls s.world.log)
      (s.scripted script).world := ⟨hspare, fun i _ => .refl i _, rfl⟩
  obtain ⟨hst, hout, hcalls⟩ := Ran.fault (hc.transport_output t g hT hG) (hc.sound g hG) hran
    hshift hon
  change s' = _ at hs'
  have hw' : s'.world = t.dropped (g.unwound e w₂) := by rw [hs']
  obtain ⟨new, hlog, -⟩ := move_tells hc (s := s) (.op (.wake wake) k script)
  refine ⟨by rw [hs'], by rw [hw']; exact hst, by rw [hw']; exact hout, new, hlog,
    fun id handed hid hne => ?_⟩
  have hlog' : (t.dropped (g.unwound e w₂)).log = new ++ s.world.log := by rw [← hw']; exact hlog
  rw [hlog'] at hcalls
  rw [hw']
  rcases hcalls with h | ⟨id', handed', h, hvac⟩
  · have hmem : (id, handed) ∈ [] := calls_of_mem h hid
    simp at hmem
  · have hmem : (id, handed) ∈ [(id', handed')] := calls_of_mem h hid
    cases List.mem_singleton.1 hmem
    exact hvac hne

/-- The sample session, whose finish clock panics after the callback has committed a frame, while
the server writes to its eventfd. -/
theorem fault_leaves_sample :
    let s := (init Sample.mem Sample.counter).run (Sample.start ++ Sample.trigger)
    let wake : Owner.Wake := ⟨1, 5, none, Sample.callback⟩
    let s' := (s.exec (.wake wake) Sample.kernel [[.signal 10 1]]).2
    s'.session.state = .failed ∧ ∃ t g, s.session.transport = some t ∧ s.session.output = some g ∧
      s'.world.mem.word (statusOf t.interval) 4 = ActivationStatus.inactive.code ∧
      s'.world.mem.word (t.activation.at_ Abi.state0Status) 4 = ofI32 (-eio) ∧
      ∃ new, s'.world.log = new ++ s.world.log ∧
        ∀ id handed, .own (.callback id handed) ∈ new → handed ≠ .misfit →
          g.Vacated id s'.world.mem := by
  obtain ⟨t, hT⟩ : ∃ t, ((init Sample.mem Sample.counter).run
      (Sample.start ++ Sample.trigger)).session.transport = some t :=
    Option.isSome_iff_exists.1 (by decide +kernel)
  obtain ⟨g, hG⟩ : ∃ g, ((init Sample.mem Sample.counter).run
      (Sample.start ++ Sample.trigger)).session.output = some g :=
    Option.isSome_iff_exists.1 (by decide +kernel)
  have h := fault_leaves Sample.mem Sample.counter (Sample.start ++ Sample.trigger)
    ⟨1, 5, none, Sample.callback⟩ Sample.kernel [[.signal 10 1]] t g .finishClockPanicked hT hG
    (fun acts hacts a ha => by
      rw [List.mem_singleton.1 hacts, List.mem_singleton] at ha
      rw [ha]
      trivial) (errorOf_eq_some.1 (by decide +kernel)) rfl
  exact ⟨h.1, t, g, hT, hG, h.2⟩

/-- The sample session, whose callback fails. The server spares the IO record and the chunk. When
it changes the version before the session is done, the record is left `FINISHED`; when it changes
the process result, the result is no `-EIO`. -/
theorem fault_unspared :
    let s := (init Sample.mem Sample.counter).run (Sample.start ++ Sample.trigger)
    let wake : Op := .wake ⟨1, 5, some 6, fun _ _ => ([], .returned (.error "failed"))⟩
    let version : List (List ServerAct) :=
      List.replicate 25 [] ++ [[.store ⟨Sample.backing, 544⟩ [0, 0, 0, 0]]]
    let result : List (List ServerAct) :=
      List.replicate 26 [] ++ [[.store ⟨Sample.backing, 8⟩ [0, 0, 0, 0]]]
    s.session.output.map (fun g => decide (Sparing (g.cyclePlaces s.world.mem) version ∧
        Sparing (g.cyclePlaces s.world.mem) result)) = some true ∧
      s.session.transport.map (fun t => decide (t.interval.obj = Sample.backing ∧
        t.interval.start = 0)) = some true ∧
      errorOf (s.exec wake Sample.kernel version).1 = some (.error (.callback "failed")) ∧
      (s.exec wake Sample.kernel version).2.world.mem.word ⟨Sample.backing, 0⟩ 4 =
        ActivationStatus.finished.code ∧
      errorOf (s.exec wake Sample.kernel result).1 = some (.error (.callback "failed")) ∧
      (s.exec wake Sample.kernel result).2.world.mem.word ⟨Sample.backing, 8⟩ 4 ≠
        ofI32 (-eio) := by
  decide +kernel

end Sys

end PipewireNative.Node
