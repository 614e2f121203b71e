import PipewireNative.Node.Fault
import PipewireNative.Node.Propagate
import Mathlib.Data.List.Forall2

/-!
Nodes downstream of a cycle. Once the own cycle has ended, the peers are tried exactly where the
cycle went through; whether it does is decided by the finish clock, the callback and what the port
holds before the wake, as long as the server spares the port.
-/

namespace PipewireNative.Node

open Lib Lib.Word Prog World

/-! ### Cycles that go through -/

/-- What a cycle reads of a port: the IO record, and the chunk and the media of every buffer. -/
def OutputGeneration.places (g : OutputGeneration) : List MemoryInterval :=
  g.io.interval :: g.buffers.flatMap fun b => [b.chunk.span, b.media.interval]

/-- The plane a bound buffer has while memory is `m`. -/
structure BoundBuffer.Plane (m : Shm) (b : BoundBuffer) (o : OutputBuffer) : Prop where
  accepted : PlaneAccepted m b.metadata b.chunkOffset b.media
  of : o.Of b
  dataOffset : o.dataOffset = (b.chunk.read m).offset % b.media.len

/-- The cycle a port selects while memory is `m`. -/
structure OutputGeneration.Selects (g : OutputGeneration) (m : Shm) (c : OutputCycle) : Prop where
  format : c.format = g.format
  bufferId : c.bufferId = m.word (g.io.at_ Abi.ioBufferId) 4
  buffer : ∃ b, g.buffers[c.bufferId]? = some b ∧ b.Plane m c.buffer

/-- The callback commits in a cycle what can be published in it. -/
def OutputCycle.Delivers (c : OutputCycle) (callback : OutputProcess) (m : Shm) : Prop :=
  ∃ t, (callback c (m.read c.buffer.mediaAt c.capacity)).2 = .returned (.ok t) ∧
    t.bufferId = c.bufferId ∧ t.stride ≤ c.buffer.maxSize ∧ t.stride ≤ i32Max

/-- Nothing goes wrong in a cycle: the checks accept the IO record and every plane, and when data
are asked for, then of a buffer there is, and the callback delivers them. -/
structure OutputGeneration.Faultless (g : OutputGeneration) (callback : OutputProcess) (m : Shm) :
    Prop where
  view : ∃ io, BuffersIoView.fromRawParts .buffers g.io = .ok io
  planes : ∀ b ∈ g.buffers, PlaneAccepted m b.metadata b.chunkOffset b.media
  cycle : asI32 (m.word (g.io.at_ Abi.ioStatus) 4) = BufferStatus.needData.code →
    ∃ c, g.Selects m c ∧ c.Delivers callback m

section Faultless

variable {g : OutputGeneration} {m : Shm} {ids : List (ℕ × Handed)} {w : World} {callback : OutputProcess}

lemma OutputGeneration.io_mem_places : g.io.interval ∈ g.places := List.mem_cons_self ..

lemma OutputGeneration.mem_places {b : BoundBuffer} (hb : b ∈ g.buffers) :
    b.chunk.span ∈ g.places ∧ b.media.interval ∈ g.places :=
  ⟨List.mem_cons_of_mem _ (List.mem_flatMap.2 ⟨b, hb, by simp⟩),
    List.mem_cons_of_mem _ (List.mem_flatMap.2 ⟨b, hb, by simp⟩)⟩

lemma OutputGeneration.places_beside (hg : g.Sound) {r : MemoryInterval}
    (h : ∀ i ∈ g.intervals, r.Disjoint i) : ∀ i ∈ g.places, i.Disjoint r := by
  intro i hi
  simp only [places, List.mem_cons, List.mem_flatMap, List.not_mem_nil, or_false] at hi
  rcases hi with rfl | ⟨b, hb, rfl | rfl⟩
  · exact (h _ (List.mem_cons_self ..)).symm
  · exact (hg.beside_chunk hb (h _ (mem_intervals hb).1)).symm
  · exact (h _ (mem_intervals hb).2).symm

lemma OutputGeneration.Selects.unique {c c' : OutputCycle} (h : g.Selects m c)
    (h' : g.Selects m c') : c = c' := by
  have hid : c.bufferId = c'.bufferId := h.bufferId.trans h'.bufferId.symm
  obtain ⟨b, hb, hp⟩ := h.buffer
  obtain ⟨b', hb', hp'⟩ := h'.buffer
  obtain rfl : b = b' := by
    rw [hid] at hb
    exact Option.some.inj (hb.symm.trans hb')
  have hbuf : c.buffer = c'.buffer := by
    have h₁ := hp.of.chunk.trans hp'.of.chunk.symm
    have h₂ := hp.of.media.trans hp'.of.media.symm
    have h₃ := hp.of.mapOffset.trans hp'.of.mapOffset.symm
    have h₄ := hp.of.maxSize.trans hp'.of.maxSize.symm
    have h₅ := hp.dataOffset.trans hp'.dataOffset.symm
    cases hc : c.buffer
    cases hc' : c'.buffer
    simp_all
  have hfmt := h.format.trans h'.format.symm
  cases c
  cases c'
  simp_all

lemma OutputGeneration.outputBuffers_on (hw : On g.places m ids w) : g.outputBuffers.Ends w
    (fun bs w' => On g.places m ids w' ∧ List.Forall₂ (BoundBuffer.Plane m) g.buffers bs)
    (fun _ _ => ¬ ∀ b ∈ g.buffers, PlaneAccepted m b.metadata b.chunkOffset b.media) := by
  unfold outputBuffers
  refine ends_mapList (I := fun done bs w' => On g.places m ids w' ∧
    List.Forall₂ (BoundBuffer.Plane m) done bs) (fun done b rest bs w₁ hall h => ?_) ⟨hw, .nil⟩
  have hmem : b ∈ g.buffers := by rw [hall]; simp
  have hspan : (⟨b.metadata, b.chunkOffset⟩ : ChunkView).span ∈ g.places := (mem_places hmem).1
  refine ((OutputBuffer.fromRawParts_of b.metadata b.media b.chunkOffset h.1
    (ChunkView.state_on hspan h.1)).and
      (OutputBuffer.fromRawParts_ends b.metadata b.media b.chunkOffset Abi.chunkSize 0 b.media.len
        w₁)).mono (fun o w₂ hx => ?_) fun _ w₂ hx hacc => hx.1.1 (hacc b hmem)
  obtain ⟨⟨hacc, hw₂, hoff⟩, -, hchunk, hmedia, hmap, hmax⟩ := hx
  exact ⟨hw₂, List.rel_append h.2 (.cons ⟨hacc, ⟨hchunk, hmedia, hmap, hmax⟩, hoff⟩ .nil)⟩

lemma OutputGeneration.processCycle_delivers {io : BuffersIoView} {c : OutputCycle} {count : ℕ}
    (hc : g.Selects m c) (hw : On g.places m ids w) : (processCycle io count callback c).Ends w
      (fun _ _ => c.Delivers callback m) (fun _ _ => ¬ c.Delivers callback m) := by
  obtain ⟨b, hb, hp⟩ := hc.buffer
  have hcov : b.media.interval.Covers c.buffer.mediaAt c.capacity := hp.of.covers (Nat.le_refl _)
  unfold processCycle runCallback
  simp only [ends_bind, ends_access, ends_store, ends_pure, OutputProcess.answer]
  rw [(hw.interfere.agree _ (mem_places (List.mem_of_getElem? hb)).2).read hcov]
  -- whatever the callback does, its answer is the one `Delivers` speaks of
  unfold OutputCycle.Delivers
  generalize hback : callback c (m.read c.buffer.mediaAt c.capacity) = back
  obtain ⟨bytes, back⟩ := back
  cases back with
  | panicked => rintro ⟨t, ht, -⟩; cases ht
  | returned res =>
    cases res with
    | error message => rintro ⟨t, ht, -⟩; cases ht
    | ok t =>
      simp only [publishCommitted, OutputBuffer.publish, ends_mapErr, ends_bind,
        ends_failIf, ends_pure]
      refine ⟨fun hne => ?_, fun hname => ⟨fun hbad => ?_, fun hstride => ?_⟩⟩
      · rintro ⟨t', ht, hid, -⟩
        cases ht
        exact hne hid
      · rintro ⟨t', ht, -, hmax, hi32⟩
        cases ht
        omega
      · have hdel : ∃ t', CallbackExit.returned (.ok t) = .returned (.ok t') ∧
            t'.bufferId = c.bufferId ∧ t'.stride ≤ c.buffer.maxSize ∧ t'.stride ≤ i32Max :=
          ⟨t, rfl, not_not.mp hname, by omega, by omega⟩
        have hon := (hw.interfere.callback c.bufferId (c.handed (.returned (.ok t)))).stored .media
          c.buffer.mediaAt (bytes.take c.capacity)
        refine (c.buffer.chunk.publish_on _ hon).mono (fun _ w₃ hw₃ => ?_) fun _ _ h => h.elim
        exact (io.publish_on .haveData t.bufferId hw₃).mono (fun _ _ _ => hdel) fun _ _ h => h.elim

/-- **A cycle goes through** exactly where nothing is wrong with it. -/
theorem OutputGeneration.process_faultless (callback : OutputProcess) (hw : On g.places m ids w) :
    (g.process callback).Ends w (fun _ _ => g.Faultless callback m)
      (fun _ _ => ¬ g.Faultless callback m) := by
  unfold process
  simp only [ends_bind, ends_mapErr, ends_ofExcept]
  split
  case h_2 =>
    rename_i e hio
    intro h
    obtain ⟨io, hok⟩ := h.view
    exact absurd (hio.symm.trans hok) (by simp)
  rename_i io hio
  have hio' := BuffersIoView.fromRawParts_ok hio
  refine (outputBuffers_on hw).mono (fun bs w₁ h => ?_) fun _ _ h hf => h hf.planes
  obtain ⟨hw₁, hplanes⟩ := h
  have hboth : List.Forall₂ (fun b o => PlaneAccepted m b.metadata b.chunkOffset b.media ∧
      b.Plane m o) g.buffers bs := hplanes.imp fun _ _ hp => ⟨hp.accepted, hp⟩
  have hacc := ((List.forall₂_and_left _ _).1 hboth).1
  have hmem : io.region.interval ∈ g.places := by rw [hio']; exact io_mem_places
  refine (select_on hmem bs g.format hw₁).mono (fun o w₂ h => ?_) fun _ _ h hf => ?_
  · obtain ⟨hw₂, hnone, hsel⟩ := h
    rw [hio'] at hnone hsel
    cases o with
    | none => exact ⟨⟨io, hio⟩, hacc, fun hst => absurd hst (hnone.1 rfl)⟩
    | some c =>
      obtain ⟨hid, hbuf, hfmt⟩ := hsel c rfl
      have hc : g.Selects m c := by
        obtain ⟨hlt, hget⟩ := List.getElem?_eq_some_iff.1 hbuf
        have hlt' : c.bufferId < g.buffers.length := by rw [hplanes.length_eq]; exact hlt
        refine ⟨hfmt, hid, _, List.getElem?_eq_getElem hlt', ?_⟩
        rw [← hget]
        exact hplanes.get hlt' hlt
      simp only [ends_bind, ends_onFail, ends_pure]
      refine (processCycle_delivers hc hw₂).mono (fun _ _ hd => ?_) fun _ _ hd hf => ?_
      · exact ⟨⟨io, hio⟩, hacc, fun _ => ⟨c, hc, hd⟩⟩
      · have hst : asI32 (m.word (g.io.at_ Abi.ioStatus) 4) = BufferStatus.needData.code := by
          by_contra hst
          exact absurd (hnone.2 hst) (by simp)
        obtain ⟨c', hc', hd'⟩ := hf.cycle hst
        rw [hc.unique hc'] at hd
        exact hd hd'
  · obtain ⟨-, hst, hno⟩ := h
    rw [hio'] at hst hno
    obtain ⟨c, hc, -⟩ := hf.cycle hst
    obtain ⟨b, hb, -⟩ := hc.buffer
    rw [hc.bufferId] at hb
    have hlen := hplanes.length_eq
    have hlt := (List.getElem?_eq_some_iff.1 hb).1
    have hge := List.getElem?_eq_none_iff.1 hno
    omega

/-- **The result of a cycle** is one of success exactly where the finish clock returns and nothing
is wrong with the cycle. -/
theorem Ran.isOk_iff {t : TransportGeneration} {wake : Owner.Wake} {ns : ℕ} {w' : World}
    {result : Except SessionError (Option PublishedOutput)}
    (hdis : ∀ i ∈ g.intervals, t.interval.Disjoint i) (hg : g.Sound)
    (hran : Ran t g wake w result ns w') (hw : On g.places m ids w) :
    result.isOk ↔ wake.finishTime.isSome ∧ g.Faultless wake.callback m := by
  obtain ⟨p, w₁, w₂, status, hopen, hproc, hres, -⟩ := hran
  have hbeside : ∀ field n, field + n ≤ Abi.size →
      ∀ i ∈ g.places, i.Disjoint (storeSpan (t.activation.at_ field) n) := fun _ _ hn i hi =>
    (OutputGeneration.places_beside hg hdis i hi).of_covers
      (t.activation.covers (Nat.le_trans hn t.fits))
  have hw₁ := hopen.spared (hbeside Abi.status 4 (by decide)) (hbeside _ _ (by decide)) hw
  have hp := OutputGeneration.process_faultless wake.callback hw₁
  rw [ends_of_run hproc, ends_ofExcept] at hp
  cases hf : wake.finishTime with
  | none =>
    rw [hf] at hres
    simp only [TransportGeneration.finishResult, Prod.mk.injEq] at hres
    rw [← hres.1]
    simp [Except.isOk, Except.toBool]
  | some ns' =>
    rw [hf] at hres
    simp only [TransportGeneration.finishResult, Prod.mk.injEq] at hres
    rw [← hres.1]
    cases p with
    | ok v => simpa [TransportGeneration.cycleResult, Except.isOk, Except.toBool] using hp
    | error u =>
      cases u <;> simpa [TransportGeneration.cycleResult, Except.isOk, Except.toBool] using hp

end Faultless

/-! ### The peers of a cycle that ended -/

namespace Sys

lemma attempt_reaches {p : PeerActivation} {ns : ℕ} {tr : List Action} (h : p.Attempt ns tr)
    {ivs : List MemoryInterval} (hp : p.interval ∈ ivs) : ¬ ∀ a ∈ tr, a.Beside ivs := by
  obtain ⟨v, rest, rfl⟩ : ∃ v rest, tr = p.versionLoad v :: rest := by
    cases h <;> exact ⟨_, _, rfl⟩
  intro hall
  have hbeside : p.interval.Disjoint _ := hall _ List.mem_cons_self _ hp
  have hfits := p.fits
  simp only [Span.Disjoint, PeerActivation.interval, MemoryMapping.interval, MemoryMapping.at_,
    MemoryMapping.len, Abi.size, Abi.serverVersion, forall_const] at hbeside hfits
  omega

lemma not_inTurn {t : TransportGeneration} {peers : PeerSet} {tr : List Action} (hp : peers ≠ ∅)
    (h : ∀ a ∈ tr, a.Beside peers.intervals) : ¬ InTurn t peers tr := by
  rintro ⟨ns, pre, trs, post, rfl, -, hatt⟩
  cases hl : peers.toList with
  | nil => exact hp (Std.ExtTreeMap.toList_eq_nil_iff.1 hl)
  | cons e l =>
    rw [hl] at hatt
    cases hatt with
    | cons he _ =>
      have hmem : e.2.interval ∈ peers.intervals := by
        rw [PeerSet.intervals, hl]
        exact List.mem_map_of_mem List.mem_cons_self
      exact attempt_reaches he hmem fun a ha => h a (by simp [ha])

/-- **Cycles that went wrong leave the nodes downstream waiting.** Once the own cycle has been
ended, every peer is tried if and only if there is none, or the finish clock returns and nothing is
wrong with the cycle; otherwise none is tried. The server must have spared the port. -/
theorem peers_tried_iff (mem : Shm) (counter : Fd → ℕ) (moves : List Move) (wake : Owner.Wake)
    (k : Kernel) (script : List (List ServerAct)) :
    let s := (init mem counter).run moves
    let tr := s.world.performed (s.exec (.wake wake) k script).2.world
    ∀ t g, s.session.transport = some t → s.session.output = some g → Sparing g.places script →
      t.finish ∈ tr →
      (InTurn t s.session.peers tr ↔ s.session.peers = ∅ ∨
        wake.finishTime.isSome ∧ g.Faultless wake.callback s.world.mem) ∧
      (¬ InTurn t s.session.peers tr → ∀ a ∈ tr, a.Beside s.session.peers.intervals) := by
  intro s tr t g hT hG hspare hfin
  have hc : s.session.Coherent := run_coherent mem counter moves
  obtain ⟨r, -, hphases⟩ := s.exec_phases hc wake k script
  obtain ⟨tr', hdid, hcase⟩ := Phases.trace (s := s.scripted script) hc hphases
  obtain rfl : tr = tr' := Did.performed (w := s.world) hdid
  rcases hcase with hleft | ⟨t', g', result, ns, w, hT', hG', hran, hend⟩
  · exact absurd hfin (hleft.1 t hT)
  obtain rfl : t = t' := Option.some.inj (hT.symm.trans hT')
  obtain rfl : g = g' := Option.some.inj (hG.symm.trans hG')
  have hon : On g.places s.world.mem (calls s.world.log) (s.scripted script).world :=
    ⟨hspare, fun i _ => .refl i _, rfl⟩
  have hok := Ran.isOk_iff (hc.transport_output t g hT hG) (hc.sound g hG) hran hon
  cases result with
  | ok v => exact ⟨⟨fun _ => Or.inr (hok.1 rfl), fun _ => hend.2⟩, fun h => absurd hend.2 h⟩
  | error e =>
    have hbeside := hend.2.beside (peers_beside_own (s := s) hc hT)
    have hno : ¬ (wake.finishTime.isSome ∧ g.Faultless wake.callback s.world.mem) := fun h =>
      absurd (hok.2 h) (by simp [Except.isOk, Except.toBool])
    refine ⟨⟨fun hin => ?_, fun h => ?_⟩, fun _ => hbeside⟩
    · by_contra hcon
      exact not_inTurn (fun h => hcon (Or.inl h)) hbeside hin
    · obtain ⟨pre, post, htr, ha⟩ := hend.2
      refine ⟨ns, pre, [], post, htr, ha, ?_⟩
      rw [h.resolve_right hno, Std.ExtTreeMap.toList_eq_nil_iff.2 rfl]
      exact .nil

/-- The sample session, whose callback commits a frame: nothing is wrong with the cycle, and the
peer is tried. -/
theorem peers_tried_sample :
    let s := (init Sample.mem Sample.counter).run (Sample.start ++ Sample.trigger)
    let tr := s.world.performed
      (s.exec (.wake ⟨1, 5, some 6, Sample.callback⟩) Sample.kernel []).2.world
    ∃ t g, s.session.transport = some t ∧ s.session.output = some g ∧
      g.Faultless Sample.callback s.world.mem ∧ InTurn t s.session.peers tr := by
  obtain ⟨t, hT⟩ : ∃ t, ((init Sample.mem Sample.counter).run
      (Sample.start ++ Sample.trigger)).session.transport = some t :=
    Option.isSome_iff_exists.1 (by decide +kernel)
  obtain ⟨g, hG⟩ : ∃ g, ((init Sample.mem Sample.counter).run
      (Sample.start ++ Sample.trigger)).session.output = some g :=
    Option.isSome_iff_exists.1 (by decide +kernel)
  have hfin : (((init Sample.mem Sample.counter).run
      (Sample.start ++ Sample.trigger)).session.transport.map fun t : TransportGeneration =>
        decide (t.finish ∈ ((init Sample.mem Sample.counter).run
          (Sample.start ++ Sample.trigger)).world.performed (((init Sample.mem Sample.counter).run
            (Sample.start ++ Sample.trigger)).exec (.wake ⟨1, 5, some 6, Sample.callback⟩)
              Sample.kernel []).2.world)) = some true := by decide +kernel
  rw [hT, Option.map_some, Option.some.injEq, decide_eq_true_eq] at hfin
  have h := peers_tried_iff Sample.mem Sample.counter (Sample.start ++ Sample.trigger)
    ⟨1, 5, some 6, Sample.callback⟩ Sample.kernel [] t g hT hG (by simp [Sparing]) hfin
  -- the version of the peer was loaded, so it was not left alone
  have hivs : ((init Sample.mem Sample.counter).run
      (Sample.start ++ Sample.trigger)).session.peers.intervals = [⟨Sample.backing, 4096, 6408⟩] := by
    decide +kernel
  have hload : Action.load .serverVersion ⟨Sample.backing, 4640⟩ 4 1 ∈
      ((init Sample.mem Sample.counter).run (Sample.start ++ Sample.trigger)).world.performed
        (((init Sample.mem Sample.counter).run (Sample.start ++ Sample.trigger)).exec
          (.wake ⟨1, 5, some 6, Sample.callback⟩) Sample.kernel []).2.world := by decide +kernel
  have hin := not_imp_comm.1 h.2 fun hb => by
    have hdis := hb _ hload
    rw [hivs] at hdis
    exact absurd (hdis _ (List.mem_singleton.2 rfl)) (by decide)
  refine ⟨t, g, hT, hG, ?_, hin⟩
  refine ((h.1.1 hin).resolve_left fun hnone => ?_).2
  rw [hnone] at hivs
  exact absurd hivs (by decide)

/-- The sample session, whose callback returns an error, or whose finish clock panics. The own
cycle is ended, and the peer that waits for it not tried. -/
theorem downstream_waits :
    let s := (init Sample.mem Sample.counter).run (Sample.start ++ Sample.trigger)
    let fails := s.exec (.wake ⟨1, 5, some 6, fun _ _ => ([], .returned (.error "failed"))⟩)
      Sample.kernel []
    let panics := s.exec (.wake ⟨1, 5, none, Sample.callback⟩) Sample.kernel []
    errorOf fails.1 = some (.error (.callback "failed")) ∧
      errorOf panics.1 = some (.error .finishClockPanicked) ∧
      s.session.peers.toList.length = 1 ∧
      ∀ s' ∈ [fails.2, panics.2],
        s.session.transport.map (fun t : TransportGeneration => decide (t.finish ∈ s.world.performed s'.world)) =
          some true ∧
        ∀ e ∈ s.session.peers.toList, e.2.attempts (s.world.performed s'.world) = 0 := by
  decide +kernel

end Sys

end PipewireNative.Node
