import PipewireNative.Node.Sealed

/-!
Cycles in which the IO record asks for no data. Such a cycle selects no buffer and runs no callback,
and the output is left as it was: but for the rollback that follows a finish clock that panics. The
rollback goes by what the IO record announces, not by what this cycle did, and takes back the
publication of an earlier cycle that the server has not consumed yet.
-/

namespace PipewireNative.Node

open Lib Lib.Word Prog World

/-- The cycles claimed so far. -/
def World.claims (log : List Event) : ℕ :=
  log.countP fun
    | .own a => a.moved .triggered .awake
    | .server _ _ => false

def TransportGeneration.statusSpan (t : TransportGeneration) : MemoryInterval :=
  storeSpan (statusOf t.interval) 4

namespace OutputGeneration

variable (g : OutputGeneration)

/-- The IO record asks for no data. -/
def Unasked (m : Shm) : Prop :=
  asI32 (m.word (g.io.at_ Abi.ioStatus) 4) ≠ BufferStatus.needData.code

instance (m : Shm) : Decidable (g.Unasked m) := by unfold Unasked; infer_instance

/-- Every byte of the IO area, of the metadata and of the media is what it was. -/
def Kept (m m' : Shm) : Prop := ∀ i ∈ g.intervals, Memory.Agree i m' m

end OutputGeneration

/-! ### The log and the parts that are spared -/

section Parts

variable {ivs : List MemoryInterval} {m : Shm} {ids : List (ℕ × Handed)} {w w' : World}

lemma World.Steps.claims {P : Action → Prop} (h : Steps P w w')
    (hP : ∀ a, P a → a.moved .triggered .awake = false) : claims w'.log = claims w.log := by
  obtain ⟨new, hlog, hnew⟩ := h.log
  unfold World.claims
  rw [hlog, List.countP_append, Nat.add_eq_right, List.countP_eq_zero]
  intro e he
  cases e with
  | own a => simp [hP a (hnew a he)]
  | server => simp

lemma World.Idle.not_claim {r : MemoryInterval} {a : Action} (h : Idle r a) :
    a.moved .triggered .awake = false := by
  cases a with
  | exchange f l x d seen =>
    have hne := h.1
    simp only [Action.moved, decide_eq_false_iff_not]
    rintro ⟨-, rfl, -, rfl⟩
    exact hne rfl
  | _ => rfl

lemma Sparing.steps {P : Action → Prop} (h : Sparing ivs w.script) (hs : Steps P w w') :
    Sparing ivs w'.script := by
  induction hs with
  | refl => exact h
  | @tail v _ _ hstep ih =>
    cases hstep with
    | interfere =>
      have hv : On ivs v.mem (calls v.log) v := ⟨ih, fun i _ => .refl i _, rfl⟩
      exact hv.interfere.sparing
    | own a _ _ => exact ih

lemma World.On.mono {ivs' : List MemoryInterval} (h : On ivs m ids w)
    (hsub : ∀ i ∈ ivs', i ∈ ivs) : On ivs' m ids w := by
  refine ⟨fun acts hacts a ha => ?_, fun i hi => h.agree i (hsub i hi), h.called⟩
  have hav := h.sparing acts hacts a ha
  cases a with
  | store l bs => exact fun i hi => hav i (hsub i hi)
  | signal => trivial

lemma World.On.place (h : On ivs m ids w) {i : MemoryInterval} (hi : i ∈ ivs) {l : Addr} {n : ℕ}
    (hl : i.Covers l n) : On (storeSpan l n :: ivs) m ids w := by
  refine ⟨fun acts hacts a ha => ?_, List.forall_mem_cons.2 ⟨(h.agree i hi).of_covers hl, h.agree⟩,
    h.called⟩
  have hav := h.sparing acts hacts a ha
  cases a with
  | store l' bs => exact List.forall_mem_cons.2 ⟨((hav i hi).symm.of_covers hl).symm, hav⟩
  | signal => trivial

end Parts

/-! ### Beside the output -/

section Beside

variable {t : TransportGeneration} {g : OutputGeneration}

lemma field_beside (hdis : ∀ i ∈ g.intervals, t.interval.Disjoint i) {field n : ℕ}
    (hf : field + n ≤ Abi.size) :
    ∀ i ∈ g.intervals, i.Disjoint (storeSpan (t.activation.at_ field) n) := fun i hi =>
  (hdis i hi).symm.of_covers (t.activation.covers (hf.trans t.fits))

lemma statusWord_beside (hdis : ∀ i ∈ g.intervals, t.interval.Disjoint i) :
    ∀ i ∈ g.intervals, i.Disjoint (storeSpan (statusOf t.interval) 4) := fun i hi =>
  (hdis i hi).symm.of_covers t.isRecord.covers_status

lemma field_beside_status {field n : ℕ} (hf : 4 ≤ field) :
    ∀ i ∈ [t.statusSpan], i.Disjoint (storeSpan (t.activation.at_ field) n) := by
  intro i hi _
  rw [List.mem_singleton.1 hi]
  refine Or.inl ?_
  simp only [TransportGeneration.statusSpan, storeSpan, statusOf, MemoryMapping.at_,
    TransportGeneration.interval, MemoryMapping.interval]
  omega

lemma World.Waking.avoids {ivs : List MemoryInterval} {a : Action}
    (ha : Waking t.interval ivs a) (hdis : ∀ i ∈ g.intervals, t.interval.Disjoint i)
    (hivs : ∀ i ∈ ivs, ∀ j ∈ g.intervals, i.Disjoint j) : a.Avoids g.intervals := by
  have hstatus := statusWord_beside hdis
  cases a with
  | store f l bs =>
    intro i hi
    rcases ha.2 with ⟨j, hj, hcov⟩ | ⟨n, -, hn, rfl⟩
    · exact (hivs j hj i hi).symm.of_covers hcov
    · exact field_beside hdis (hn.trans (by decide)) i hi
  | exchange f l x d seen =>
    rcases ha with hne | ⟨j, hj, hcov⟩ | ⟨rfl, -⟩
    · exact Or.inl hne
    · exact Or.inr fun i hi => (hivs j hj i hi).symm.of_covers hcov
    · exact Or.inr hstatus
  | swap f l d seen =>
    obtain ⟨rfl, -⟩ := ha
    exact hstatus
  | load | drain | signal | failedSignal => trivial
  | _ => exact ha.elim

end Beside

/-! ### One cycle -/

section Cycle

variable {t : TransportGeneration} {g : OutputGeneration} {ivs : List MemoryInterval} {m : Shm}
  {ids : List (ℕ × Handed)} {w w₁ : World} {wake : Owner.Wake} {ns : ℕ}
  {result : Except SessionError (Option PublishedOutput)}

/-- A cycle that is asked for no data only reads; the checks of its records may fail. -/
theorem OutputGeneration.process_unasked (hio : g.io.interval ∈ ivs) (hst : g.Unasked m)
    (hw : On ivs m ids w) (callback : OutputProcess) :
    (g.process callback).Ends w (fun _ w' => Steps Reads w w')
      (fun u w' => Steps Reads w w' ∧ ∃ e, u = .error (.port e)) := by
  unfold process
  simp only [ends_bind, ends_mapErr, ends_ofExcept]
  split
  case h_2 => exact ⟨.refl, _, rfl⟩
  rename_i io hview
  have hio' := BuffersIoView.fromRawParts_ok hview
  refine g.outputBuffers_ends.mono (fun bs w₁ h => ?_) fun e _ h => ⟨h, e, rfl⟩
  rw [← hio'] at hio
  unfold OutputGeneration.Unasked at hst
  rw [← hio'] at hst
  refine ((select_on hio bs g.format (hw.reads h.1)).and (select_ends io bs g.format)).mono
    (fun o w₂ h₂ => ?_) fun _ _ h₂ => absurd h₂.1.2.1 hst
  obtain ⟨⟨-, hnone, -⟩, hs, -⟩ := h₂
  rw [hnone.2 hst]
  exact h.1.trans hs

section Ran

variable (hran : Ran t g wake w result ns w₁) (hst : g.Unasked m) (hw : On g.intervals m ids w)
  (hdis : ∀ i ∈ g.intervals, t.interval.Disjoint i)
include hran hst hw hdis

lemma Ran.reads : ∃ p wa wb status, Opened t wake.awakeNs w wa ∧ On g.intervals m ids wa ∧
    Steps Reads wa wb ∧ (∀ u, p = .error u → ∃ e, u = .error (.port e)) ∧
    TransportGeneration.finishResult wake.awakeNs wake.finishTime
      (TransportGeneration.cycleResult p).1 (TransportGeneration.cycleResult p).2 =
        (result, status, ns) ∧
    w₁ = t.reported status ns wb := by
  obtain ⟨p, wa, wb, status, hopen, hproc, hres, hw₁⟩ := hran
  have hwa := hopen.spared (statusWord_beside hdis)
    (field_beside hdis (by decide)) hw
  have hp := g.process_unasked (List.mem_cons_self ..) hst hwa wake.callback
  rw [ends_of_run hproc, ends_ofExcept] at hp
  cases p with
  | ok v => exact ⟨.ok v, wa, wb, status, hopen, hwa, hp, (fun u hu => nomatch hu), hres, hw₁⟩
  | error u =>
    refine ⟨_, wa, wb, status, hopen, hwa, hp.1, fun u' hu => ?_, hres, hw₁⟩
    cases hu
    exact hp.2

/-- Up to the exchange that ends it, the cycle leaves the output; and it goes wrong over its finish
clock exactly when that panics. -/
lemma Ran.unasked : On g.intervals m ids w₁ ∧
    (result = .error .finishClockPanicked ↔ wake.finishTime = none) := by
  obtain ⟨p, wa, wb, status, -, hwa, hreads, hport, hres, rfl⟩ := hran.reads hst hw hdis
  refine ⟨((hwa.reads hreads).stored_beside .processResult ?_).stored_beside .finishTime ?_, ?_⟩
  · rw [leBytes_length]; exact field_beside hdis (by decide)
  · rw [leBytes_length]; exact field_beside hdis (by decide)
  · unfold TransportGeneration.finishResult at hres
    cases hf : wake.finishTime with
    | none =>
      rw [hf] at hres
      simp only [Prod.mk.injEq] at hres
      simp [← hres.1]
    | some finishNs =>
      rw [hf] at hres
      simp only [Prod.mk.injEq] at hres
      rw [← hres.1]
      cases p with
      | ok v => simp [TransportGeneration.cycleResult]
      | error u =>
        obtain ⟨e, rfl⟩ := hport u rfl
        simp [TransportGeneration.cycleResult]

lemma Ran.awake (hsp : Sparing [t.statusSpan] w.script) {w₂ : World} :
    ¬ Misses t.interval .awake .finished w₁ w₂ := by
  obtain ⟨p, wa, wb, status, hopen, -, hreads, -, -, rfl⟩ := hran.reads hst hw hdis
  obtain ⟨v₁, v₂, hs, -, ⟨-, rfl⟩, rfl⟩ := hopen
  set v := v₁.interfere.perform (.exchange .status (statusOf t.interval)
    ActivationStatus.triggered.code ActivationStatus.awake.code ActivationStatus.triggered.code)
    with hv
  have hword : v.mem.word (statusOf t.interval) 4 = ActivationStatus.awake.code := by
    rw [hv, perform_mem, effect, if_pos rfl]
    exact Memory.word_setWord_same (ActivationStatus.code_lt _)
  have hsp' : Sparing [t.statusSpan] v₁.interfere.script :=
    (hsp.steps hs).steps (steps_interfere Reads v₁)
  have hon : On [t.statusSpan] v.mem (calls v.log) v := ⟨hsp', fun i _ => .refl i _, rfl⟩
  have hend : On [t.statusSpan] v.mem (calls v.log) (t.reported status ns wb) := by
    refine (((hon.stored_beside .awakeTime ?_).reads hreads).stored_beside .processResult
      ?_).stored_beside .finishTime ?_
    all_goals exact field_beside_status (by decide)
  rintro ⟨hne, -⟩
  refine hne ?_
  rw [hend.interfere.word (List.mem_singleton_self _) covers_of_span]
  exact hword

end Ran

lemma OutputGeneration.abortPublished_kept (hg : g.Sound) (hw : On g.intervals m ids w) :
    ∃ m', On g.intervals m' ids (g.abortPublished w).2 ∧
      ((∀ id, ¬ g.Presents id m) → m' = m) ∧
      ∀ id, g.Presents id m →
        m'.word (g.io.at_ Abi.ioStatus) 4 = BufferStatus.needData.code := by
  -- with the output, the chunk the rollback may write to is spared
  obtain ⟨ivs, hsub, hchunk, hon⟩ : ∃ ivs, (∀ i ∈ g.intervals, i ∈ ivs) ∧
      (∀ b, g.buffers[m.word (g.io.at_ Abi.ioBufferId) 4]? = some b → b.chunk.span ∈ ivs) ∧
      On ivs m ids w := by
    cases hb : g.buffers[m.word (g.io.at_ Abi.ioBufferId) 4]? with
    | none => exact ⟨_, fun _ h => h, (fun b h => nomatch h), hw⟩
    | some b =>
      have hmem := List.mem_of_getElem? hb
      refine ⟨_, fun i hi => List.mem_cons_of_mem _ hi, fun b' h => ?_,
        hw.place (mem_intervals hmem).1 (b.metadata.covers (hg.chunk_fits b hmem))⟩
      cases h
      exact List.mem_cons_self
  rcases g.abortPublished_cases (fun _ => ⟨hsub _ (List.mem_cons_self ..), hchunk⟩) hon with
    ⟨b, hb, hpres, hw'⟩ | ⟨hnot, hw'⟩
  · exact ⟨_, hw'.mono hsub, fun h => absurd hpres (h _), fun _ _ => ioWrite_status⟩
  · exact ⟨m, hw'.mono hsub, fun _ => rfl, fun id h => absurd h (hnot id)⟩

end Cycle

/-- Nothing is rolled back behind a cycle that published nothing itself: the finish clock returns,
or the IO record announces no buffer whose chunk the checks accept. -/
def OutputGeneration.NoRollback (g : OutputGeneration) (finishTime : Option ℕ) (m : Shm) : Prop :=
  finishTime ≠ none ∨ ∀ id, ¬ g.Presents id m

namespace Sys

/-- A wake that claims a cycle and is asked for no data. -/
theorem Phases.unasked {k : Kernel} {wake : Owner.Wake} {s s' : Sys} {r : Except Unwind WakeOutcome}
    {t : TransportGeneration} {g : OutputGeneration} {m : Shm} {ids : List (ℕ × Handed)}
    (h : Phases k wake s r s') (hc : s.session.Coherent) (hT : s.session.transport = some t)
    (hG : s.session.output = some g) (hw : On g.intervals m ids s.world) (hst : g.Unasked m)
    (hclaim : claims s.world.log < claims s'.world.log) :
    ∃ m', On g.intervals m' ids s'.world ∧ (g.NoRollback wake.finishTime m → m' = m) ∧
      (Sparing [t.statusSpan] s.world.script → ¬ g.NoRollback wake.finishTime m →
        m'.word (g.io.at_ Abi.ioStatus) 4 = BufferStatus.needData.code) := by
  have hdis := hc.transport_output t g hT hG
  have hstatus := statusWord_beside hdis
  have idle : ∀ {w w'}, On g.intervals m ids w → Steps (Idle t.interval) w w' →
      On g.intervals m ids w' := fun hw hs => hw.steps hs fun a ha => ha.avoids hstatus
  have ended : ∀ {w w'}, On g.intervals m ids w → Shifts t.interval .awake .finished w w' →
      On g.intervals m ids w' := by
    rintro w w' hw ⟨-, rfl⟩
    exact hw.interfere.perform (Or.inr hstatus)
  have triggered : ∀ {w w' ns r}, On g.intervals m ids w →
      s.session.peers.triggerAll k ns w = (r, w') → On g.intervals m ids w' := by
    intro w w' ns r hw htrig
    have hs : Steps (Waking t.interval s.session.peers.intervals) w w' := by
      have := PeerSet.does_triggerAll (r := t.interval) s.session.peers (fun _ hi => hi) k ns w
      rwa [htrig] at this
    exact hw.steps hs fun a ha => ha.avoids hdis (peers_beside_output hc hG)
  -- a cycle that goes through has a finish clock that returned
  have returned : ∀ {w₁ ns v}, Ran t g wake s.world (.ok v) ns w₁ → g.NoRollback wake.finishTime m :=
    fun hran => Or.inl fun hnone => by simpa using (hran.unasked hst hw hdis).2.2 hnone
  cases h with
  | ignored => exact absurd hclaim (Nat.lt_irrefl _)
  | unclaimed t' r st w hT' hr hs =>
    exact absurd hclaim (by rw [hs.claims fun a ha => ha.not_claim]; exact Nat.lt_irrefl _)
  | unfinished t' g' result ns e w₁ w₂ w₃ hT' hG' hran hmiss hs =>
    obtain rfl := Option.some.inj (hT.symm.trans hT')
    obtain rfl := Option.some.inj (hG.symm.trans hG')
    refine ⟨m, idle (idle (hran.unasked hst hw hdis).1 hmiss.steps) hs, fun _ => rfl, fun hsp => ?_⟩
    exact absurd hmiss (hran.awake hst hw hdis hsp)
  | triggered t' g' v ns o w₁ w₂ w₃ hT' hG' hran hshift htrig =>
    obtain rfl := Option.some.inj (hT.symm.trans hT')
    obtain rfl := Option.some.inj (hG.symm.trans hG')
    exact ⟨m, triggered (ended (hran.unasked hst hw hdis).1 hshift) htrig, fun _ => rfl,
      fun _ hno => absurd (returned hran) hno⟩
  | untriggered t' g' v ns e w₁ w₂ w₃ hT' hG' hran hshift htrig =>
    obtain rfl := Option.some.inj (hT.symm.trans hT')
    obtain rfl := Option.some.inj (hG.symm.trans hG')
    exact ⟨m, idle (triggered (ended (hran.unasked hst hw hdis).1 hshift) htrig) (t.dropped_steps _),
      fun _ => rfl, fun _ hno => absurd (returned hran) hno⟩
  | faulted t' g' e ns w₁ w₂ hT' hG' hran hshift =>
    obtain rfl := Option.some.inj (hT.symm.trans hT')
    obtain rfl := Option.some.inj (hG.symm.trans hG')
    obtain ⟨hw₁, hclock⟩ := hran.unasked hst hw hdis
    have hw₂ := ended hw₁ hshift
    unfold OutputGeneration.unwound
    by_cases he : e = .finishClockPanicked
    · rw [if_pos he]
      obtain ⟨m', hw', hsame, hback⟩ := g.abortPublished_kept (hc.sound g hG) hw₂
      refine ⟨m', hw'.steps (t.dropped_steps _) fun a ha => ha.avoids hstatus, fun hno => ?_,
        fun _ hno => ?_⟩
      · exact hsame (hno.resolve_left fun hf => hf (hclock.1 (by rw [he])))
      · obtain ⟨id, hid⟩ := not_forall_not.1 (not_or.1 hno).2
        exact hback id hid
    · rw [if_neg he]
      refine ⟨m, idle hw₂ (t.dropped_steps _), fun _ => rfl, fun _ hno => absurd ?_ he⟩
      simpa using hclock.2 (not_not.1 (not_or.1 hno).1)

lemma output_of_any {o : Option OutputGeneration} {P : OutputGeneration → Prop} [DecidablePred P]
    (h : o.any (fun g => decide (P g)) = true) : ∃ g, o = some g ∧ P g := by
  cases o with
  | none => cases h
  | some g => exact ⟨g, rfl, of_decide_eq_true h⟩

/-- **Cycles that are asked for no data.** A wake that claims a cycle while the IO status is not
`NEED_DATA` keeps every byte of the IO area, of the metadata and of the media, whatever they hold,
if its finish clock returns or the IO record announces no buffer whose chunk the checks accept.
Where the server leaves the status of the own record alone, so that the cycle is ended, it keeps
them only then. The server spares these bytes: a byte it stores itself is not the wake's. -/
theorem unasked_kept_iff (mem : Shm) (counter : Fd → ℕ) (moves : List Move) (wake : Owner.Wake)
    (k : Kernel) (script : List (List ServerAct)) :
    let s := (init mem counter).run moves
    let s' := (s.exec (.wake wake) k script).2
    ∀ t g, s.session.transport = some t → s.session.output = some g →
      Sparing g.intervals script → claims s.world.log < claims s'.world.log →
      g.Unasked s.world.mem →
      (g.NoRollback wake.finishTime s.world.mem → g.Kept s.world.mem s'.world.mem) ∧
        (Sparing [t.statusSpan] script →
          (g.Kept s.world.mem s'.world.mem ↔ g.NoRollback wake.finishTime s.world.mem)) := by
  intro s s' t g hT hG hspare hclaim hst
  have hc : s.session.Coherent := run_coherent mem counter moves
  obtain ⟨r, -, hphases⟩ := s.exec_phases hc wake k script
  have hon : On g.intervals s.world.mem (calls s.world.log) (s.scripted script).world :=
    ⟨hspare, fun i _ => .refl i _, rfl⟩
  obtain ⟨m', hw', hsame, hback⟩ := hphases.unasked hc hT hG hon hst hclaim
  have hkept : g.NoRollback wake.finishTime s.world.mem → g.Kept s.world.mem s'.world.mem := by
    intro hno i hi
    rw [← hsame hno]
    exact hw'.agree i hi
  refine ⟨hkept, fun hsp => ⟨fun hk => ?_, hkept⟩⟩
  by_contra hno
  obtain ⟨id, hid⟩ := not_forall_not.1 (not_or.1 hno).2
  -- the status announced is not the one the rollback leaves
  obtain ⟨io, hview⟩ := hid.view
  have hcov : g.io.interval.Covers (g.io.at_ Abi.ioStatus) 4 :=
    g.io.covers (by rw [OutputGeneration.len_of_view hview]; decide)
  have hmem : g.io.interval ∈ g.intervals := List.mem_cons_self ..
  have hword := (hk _ hmem).word hcov
  rw [hw'.word hmem hcov, hback hsp hno, hid.status] at hword
  exact absurd hword (by decide)

/-- The sample session in a second cycle, while the buffer of the first is still announced. -/
theorem unasked_kept_announced :
    let s := (init Sample.mem Sample.counter).run (Sample.cycle ++ Sample.trigger)
    let s' := (s.exec (.wake ⟨1, 7, some 8, Sample.callback⟩) Sample.kernel []).2
    claims s.world.log < claims s'.world.log ∧
      ∃ g, s.session.output = some g ∧ g.Unasked s.world.mem ∧ g.Kept s.world.mem s'.world.mem := by
  obtain ⟨t, hT⟩ : ∃ t, ((init Sample.mem Sample.counter).run
      (Sample.cycle ++ Sample.trigger)).session.transport = some t :=
    Option.isSome_iff_exists.1 (by decide +kernel)
  obtain ⟨g, hG, hst⟩ : ∃ g, ((init Sample.mem Sample.counter).run
      (Sample.cycle ++ Sample.trigger)).session.output = some g ∧
        g.Unasked ((init Sample.mem Sample.counter).run (Sample.cycle ++ Sample.trigger)).world.mem :=
    output_of_any (by decide +kernel)
  have hclaim : claims ((init Sample.mem Sample.counter).run
      (Sample.cycle ++ Sample.trigger)).world.log <
        claims (((init Sample.mem Sample.counter).run (Sample.cycle ++ Sample.trigger)).exec
          (.wake ⟨1, 7, some 8, Sample.callback⟩) Sample.kernel []).2.world.log := by decide +kernel
  have h := unasked_kept_iff Sample.mem Sample.counter (Sample.cycle ++ Sample.trigger)
    ⟨1, 7, some 8, Sample.callback⟩ Sample.kernel [] t g hT hG (by simp [Sparing]) hclaim hst
  exact ⟨hclaim, g, hG, hst, h.1 (Or.inl (by simp))⟩

/-- The same cycle, but its finish clock panics: the buffer the first cycle published is taken back,
and the IO status is moved from `HAVE_DATA` to `NEED_DATA`. -/
theorem unasked_taken_back :
    let s := (init Sample.mem Sample.counter).run (Sample.cycle ++ Sample.trigger)
    let s' := (s.exec (.wake ⟨1, 7, none, Sample.callback⟩) Sample.kernel []).2
    claims s.world.log < claims s'.world.log ∧
      ∃ g, s.session.output = some g ∧ g.Unasked s.world.mem ∧ ¬ g.Kept s.world.mem s'.world.mem := by
  intro s s'
  obtain ⟨g, hG, hst, hstart, hstop, hne⟩ : ∃ g, s.session.output = some g ∧
      g.Unasked s.world.mem ∧ g.io.interval.start ≤ 8192 ∧ 8192 < g.io.interval.stop ∧
        s'.world.mem g.io.interval.obj 8192 ≠ s.world.mem g.io.interval.obj 8192 :=
    output_of_any (by decide +kernel)
  exact ⟨by decide +kernel, g, hG, hst, fun hk => hne (hk _ (List.mem_cons_self ..) 8192 hstart hstop)⟩

end Sys

end PipewireNative.Node
