import PipewireNative.Node.Coherent

/-!
Callbacks are authorized by the server. The log of a run says which record was the session's own
at each time, how often the server set the status of that record to `TRIGGERED`, and how often the
callback ran; a running session never has more callbacks, counting the one its status word still
allows, than there were triggers.
-/

namespace PipewireNative.Node

open Lib Lib.Word Prog World Sys

namespace World

/-! ### What the log says -/

/-- The interval of the own record after a log, newest event first. -/
def ownAt : List Event → Option MemoryInterval
  | [] => none
  | .own (.install _ r _) :: _ => some r
  | .own .release :: _ => none
  | _ :: log => ownAt log

def callbacks : List Event → ℕ
  | [] => 0
  | .own (.callback _ _) :: log => callbacks log + 1
  | _ :: log => callbacks log

/-- The IDs of the transport generations installed, newest first. -/
def installs : List Event → List ℕ
  | [] => []
  | .own (.install id _ _) :: log => id :: installs log
  | _ :: log => installs log

/-- Whether the record in `r` is triggered. -/
def Triggered (own : Option MemoryInterval) (m : Shm) : Prop :=
  ∃ r, own = some r ∧ m.word (statusOf r) 4 = ActivationStatus.triggered.code

instance (own : Option MemoryInterval) (m : Shm) : Decidable (Triggered own m) :=
  match own with
  | none => isFalse (by rintro ⟨r, h, -⟩; cases h)
  | some r => decidable_of_iff (m.word (statusOf r) 4 = ActivationStatus.triggered.code)
      ⟨fun h => ⟨r, rfl, h⟩, by rintro ⟨r', h, h'⟩; cases h; exact h'⟩

/-- The number of times the server set the status of the own record to `TRIGGERED`. -/
def triggers : List Event → ℕ
  | [] => 0
  | .server before after :: log =>
    triggers log + if ¬ Triggered (ownAt log) before ∧ Triggered (ownAt log) after then 1 else 0
  | _ :: log => triggers log

/-- An action the counts do not see. -/
def Silent : Action → Prop
  | .callback _ _ | .install _ _ _ | .release => False
  | _ => True

section Counts

variable {a : Action} {log : List Event}

lemma Silent.ownAt (h : Silent a) : ownAt (.own a :: log) = ownAt log := by
  cases a <;> first | rfl | exact h.elim

lemma Silent.callbacks (h : Silent a) : callbacks (.own a :: log) = callbacks log := by
  cases a <;> first | rfl | exact h.elim

lemma Silent.installs (h : Silent a) : installs (.own a :: log) = installs log := by
  cases a <;> first | rfl | exact h.elim

lemma triggers_own : triggers (.own a :: log) = triggers log := by
  cases a <;> rfl

lemma callbacks_append (log log' : List Event) :
    callbacks (log ++ log') = callbacks log + callbacks log' := by
  induction log with
  | nil => simp [callbacks]
  | cons e log ih =>
    rw [List.cons_append]
    rcases e with ⟨b, a⟩ | ⟨_ | _ | _ | _ | _ | _ | _ | _ | _ | _⟩ <;>
      simp only [callbacks, ih]
    omega

lemma callbacks_eq_zero {log : List Event}
    (h : ∀ a, Event.own a ∈ log → ∀ b x, a ≠ .callback b x) : callbacks log = 0 := by
  induction log with
  | nil => rfl
  | cons e log ih =>
    have ih' := ih fun a ha => h a (List.mem_cons_of_mem _ ha)
    cases e with
    | server b a => exact ih'
    | own a =>
      cases a with
      | callback b x => exact absurd rfl (h _ List.mem_cons_self b x)
      | _ => exact ih'

lemma Silent.no_callback (h : Silent a) (b : ℕ) (x : Handed) : a ≠ .callback b x := by
  rintro rfl
  exact h

end Counts

/-! ### Credit -/

/-- The callbacks so far, `h` more, and the one a triggered own record still allows when the
session is armed, are covered by the triggers so far. -/
structure Credit (armed : Bool) (h : ℕ) (own : Option MemoryInterval) (w : World) : Prop where
  own_eq : ownAt w.log = own
  covered : callbacks w.log + h + (if armed ∧ Triggered own w.mem then 1 else 0) ≤ triggers w.log

section Credit

variable {armed : Bool} {h : ℕ} {own : Option MemoryInterval} {w w' : World}

lemma Credit.disarm (hc : Credit armed h own w) : Credit false h own w := by
  refine ⟨hc.own_eq, ?_⟩
  have := hc.covered
  simp only [Bool.false_eq_true, false_and, if_false] at this ⊢
  omega

lemma Credit.spend (hc : Credit armed h own w) {h' : ℕ} (hh : h' ≤ h) : Credit armed h' own w := by
  refine ⟨hc.own_eq, ?_⟩
  have := hc.covered
  omega

lemma Credit.serve (hc : Credit armed h own w) (a : ServerAct) : Credit armed h own (w.serve a) := by
  cases a with
  | signal fd n => exact ⟨hc.own_eq, hc.covered⟩
  | store l bs =>
    refine ⟨hc.own_eq, ?_⟩
    have := hc.covered
    simp only [World.serve, callbacks, triggers, hc.own_eq]
    by_cases hb : Triggered own w.mem <;> by_cases ha : Triggered own (w.mem.write l bs) <;>
      cases armed <;> simp_all <;> omega

lemma Credit.perform (hc : Credit armed h own w) {a : Action} (hs : Silent a)
    (ht : Triggered own (effect a w.mem) → Triggered own w.mem) :
    Credit armed h own (w.perform a) := by
  refine ⟨by rw [perform_log, hs.ownAt]; exact hc.own_eq, ?_⟩
  have := hc.covered
  rw [perform_log, hs.callbacks, triggers_own, perform_mem]
  by_cases hb : Triggered own (effect a w.mem)
  · have hb' := ht hb
    simp_all
  · simp only [hb, and_false, if_false]
    omega

/-- Steps of silent actions that do not trigger the own record keep the credit. -/
theorem Credit.steps (hc : Credit armed h own w) {P : Action → Prop} (hw : Steps P w w')
    (hP : ∀ (a : Action) (v : World), P a → v.Genuine a →
      Silent a ∧ (Triggered own (effect a v.mem) → Triggered own v.mem)) :
    Credit armed h own w' := by
  refine hw.keeps (I := Credit armed h own) hc (fun v s hv => ⟨hv.own_eq, hv.covered⟩)
    (fun v a hv => hv.serve a) fun v a hv hg ha => ?_
  exact hv.perform (hP a v ha hg).1 (hP a v ha hg).2

end Credit

/-! ### Actions that do not trigger the own record -/

section Words

variable {r : MemoryInterval} {m : Shm} {l : Addr} {n : ℕ}

lemma effect_word_apart {a : Action} (hs : ∀ f l' bs, a = .store f l' bs → Apart l' bs.length l n)
    (he : ∀ f l' x d seen, a = .exchange f l' x d seen → seen = x → Apart l' 4 l n)
    (hw : ∀ f l' d seen, a = .swap f l' d seen → Apart l' 4 l n) :
    (effect a m).word l n = m.word l n := by
  cases a with
  | store f l' bs => exact Memory.word_write_apart (hs f l' bs rfl)
  | exchange f l' x d seen =>
    unfold effect
    dsimp only
    split_ifs with h
    · exact Memory.word_setWord_apart (he f l' x d seen rfl h)
    · rfl
  | swap f l' d seen => exact Memory.word_setWord_apart (hw f l' d seen rfl)
  | _ => rfl

lemma Calm.status {R : MemoryInterval → Prop} {a : Action} (ha : Calm R a)
    (hR : ∀ r', R r' → IsRecord r') (hr : IsRecord r) :
    (effect a m).word (statusOf r) 4 = m.word (statusOf r) 4 ∨
      (effect a m).word (statusOf r) 4 = ActivationStatus.inactive.code := by
  by_cases hsame : ∃ f d seen, a = .swap f (statusOf r) d seen
  · obtain ⟨f, d, seen, rfl⟩ := hsame
    obtain ⟨rfl, -⟩ := ha
    exact Or.inr (Memory.word_setWord_same (ActivationStatus.code_lt _))
  · refine Or.inl (effect_word_apart ?_ ?_ ?_)
    · rintro f l' bs rfl
      obtain ⟨-, hlen, r', hr', rfl⟩ := ha
      rw [hlen]
      have h8 := (hR r' hr').1
      exact apart_of_odd (by simp only [Abi.clientVersion]; omega) hr.1
    · rintro f l' x d seen rfl hseen
      exact absurd hseen ha
    · rintro f l' d seen rfl
      obtain ⟨-, r', hr', rfl⟩ := ha
      refine apart_of_aligned (hR r' hr').1 hr.1 fun h => hsame ⟨f, d, seen, by rw [h]⟩

/-- What a wake does in the background moves the status of its own record from `AWAKE` to
`FINISHED` or to `INACTIVE`, or leaves it. -/
lemma Waking.status {ivs : List MemoryInterval} {a : Action} {v : World} (ha : Waking r ivs a)
    (hg : v.Genuine a) (hr : IsRecord r) (hivs : ∀ i ∈ ivs, r.Disjoint i) :
    (effect a v.mem).word (statusOf r) 4 = v.mem.word (statusOf r) 4 ∨
      (v.mem.word (statusOf r) 4 = ActivationStatus.awake.code ∧
        (effect a v.mem).word (statusOf r) 4 = ActivationStatus.finished.code) ∨
      (effect a v.mem).word (statusOf r) 4 = ActivationStatus.inactive.code := by
  have hin : ∀ {l' n'}, (∃ i ∈ ivs, i.Covers l' n') → Apart l' n' (statusOf r) 4 :=
    fun ⟨i, hi, hc⟩ => ((hivs i hi).apart hr.covers_status hc).symm
  cases a with
  | store f l' bs =>
    obtain ⟨-, hc | ⟨k, hk, -, rfl⟩⟩ := ha
    · exact Or.inl (Memory.word_write_apart (hin hc))
    · refine Or.inl (Memory.word_write_apart fun _ => Or.inr ?_)
      simp only [statusOf]; omega
  | exchange f l' x d seen =>
    unfold effect
    dsimp only
    split_ifs with hseen
    · rcases ha with hne | hc | ⟨rfl, rfl, rfl⟩
      · exact absurd hseen hne
      · exact Or.inl (Memory.word_setWord_apart (hin hc))
      · have hawake : seen = v.mem.word (statusOf r) 4 := hg
        exact Or.inr (Or.inl ⟨hawake.symm.trans hseen,
          Memory.word_setWord_same (ActivationStatus.code_lt _)⟩)
    · exact Or.inl rfl
  | swap f l' d seen =>
    obtain ⟨rfl, rfl⟩ := ha
    exact Or.inr (Or.inr (Memory.word_setWord_same (ActivationStatus.code_lt _)))
  | _ => exact Or.inl rfl

end Words

lemma Calm.silent {R : MemoryInterval → Prop} {a : Action} (h : Calm R a) : Silent a := by
  cases a <;> trivial

lemma Waking.silent {r : MemoryInterval} {ivs : List MemoryInterval} {a : Action}
    (h : Waking r ivs a) : Silent a := by
  cases a <;> trivial

section Credit

variable {armed : Bool} {h : ℕ} {own : Option MemoryInterval} {w w' : World}

lemma Credit.calm {R : MemoryInterval → Prop} (hc : Credit armed h own w)
    (hw : Steps (Calm R) w w') (hR : ∀ r, R r → IsRecord r) (hown : ∀ r, own = some r → IsRecord r) :
    Credit armed h own w' := by
  refine hc.steps hw fun a v ha _ => ⟨ha.silent, ?_⟩
  rintro ⟨r, hr, ht⟩
  rcases ha.status hR (hown r hr) with h' | h'
  · exact ⟨r, hr, by rw [← h']; exact ht⟩
  · rw [h'] at ht
    exact absurd ht (by decide)

lemma Credit.waking {r : MemoryInterval} {ivs : List MemoryInterval}
    (hc : Credit armed h (some r) w) (hw : Steps (Waking r ivs) w w') (hr : IsRecord r)
    (hivs : ∀ i ∈ ivs, r.Disjoint i) : Credit armed h (some r) w' := by
  refine hc.steps hw fun a v ha hg => ⟨ha.silent, ?_⟩
  rintro ⟨r', hr', ht⟩
  cases hr'
  rcases ha.status hg hr hivs with h' | ⟨-, h'⟩ | h'
  · exact ⟨r, rfl, by rw [← h']; exact ht⟩
  · rw [h'] at ht
    exact absurd ht (by decide)
  · rw [h'] at ht
    exact absurd ht (by decide)

/-- The claim of a cycle turns the trigger into one callback more. -/
lemma Credit.claim {r : MemoryInterval} (hc : Credit true 0 (some r) w) (hr : IsRecord r)
    (hm : Moved r .triggered .awake w w') : Credit true 1 (some r) w' := by
  obtain ⟨w₁, hs, hst, rfl⟩ := hm
  have hc₁ : Credit true 0 (some r) w₁ :=
    hc.waking (Steps.waking hs) hr fun _ hi => absurd hi List.not_mem_nil
  refine ⟨hc₁.own_eq, ?_⟩
  have hcov := hc₁.covered
  have ht : Triggered (some r) w₁.mem := ⟨r, rfl, hst⟩
  have ht' : ¬ Triggered (some r) (w₁.perform (.exchange .status (statusOf r)
      ActivationStatus.triggered.code ActivationStatus.awake.code
      ActivationStatus.triggered.code)).mem := by
    rintro ⟨r', hr', h'⟩
    cases hr'
    rw [Moved.status (a := .triggered) (b := .awake) ⟨w₁, .refl, hst, rfl⟩] at h'
    exact absurd h' (by decide)
  simp only [ht, ht', and_true, and_false, if_true, if_false] at hcov ⊢
  simp only [perform_log, callbacks, triggers_own]
  omega

lemma Credit.call (hc : Credit armed 1 own w) (b : ℕ) (x : Handed) :
    Credit armed 0 own (w.perform (.callback b x)) := by
  refine ⟨hc.own_eq, ?_⟩
  have := hc.covered
  show callbacks w.log + 1 + 0 + (if armed ∧ Triggered own w.mem then 1 else 0) ≤ triggers w.log
  omega

end Credit

/-- **A wake spends at most what the server granted.** -/
theorem Credit.wakes {r : MemoryInterval} {ivs : List MemoryInterval} {g : OutputGeneration}
    {w w' : World} (hc : Credit true 0 (some r) w) (hr : IsRecord r)
    (hivs : ∀ i ∈ ivs, r.Disjoint i) (h : Wakes r ivs g w w') :
    Credit true 0 (some r) w' := by
  cases h with
  | idle hs => exact hc.waking hs hr hivs
  | cycle h₁ h₂ h₃ h₄ h₅ =>
    have hclaimed := ((hc.waking h₁ hr hivs).claim hr h₂).waking h₃ hr hivs
    refine Credit.waking ?_ h₅ hr hivs
    cases h₄ with
    | idle hs => exact (hclaimed.waking hs hr hivs).spend (Nat.zero_le 1)
    | called c x hsel hs => exact ((hclaimed.waking hsel.steps hr hivs).call _ x).waking hs hr hivs
    | published c t hsel hs _ hio hs' =>
      have hcalled := ((hclaimed.waking hsel.steps hr hivs).call c.bufferId _).waking hs hr hivs
      refine Credit.waking (hcalled.perform (by trivial) ?_) hs' hr hivs
      obtain ⟨i, hi, hcov⟩ := hio
      rintro ⟨r', hr', ht⟩
      cases hr'
      refine ⟨r, rfl, ?_⟩
      rw [← ht]
      refine (Memory.word_write_apart ?_).symm
      rw [leBytes_length]
      exact ((hivs i hi).apart hr.covers_status hcov).symm

end World

/-! ### Along a run -/

/-- The IDs installed so far increase, and those to come are larger. -/
structure World.Ordered (next : ℕ) (log : List Event) : Prop where
  increasing : (installs log).Pairwise (· > ·)
  fresh : ∀ id ∈ installs log, id < next

lemma World.Ordered.steps {next : ℕ} {w w' : World} {P : Action → Prop}
    (h : Ordered next w.log) (hw : Steps P w w') (hP : ∀ a, P a → Silent a) :
    Ordered next w'.log := by
  have he : installs w'.log = installs w.log :=
    hw.keeps (I := fun v => installs v.log = installs w.log) rfl (fun _ _ h => h)
      (fun v a h => by cases a <;> exact h)
      fun v a h _ ha => by rw [perform_log, (hP a ha).installs]; exact h
  exact ⟨by rw [he]; exact h.increasing, by rw [he]; exact h.fresh⟩

lemma World.Reads.silent {a : Action} (h : Reads a) : Silent a := by
  cases a <;> trivial

lemma World.Credit.probed {armed : Bool} {own : Option MemoryInterval} {r : MemoryInterval}
    {w w' : World} (h : Credit armed 0 own w) (hr : IsRecord r) (hp : Probed r w w')
    (hown : ∀ r, own = some r → IsRecord r) : Credit armed 0 own w' := by
  obtain ⟨w₁, hs, -, hw⟩ := hp
  have h₁ := h.calm (hs.mono fun _ => Reads.calm (R := fun _ => False)) (by simp) hown
  have h₂ : Credit armed 0 own (w₁.perform (.candidate r)) := ⟨h₁.own_eq, h₁.covered⟩
  refine h₂.calm hw ?_ hown
  rintro r' rfl
  exact hr

lemma World.Ordered.probed {next : ℕ} {r : MemoryInterval} {w w' : World}
    (h : Ordered next w.log) (hp : Probed r w w') : Ordered next w'.log := by
  obtain ⟨w₁, hs, -, hw⟩ := hp
  have h₁ := h.steps hs fun _ => Reads.silent
  have h₂ : Ordered next (w₁.perform (.candidate r)).log := ⟨h₁.increasing, h₁.fresh⟩
  exact h₂.steps hw fun _ => Calm.silent

lemma World.Ordered.perform {next : ℕ} {w : World} (h : Ordered next w.log) {a : Action}
    (ha : installs (.own a :: w.log) = installs w.log) : Ordered next (w.perform a).log :=
  ⟨by rw [perform_log, ha]; exact h.increasing, by rw [perform_log, ha]; exact h.fresh⟩

lemma World.Ordered.wakes {next : ℕ} {r : MemoryInterval} {ivs : List MemoryInterval}
    {g : OutputGeneration} {w w' : World} (h : Ordered next w.log)
    (hw : Wakes r ivs g w w') : Ordered next w'.log := by
  have hsil : ∀ a, Waking r ivs a → Silent a := fun _ => Waking.silent
  cases hw with
  | idle hs => exact h.steps hs hsil
  | cycle h₁ h₂ h₃ h₄ h₅ =>
    obtain ⟨v, hv, -, rfl⟩ := h₂
    have ho := (h.steps h₁ hsil).steps hv fun _ => Reads.silent
    have ho₃ := (ho.perform rfl).steps h₃ hsil
    refine World.Ordered.steps ?_ h₅ hsil
    cases h₄ with
    | idle hs => exact ho₃.steps hs hsil
    | called c _ hsel hs => exact ((ho₃.steps hsel.steps hsil).perform rfl).steps hs hsil
    | published c t hsel hs _ _ hs' =>
      have ho₅ := ((ho₃.steps hsel.steps hsil).perform rfl).steps hs hsil
      exact (ho₅.perform rfl).steps hs' hsil

/-- What the log of a run has to do with its session. -/
structure Sys.Covered (s : Sys) : Prop where
  credit : Credit (decide (s.session.state = .running)) 0 s.session.own s.world
  ordered : Ordered s.session.nextGeneration s.world.log

lemma World.Credit.of_disarm {armed : Bool} {own : Option MemoryInterval} {w : World}
    (h : Credit armed 0 own w) {s : SessionState} (hs : s ≠ .running) :
    Credit (decide (s = .running)) 0 own w := by
  rw [decide_eq_false hs]
  exact h.disarm

lemma World.Credit.started {armed : Bool} {r : MemoryInterval} {w w' : World} (hr : IsRecord r)
    (h : Credit armed 0 (some r) w) (hs : Started r w w') : Credit true 0 (some r) w' := by
  have hst : w'.mem.word (statusOf r) 4 = ActivationStatus.finished.code := by
    rcases hs with hs | hs
    · exact hs.2
    · exact hs.status
  have hidle : Credit false 0 (some r) w' := by
    rcases hs with hs | ⟨w₁, hs, -, rfl⟩
    · exact h.disarm.waking (Steps.waking hs.1) hr fun _ hi => absurd hi List.not_mem_nil
    · have h₁ := h.disarm.waking (Steps.waking hs) hr fun _ hi => absurd hi List.not_mem_nil
      exact ⟨h₁.own_eq, by simpa [perform_log, callbacks, triggers_own] using h₁.covered⟩
  refine ⟨hidle.own_eq, ?_⟩
  have hnot : ¬ Triggered (some r) w'.mem := by
    rintro ⟨r', hr', ht⟩
    cases hr'
    rw [hst] at ht
    exact absurd ht (by decide)
  simpa [hnot] using hidle.covered

/-- **An edit keeps the log and the session together.** -/
theorem Sys.Edit.covered {s s' : Sys} (h : Edit s s') (hc : s.Covered) : s'.Covered := by
  have hown : ∀ r, s.session.own = some r → IsRecord r := fun r hr =>
    ClientNodeSession.own_isRecord hr
  obtain ⟨hcr, hord⟩ := hc
  cases h with
  | book n hk _ _ =>
    have ho : n.own = s.session.own := by unfold ClientNodeSession.own; rw [hk.transport]
    refine ⟨?_, hord.increasing, fun id hid => Nat.lt_of_lt_of_le (hord.fresh id hid) hk.next⟩
    show Credit (decide (n.state = .running)) 0 n.own s.world
    rw [ho, hk.state]; exact hcr
  | calm w hw => exact ⟨hcr.calm hw hown hown, hord.steps hw fun _ => Calm.silent⟩
  | probe r w hr hp =>
    exact ⟨hcr.probed hr hp hown, hord.probed hp⟩
  | refused n r w₁ w hk hr href hw =>
    have ho : n.own = s.session.own := by unfold ClientNodeSession.own; rw [hk.transport]
    have hc₁ := (hcr.calm href.steps (fun r' e => e ▸ hown r hr) hown).calm hw (fun _ h => h) hown
    have ho₁ := (hord.steps href.steps fun _ => Calm.silent).steps hw fun _ => Calm.silent
    refine ⟨?_, ho₁.increasing, fun id hid => Nat.lt_of_lt_of_le (ho₁.fresh id hid) hk.next⟩
    show Credit (decide (n.state = .running)) 0 n.own w
    rw [ho, hk.state]; exact hc₁
  | intent => exact ⟨hcr, hord⟩
  | halt a c w hw =>
    have ho : (s.session.intend a c).stopped.own = s.session.own :=
      ClientNodeSession.stopped_own _
    refine ⟨?_, ?_⟩
    · show Credit _ 0 (s.session.intend a c).stopped.own w
      rw [ho]
      exact (hcr.calm hw.steps hown hown).of_disarm (ClientNodeSession.stopped_state_ne _)
    · have hn : (s.session.intend a c).stopped.nextGeneration = s.session.nextGeneration := by
        unfold ClientNodeSession.stopped; split_ifs <;> rfl
      show Ordered (s.session.intend a c).stopped.nextGeneration w.log
      rw [hn]
      exact hord.steps hw.steps fun _ => Calm.silent
  | replace t w₁ w₂ w₃ hp hh hw hid _ _ =>
    have hc₃ := ((hcr.probed t.isRecord hp hown).calm hh.steps hown hown).calm hw hown hown
    have ho₃ := ((hord.probed hp).steps hh.steps fun _ => Calm.silent).steps hw
      fun _ => Calm.silent
    refine ⟨?_, ?_, ?_⟩
    · show Credit (decide (s.session.stopped.state = .running)) 0 (some t.interval) _
      rw [decide_eq_false s.session.stopped_state_ne]
      have := hc₃.disarm.covered
      exact ⟨rfl, by simpa [perform_log, callbacks, triggers_own] using this⟩
    · show (t.id :: installs w₃.log).Pairwise (· > ·)
      rw [List.pairwise_cons, hid]
      exact ⟨ho₃.fresh, ho₃.increasing⟩
    · intro id hmem
      rcases List.mem_cons.mp hmem with rfl | hmem
      · rw [hid]; exact Nat.lt_succ_self _
      · exact Nat.lt_succ_of_lt (ho₃.fresh id hmem)
  | release w hst hw =>
    have hcw := (hcr.calm hw hown hown).disarm.covered
    have how := hord.steps hw fun _ => Calm.silent
    refine ⟨?_, how.increasing, how.fresh⟩
    show Credit (decide (s.session.state = .running)) 0 none _
    rw [decide_eq_false hst]
    exact ⟨rfl, by simpa [perform_log, callbacks, triggers_own] using hcw⟩
  | setOutput | clearOutput | insertPeer | removePeers => exact ⟨hcr, hord⟩
  | start t w _ _ hT hs =>
    have ho : s.session.own = some t.interval := by simp [ClientNodeSession.own, hT]
    rw [ho] at hcr
    refine ⟨?_, ?_⟩
    · show Credit true 0 s.session.own w
      rw [ho]
      exact hcr.started t.isRecord hs
    · rcases hs with hs | ⟨w₁, hs, -, rfl⟩
      · exact hord.steps hs.1 fun _ => Reads.silent
      · have := hord.steps hs fun _ => Reads.silent
        exact ⟨this.increasing, this.fresh⟩
  | unready => exact ⟨hcr.of_disarm (by simp), hord⟩
  | refresh =>
    rw [ClientNodeSession.refreshState_eq]
    refine ⟨?_, hord⟩
    show Credit (decide (s.session.refreshState.state = .running)) 0 s.session.own _
    rw [decide_eq_decide.2 ClientNodeSession.refreshState_running]
    exact hcr

theorem Sys.Edits.covered {s s' : Sys} (h : Edits s s') (hc : s.Covered) : s'.Covered := by
  induction h with
  | refl => exact hc
  | tail _ he ih => exact he.covered ih

theorem Sys.Applied.covered {c : SessionCommand} {s s' : Sys} (h : Applied c s s')
    (hc : s.Covered) : s'.Covered := by
  obtain ⟨hcr, hord⟩ := hc
  cases h with
  | ignored => exact ⟨hcr, hord⟩
  | closed _ h =>
    obtain ⟨w, hw, rfl⟩ := h
    have hown : ∀ r, s.session.own = some r → IsRecord r := fun r hr =>
      ClientNodeSession.own_isRecord hr
    have hcw := (hcr.calm hw hown hown).disarm.covered
    have how := hord.steps hw fun _ => Calm.silent
    refine ⟨?_, how.increasing, how.fresh⟩
    show Credit false 0 none _
    exact ⟨rfl, by simpa [perform_log, callbacks, triggers_own] using hcw⟩
  | edited _ _ h => exact h.covered (s := s.prepare c) ⟨hcr, hord⟩

/-- The own record of a coherent session is disjoint from everything a wake of it writes. -/
lemma ClientNodeSession.Coherent.own_disjoint {s : ClientNodeSession} (hc : s.Coherent)
    {t : TransportGeneration} {g : OutputGeneration} (hT : s.transport = some t)
    (hG : s.output = some g) : ∀ i ∈ g.intervals ++ s.peers.intervals, t.interval.Disjoint i := by
  intro i hi
  rcases List.mem_append.1 hi with hi | hi
  · exact hc.transport_output t g hT hG i hi
  · obtain ⟨n, p, hp, rfl⟩ := (PeerSet.mem_intervals _).1 hi
    exact hc.transport_peer t n p hT hp

lemma Woke.covered {wake : Owner.Wake} {s s' : Sys} {st : SessionState} (h : Woke wake s st s')
    (hst : st = s.session.state ∨ st = .failed) (hc : s.session.Coherent) (hcov : s.Covered) :
    s'.Covered := by
  obtain ⟨hcr, hord⟩ := hcov
  have hown : ∀ {t}, s.session.transport = some t → s.session.own = some t.interval := fun h => by
    simp [ClientNodeSession.own, h]
  cases h with
  | ignored => exact ⟨hcr, hord⟩
  | drained t w hT _ hw =>
    refine ⟨?_, hord.steps hw fun _ => Waking.silent⟩
    show Credit _ 0 s.session.own w
    rw [hown hT] at hcr ⊢
    exact hcr.waking hw t.isRecord (by simp)
  | cycle t g st w hT _ hr hG hw =>
    rw [hown hT, decide_eq_true hr] at hcr
    have hw' := hcr.wakes t.isRecord (hc.own_disjoint hT hG) hw
    refine ⟨?_, ?_⟩
    · show Credit (decide (st = .running)) 0 s.session.own w
      rw [hown hT]
      by_cases hrun : st = .running
      · rw [decide_eq_true hrun]; exact hw'
      · exact hw'.of_disarm hrun
    · exact hord.wakes hw

/-- What every run keeps. -/
theorem Sys.run_covered (mem : Shm) (counter : Fd → ℕ) (moves : List Move) :
    ((init mem counter).run moves).Covered := by
  refine (run_keeps (I := fun s => s.session.Coherent ∧ s.Covered) (fun s m h => ?_) moves _
    ⟨ClientNodeSession.coherent_new, ⟨rfl, by simp [init, callbacks, triggers, ClientNodeSession.new]⟩, ?_⟩).2
  · refine ⟨s.move_coherent m h.1, ?_⟩
    obtain ⟨hc, hcr, hord⟩ := h
    cases m with
    | server a =>
      refine ⟨hcr.serve a, ?_⟩
      cases a with
      | store l bs => exact ⟨hord.increasing, hord.fresh⟩
      | signal fd n => exact hord
    | op o k script =>
      have hcov : (s.scripted script).Covered := ⟨⟨hcr.own_eq, hcr.covered⟩, hord⟩
      cases o with
      | command c => exact (s.exec_command c k script).2.1.covered hcov
      | wake w =>
        obtain ⟨-, st, hst, h⟩ := s.exec_wake hc w k script
        exact h.covered (hst.imp_right fun h => h.2) hc hcov
  · exact ⟨by simp [init, installs], by simp [init, installs]⟩

/-! ### Where callbacks run -/

namespace World

variable {w w' : World}

lemma Logs.callbacks {P : Action → Prop} (h : Logs P w w')
    (hP : ∀ a, P a → ∀ b x, a ≠ .callback b x) : callbacks w'.log = callbacks w.log := by
  obtain ⟨new, hl, hn⟩ := h
  rw [hl, callbacks_append, callbacks_eq_zero fun a ha => hP a (hn a ha), Nat.zero_add]

lemma Steps.callbacks {P : Action → Prop} (h : Steps P w w') (hP : ∀ a, P a → Silent a) :
    callbacks w'.log = callbacks w.log :=
  h.log.callbacks fun a ha => (hP a ha).no_callback

/-- The exchange that moved the record in `r` from `TRIGGERED` to `AWAKE`. -/
abbrev claimOf (r : MemoryInterval) : Action :=
  .exchange .status (statusOf r) ActivationStatus.triggered.code ActivationStatus.awake.code
    ActivationStatus.triggered.code

/-- Between the logs one callback ran, and before it the record in `r` was moved from `TRIGGERED`
to `AWAKE` and the IO status of `g` was seen to be `NEED_DATA`. -/
def Authorized (r : MemoryInterval) (g : OutputGeneration) (log log' : List Event) : Prop :=
  ∃ post b x pre, log' = post ++ .own (.callback b x) :: (pre ++ log) ∧
    callbacks post = 0 ∧ callbacks pre = 0 ∧ Event.own (claimOf r) ∈ pre ∧
    ∃ v, Event.own (.load .ioStatus (g.io.at_ Abi.ioStatus) 4 v) ∈ pre ∧
      asI32 v = BufferStatus.needData.code

end World

/-- **A callback comes behind a claim and a `NEED_DATA`.** -/
theorem Wakes.authorized {r : MemoryInterval} {ivs : List MemoryInterval} {g : OutputGeneration}
    {w w' : World} (h : Wakes r ivs g w w') :
    callbacks w'.log = callbacks w.log ∨ Authorized r g w.log w'.log := by
  cases h with
  | idle hs => exact Or.inl (Steps.callbacks hs fun _ => Waking.silent)
  | @cycle w₁ w₂ w₃ w₄ _ h₁ h₂ h₃ h₄ h₅ =>
    obtain ⟨v, hv, -, rfl⟩ := h₂
    obtain ⟨n₁, hl₁, -⟩ := h₁.log
    obtain ⟨nv, hlv, -⟩ := hv.log
    obtain ⟨n₃, hl₃, -⟩ := h₃.log
    have hc₁ := Steps.callbacks h₁ fun _ => Waking.silent
    have hcv := Steps.callbacks hv fun _ => Reads.silent
    have hc₃ : callbacks w₃.log = callbacks w.log := by
      rw [Steps.callbacks h₃ fun _ => Waking.silent, ← hc₁, ← hcv]; rfl
    -- a cycle selected in `w₃` and called back, and whatever comes after
    have key : ∀ (c : OutputCycle) (x : Handed) (u u' : World), Selected r ivs g c w₃ u →
        (∃ new, u'.log = new ++ (u.perform (.callback c.bufferId x)).log ∧ callbacks new = 0) →
        Authorized r g w.log u'.log := by
      intro c handed u u' hsel hu'
      obtain ⟨ns, x, hls, hmem, hx⟩ := hsel.seen
      obtain ⟨new, hnew, hcnew⟩ := hu'
      have hcu : callbacks u.log = callbacks w.log := by
        rw [Steps.callbacks hsel.steps fun _ => Waking.silent, hc₃]
      obtain ⟨pre, hlog, hex, hload⟩ : ∃ pre, u.log = pre ++ w.log ∧
          Event.own (claimOf r) ∈ pre ∧
          Event.own (.load .ioStatus (g.io.at_ Abi.ioStatus) 4 x) ∈ pre :=
        ⟨ns ++ n₃ ++ .own (claimOf r) :: nv ++ n₁,
          by rw [hls, hl₃, perform_log, hlv, hl₁]; simp, by simp, by simp [hmem]⟩
      rw [hlog, callbacks_append] at hcu
      exact ⟨new, c.bufferId, handed, pre, by rw [hnew, perform_log, hlog], hcnew, by omega, hex, x, hload,
        hx⟩
    obtain ⟨n₅, hl₅, hn₅⟩ := h₅.log
    have hc₅ : callbacks n₅ = 0 := callbacks_eq_zero fun a ha => (hn₅ a ha).silent.no_callback
    cases h₄ with
    | idle hs =>
      refine Or.inl ?_
      rw [Steps.callbacks h₅ fun _ => Waking.silent, Steps.callbacks hs fun _ => Waking.silent, hc₃]
    | called c x hsel hs =>
      obtain ⟨n₄, hl₄, hn₄⟩ := hs.log
      refine Or.inr (key c x _ _ hsel ⟨n₅ ++ n₄, by rw [hl₅, hl₄]; simp, ?_⟩)
      rw [callbacks_append, hc₅, callbacks_eq_zero fun a ha => (hn₄ a ha).silent.no_callback]
    | published c t hsel hs _ _ hs' =>
      obtain ⟨n₄, hl₄, hn₄⟩ := hs.log
      obtain ⟨n₄', hl₄', hn₄'⟩ := hs'.log
      refine Or.inr (key c (c.handed (.returned (.ok t))) _ _ hsel
        ⟨n₅ ++ n₄' ++ .own (.store .ioStatus (g.io.at_ Abi.ioStatus)
        (leBytes 4 BufferStatus.haveData.code)) :: n₄, ?_, ?_⟩)
      · rw [hl₅, hl₄', perform_log, hl₄]; simp
      · rw [callbacks_append, callbacks_append, hc₅,
          callbacks_eq_zero fun a ha => (hn₄' a ha).silent.no_callback]
        have h₄ := callbacks_eq_zero fun a ha => (hn₄ a ha).silent.no_callback
        simpa [callbacks] using h₄

/-- What the owner may do for a command: it runs no callback and stores nothing but the version of
the client. -/
def World.Commanding : Action → Prop
  | .callback _ _ => False
  | .store f _ _ => f = .clientVersion
  | _ => True

lemma World.Reads.commanding {a : Action} (h : Reads a) : Commanding a := by
  cases a <;> trivial

lemma World.Calm.commanding {R : MemoryInterval → Prop} {a : Action} (h : Calm R a) :
    Commanding a := by
  cases a with
  | store f l bs => exact h.1
  | callback b x => exact h
  | _ => trivial

lemma World.Commanding.no_callback {a : Action} (h : Commanding a) (b : ℕ) (x : Handed) :
    a ≠ .callback b x := by
  rintro rfl
  exact h

lemma World.Steps.commanding {P : Action → Prop} {w w' : World} (h : Steps P w w')
    (hP : ∀ a, P a → Commanding a) : Logs Commanding w w' :=
  Steps.log (Steps.mono h hP)

lemma World.Probed.commanding {r : MemoryInterval} {w w' : World} (h : Probed r w w') :
    Logs Commanding w w' := by
  obtain ⟨w₁, hs, -, hc⟩ := h
  have hcand : Logs Commanding w₁ (w₁.perform (.candidate r)) := .perform trivial
  exact ((Steps.commanding hs fun _ => Reads.commanding).trans hcand).trans
    (Steps.commanding hc fun _ => Calm.commanding)

lemma Sys.Edit.logs {s s' : Sys} (h : Edit s s') : Logs Commanding s.world s'.world := by
  have calm : ∀ {R w w'}, Steps (Calm R) w w' → Logs Commanding w w' := fun h =>
    Steps.commanding h fun _ => Calm.commanding
  cases h with
  | calm w hw => exact calm hw
  | probe r w _ hp => exact World.Probed.commanding hp
  | refused n r w₁ w _ _ href hw => exact (calm href.steps).trans (calm hw)
  | halt a c w hw => exact calm hw.steps
  | replace t w₁ w₂ w₃ hp hh hw =>
    exact (((World.Probed.commanding hp).trans (calm hh.steps)).trans (calm hw)).trans
      (.perform trivial)
  | release w _ hw => exact (calm hw).trans (.perform trivial)
  | start t w _ _ _ hs =>
    rcases hs with hs | ⟨w₁, hs, -, rfl⟩
    · exact Steps.commanding hs.1 fun _ => Reads.commanding
    · exact (Steps.commanding hs fun _ => Reads.commanding).trans (.perform trivial)
  | _ => exact .refl _

/-- Commands run no callback and publish nothing. -/
theorem Sys.Applied.logs {c : SessionCommand} {s s' : Sys} (h : Applied c s s') :
    Logs Commanding s.world s'.world := by
  cases h with
  | ignored => exact .refl _
  | closed _ h =>
    obtain ⟨w, hw, rfl⟩ := h
    exact (Steps.commanding hw fun _ => Calm.commanding).trans (.perform trivial)
  | edited _ _ h =>
    show Logs Commanding (s.prepare c).world s'.world
    induction h with
    | refl => exact .refl _
    | tail _ he ih => exact ih.trans he.logs

lemma Sys.Applied.callbacks {c : SessionCommand} {s s' : Sys} (h : Applied c s s') :
    callbacks s'.world.log = callbacks s.world.log :=
  h.logs.callbacks fun _ => Commanding.no_callback

/-- A wake ran no callback, or one it was authorized to run in a running session of its
generation. -/
theorem Woke.callbacks {wake : Owner.Wake} {s s' : Sys} {st : SessionState}
    (h : Woke wake s st s') : callbacks s'.world.log = callbacks s.world.log ∨
      ∃ t g, s.session.transport = some t ∧ t.id = wake.generation ∧ s.session.state = .running ∧
        s.session.output = some g ∧ Authorized t.interval g s.world.log s'.world.log := by
  cases h with
  | ignored => exact Or.inl rfl
  | drained t w _ _ hw => exact Or.inl (Steps.callbacks hw fun _ => Waking.silent)
  | cycle t g st w hT hid hr hG hw =>
    exact hw.authorized.imp_right fun h => ⟨t, g, hT, hid, hr, hG, h⟩

lemma Owner.onWake_stale {s : Sys} {wake : Wake} (k : Kernel)
    (h : s.session.transportGeneration ≠ some wake.generation) :
    (onWakeWithFinish k wake s).2 = s := by
  refine Prog.Ends.result (R := fun _ s' => s' = s) ?_
  unfold onWakeWithFinish
  rw [ends_bind, ends_session]
  split
  · rfl
  · rename_i expected hexp
    rw [ends_ite]
    refine ⟨fun _ => rfl, fun hne => absurd ?_ h⟩
    rw [hexp, not_not.mp hne]

/-- **Callbacks are authorized by the server.** In every state a run reaches there were at most as
many callbacks as times the server set the status of the own record to `TRIGGERED`, and the IDs of
the transport generations installed strictly increase. From there a command runs no callback. A
wake runs at most one: only when its generation is that of the current transport, only in a
running session, and only behind its own move of the record from `TRIGGERED` to `AWAKE` and a
`NEED_DATA` it saw. A wake tagged with another generation changes neither the session nor the
memory nor any eventfd. -/
theorem Sys.callbacks_authorized (mem : Shm) (counter : Fd → ℕ) (moves : List Move) :
    let s := (init mem counter).run moves
    callbacks s.world.log ≤ triggers s.world.log ∧ (installs s.world.log).Pairwise (· > ·) ∧
    (∀ a, callbacks (s.move (.server a)).world.log = callbacks s.world.log) ∧
    (∀ c k script,
      callbacks (s.move (.op (.command c) k script)).world.log = callbacks s.world.log) ∧
    (∀ wake k script, let s' := s.move (.op (.wake wake) k script)
      callbacks s'.world.log = callbacks s.world.log ∨
        ∃ t g, s.session.transport = some t ∧ t.id = wake.generation ∧
          s.session.state = .running ∧ s.session.output = some g ∧
          Authorized t.interval g s.world.log s'.world.log) ∧
    (∀ wake k script, s.session.transportGeneration ≠ some wake.generation →
      let s' := s.move (.op (.wake wake) k script)
      s'.session = s.session ∧ s'.world.mem = s.world.mem ∧
        s'.world.counter = s.world.counter ∧ s'.world.log = s.world.log) := by
  intro s
  have hc := run_coherent mem counter moves
  have hcov := run_covered mem counter moves
  refine ⟨?_, hcov.ordered.increasing, ?_, ?_, ?_, ?_⟩
  · exact Nat.le_trans (Nat.le_add_right _ _) hcov.credit.covered
  · intro a
    cases a <;> rfl
  · exact fun c k script => (s.exec_command c k script).2.1.callbacks
  · intro wake k script
    obtain ⟨-, st, -, h⟩ := s.exec_wake hc wake k script
    exact h.callbacks
  · intro wake k script hne
    have h : (s.exec (.wake wake) k script).2 = s.scripted script := by
      have hst := Owner.onWake_stale (s := s.scripted script) k hne
      refine Prog.Ends.result (p := Op.run k (.wake wake)) (R := fun _ s' => s' = s.scripted script) ?_
      simp only [Op.run, ends_bind, ends_pure]
      exact ends_state.2 hst
    show (s.exec (.wake wake) k script).2.session = _ ∧ _
    simp only [move, h]
    exact ⟨rfl, rfl, rfl, rfl⟩

end PipewireNative.Node
