import PipewireNative.Node.Trigger
import Mathlib.Data.List.Induction
import Mathlib.Data.List.Infix

/-!
The life of a session whose server keeps the rules of the activation record: the state after a
command is the one its intents and bindings ask for, and the own record is out of scheduling
unless the session runs.

What the server has to keep is a property of the log. It speaks about every record the session
has mapped as a transport candidate so far.
-/

namespace PipewireNative.Node

open Lib Lib.Word World Sys

namespace World

/-! ### The rules of the server -/

def candidates : List Event → List MemoryInterval
  | [] => []
  | .own (.candidate r) :: log => r :: candidates log
  | _ :: log => candidates log

/-- The server left the version supported, a status word that is a status, and a record that is
out of scheduling as they were. -/
def Respects (r : MemoryInterval) (before after : Shm) : Prop :=
  (before.word (versionOf r) 4 = 1 → after.word (versionOf r) 4 = 1) ∧
  (before.word (statusOf r) 4 ≤ 4 → after.word (statusOf r) 4 ≤ 4) ∧
  (before.word (statusOf r) 4 = ActivationStatus.inactive.code →
    after.word (statusOf r) 4 = ActivationStatus.inactive.code)

/-- The rules for one event, the log before it given: the server respects every record mapped so
far, a candidate lies over the own record or beside it, and a record that was not the own one
before is `INACTIVE` when it becomes that. -/
def Admits (log : List Event) : Event → Prop
  | .server before after => ∀ r ∈ candidates log, Respects r before after
  | .own (.candidate r) => ∀ r' ∈ ownAt log, r = r' ∨ r.Disjoint r'
  | .own (.install _ r status) => ownAt log = some r ∨ status = ActivationStatus.inactive.code
  | _ => True

/-- The rules were kept by every event of the log. -/
inductive Orderly : List Event → Prop
  | nil : Orderly []
  | cons {e : Event} {log : List Event} : Admits log e → Orderly log → Orderly (e :: log)

instance (r : MemoryInterval) (before after : Shm) : Decidable (Respects r before after) := by
  unfold Respects; infer_instance

instance decidableAdmits (log : List Event) : (e : Event) → Decidable (Admits log e)
  | .server before after => inferInstanceAs (Decidable (∀ r ∈ candidates log, Respects r before after))
  | .own (.candidate r) => inferInstanceAs (Decidable (∀ r' ∈ ownAt log, r = r' ∨ r.Disjoint r'))
  | .own (.install _ r status) =>
    inferInstanceAs (Decidable (ownAt log = some r ∨ status = ActivationStatus.inactive.code))
  | .own (.load _ _ _ _) | .own (.store _ _ _) | .own (.exchange _ _ _ _ _) | .own (.swap _ _ _ _)
  | .own (.drain _ _) | .own (.signal _ _) | .own (.failedSignal _ _) | .own (.callback _ _)
  | .own .release => isTrue trivial

def decidableOrderly : (log : List Event) → Decidable (Orderly log)
  | [] => isTrue .nil
  | e :: log =>
    match decidableAdmits log e, decidableOrderly log with
    | isTrue h, isTrue h' => isTrue (.cons h h')
    | isFalse h, _ => isFalse fun | .cons h' _ => h h'
    | _, isFalse h => isFalse fun | .cons _ h' => h h'

instance (log : List Event) : Decidable (Orderly log) := decidableOrderly log

lemma Orderly.head {e : Event} {log : List Event} (h : Orderly (e :: log)) : Admits log e := by
  cases h with
  | cons h _ => exact h

lemma Orderly.tail {e : Event} {log : List Event} (h : Orderly (e :: log)) : Orderly log := by
  cases h with
  | cons _ h => exact h

lemma Orderly.of_suffix {log log' : List Event} (h : Orderly log') (hs : log <:+ log') :
    Orderly log := by
  obtain ⟨new, rfl⟩ := hs
  induction new with
  | nil => exact h
  | cons e new ih => exact ih h.tail

/-! ### What the log keeps -/

section Suffix

variable {P : Action → Prop} {w w' : World} {r : MemoryInterval}

lemma Steps.suffix (h : Steps P w w') : w.log <:+ w'.log := by
  obtain ⟨new, hl, -⟩ := h.log
  exact ⟨new, hl.symm⟩

lemma perform_suffix (w : World) (a : Action) : w.log <:+ (w.perform a).log := ⟨[.own a], rfl⟩

lemma Probed.suffix (h : Probed r w w') : w.log <:+ w'.log := by
  obtain ⟨w₁, hs, -, hc⟩ := h
  exact hs.suffix.trans ((perform_suffix _ _).trans hc.suffix)

lemma Moved.suffix {a b : ActivationStatus} (h : Moved r a b w w') : w.log <:+ w'.log := by
  obtain ⟨w₁, hs, -, rfl⟩ := h
  exact hs.suffix.trans (perform_suffix _ _)

lemma Started.suffix (h : Started r w w') : w.log <:+ w'.log :=
  h.elim (fun h => h.1.suffix) Moved.suffix

lemma Steps.ownAt (h : Steps P w w') (hP : ∀ a, P a → Silent a) :
    ownAt w'.log = ownAt w.log :=
  h.keeps (I := fun v => World.ownAt v.log = World.ownAt w.log) rfl (fun _ _ h => h)
    (fun v a h => by cases a <;> exact h)
    fun v a h _ ha => by rw [perform_log, (hP a ha).ownAt]; exact h

end Suffix

/-! ### A record that is held -/

/-- The record in `r` has been mapped, and its version is the one supported. -/
structure Mapped (r : MemoryInterval) (w : World) : Prop where
  mapped : r ∈ candidates w.log
  version : w.mem.word (versionOf r) 4 = 1

/-- A mapped record has a status, and it is out of scheduling unless the session is armed. -/
structure Held (armed : Prop) (r : MemoryInterval) (w : World) : Prop extends Mapped r w where
  status : w.mem.word (statusOf r) 4 ≤ 4
  scheduled : w.mem.word (statusOf r) 4 = ActivationStatus.inactive.code ∨ armed

section Held

variable {armed : Prop} {r : MemoryInterval} {w w' : World}

/-- What every act of the server and every action keeps while the log is orderly, steps keep. -/
lemma Steps.keeps_orderly {P : Action → Prop} {I : World → Prop} (hw : Steps P w w') (h : I w)
    (ho : Orderly w'.log) (script : ∀ v s, I v → I { v with script := s })
    (serve : ∀ v a, I v → Orderly (v.serve a).log → I (v.serve a))
    (own : ∀ v a, I v → v.Genuine a → P a → I (v.perform a)) : I w' := by
  refine hw.keeps (I := fun v => Orderly v.log → I v) (fun _ => h)
    (fun v s hv hov => script v s (hv hov)) (fun v a hv hov => ?_)
    (fun v a hv hg ha hov => own v a (hv hov.tail) hg ha) ho
  refine serve v a (hv ?_) hov
  cases a with
  | store l bs => exact hov.tail
  | signal fd n => exact hov

lemma Mapped.serve (h : Mapped r w) (a : ServerAct) (ho : Orderly (w.serve a).log) :
    Mapped r (w.serve a) := by
  cases a with
  | signal fd n => exact ⟨h.mapped, h.version⟩
  | store l bs => exact ⟨h.mapped, (ho.head r h.mapped).1 h.version⟩

lemma Mapped.perform (h : Mapped r w) {a : Action}
    (hv : (effect a w.mem).word (versionOf r) 4 = w.mem.word (versionOf r) 4) :
    Mapped r (w.perform a) := by
  refine ⟨?_, by rw [perform_mem, hv]; exact h.version⟩
  rw [perform_log]
  cases a <;> first | exact h.mapped | exact List.mem_cons_of_mem _ h.mapped

lemma Held.serve (h : Held armed r w) (a : ServerAct) (ho : Orderly (w.serve a).log) :
    Held armed r (w.serve a) := by
  refine ⟨h.toMapped.serve a ho, ?_, ?_⟩ <;> cases a with
  | signal fd n => first | exact h.status | exact h.scheduled
  | store l bs =>
    have hr : Respects r w.mem (w.mem.write l bs) := ho.head r h.mapped
    first | exact hr.2.1 h.status | exact h.scheduled.imp_left hr.2.2

/-- What an action must keep of a record. -/
def Keeps (armed : Prop) (r : MemoryInterval) (a : Action) (m : Shm) : Prop :=
  (effect a m).word (versionOf r) 4 = m.word (versionOf r) 4 ∧
    ((effect a m).word (statusOf r) 4 = m.word (statusOf r) 4 ∨
      (effect a m).word (statusOf r) 4 = ActivationStatus.inactive.code ∨
      (effect a m).word (statusOf r) 4 ≤ 4 ∧ armed)

lemma Held.perform (h : Held armed r w) {a : Action} (hk : Keeps armed r a w.mem) :
    Held armed r (w.perform a) := by
  refine ⟨h.toMapped.perform hk.1, ?_, ?_⟩
  · rw [perform_mem]
    rcases hk.2 with e | e | ⟨e, -⟩
    · rw [e]; exact h.status
    · rw [e]; decide
    · exact e
  · rw [perform_mem]
    rcases hk.2 with e | e | ⟨e, ha⟩
    · rw [e]; exact h.scheduled
    · exact Or.inl e
    · exact Or.inr ha

/-- Steps that keep the record hold it. -/
theorem Held.steps (h : Held armed r w) {P : Action → Prop} (hw : Steps P w w')
    (hP : ∀ (v : World) (a : Action), P a → v.Genuine a → Held armed r v → Keeps armed r a v.mem)
    (ho : Orderly w'.log) : Held armed r w' :=
  hw.keeps_orderly h ho (fun _ _ hv => ⟨⟨hv.mapped, hv.version⟩, hv.status, hv.scheduled⟩)
    (fun _ a hv hov => hv.serve a hov) fun v a hv hg ha => hv.perform (hP v a ha hg hv)

lemma Calm.keeps {R : MemoryInterval → Prop} {a : Action} (ha : Calm R a) (m : Shm)
    (hR : ∀ r', R r' → IsRecord r') (hdis : ∀ r', R r' → r' = r ∨ r'.Disjoint r)
    (hr : IsRecord r) : Keeps armed r a m := by
  refine ⟨effect_word_apart ?_ ?_ ?_, (ha.status hR hr).imp_right Or.inl⟩
  · rintro f l bs rfl
    obtain ⟨-, hlen, r', hr', rfl⟩ := ha
    rw [hlen]
    rcases hdis r' hr' with rfl | hd
    · exact fun _ => Or.inl (by simp only [versionOf, Abi.serverVersion, Abi.clientVersion]; omega)
    · refine hd.apart ⟨rfl, Nat.le_add_right _ _, ?_⟩ hr.covers_version
      have := (hR r' hr').2
      simp only [Abi.size, Abi.clientVersion] at this ⊢
      omega
  · rintro f l x d seen rfl hseen
    exact absurd hseen ha
  · rintro f l d seen rfl
    obtain ⟨-, r', hr', rfl⟩ := ha
    rcases hdis r' hr' with rfl | hd
    · exact fun _ => Or.inl (by simp only [versionOf, statusOf, Abi.serverVersion]; omega)
    · exact hd.apart (hR r' hr').covers_status hr.covers_version

lemma Held.calm {R : MemoryInterval → Prop} (h : Held armed r w) (hw : Steps (Calm R) w w')
    (hR : ∀ r', R r' → IsRecord r') (hdis : ∀ r', R r' → r' = r ∨ r'.Disjoint r)
    (hr : IsRecord r) (ho : Orderly w'.log) : Held armed r w' :=
  h.steps hw (fun v _ ha _ _ => ha.keeps v.mem hR hdis hr) ho

lemma Mapped.calm {R : MemoryInterval → Prop} (h : Mapped r w) (hw : Steps (Calm R) w w')
    (hR : ∀ r', R r' → IsRecord r') (hdis : ∀ r', R r' → r' = r ∨ r'.Disjoint r)
    (hr : IsRecord r) (ho : Orderly w'.log) : Mapped r w' :=
  hw.keeps_orderly h ho (fun _ _ hv => ⟨hv.mapped, hv.version⟩) (fun _ a hv hov => hv.serve a hov)
    fun v a hv _ ha => by
      have hk : Keeps True r a v.mem := ha.keeps v.mem hR hdis hr
      exact hv.perform hk.1

lemma Held.reads (h : Held armed r w) (hw : Steps Reads w w') (hr : IsRecord r)
    (ho : Orderly w'.log) : Held armed r w' :=
  h.calm (R := fun _ => False) (hw.mono fun _ => Reads.calm) (by simp) (by simp) hr ho

/-- In the background of a wake a record is moved only when it is claimed. -/
lemma Held.waking {ivs : List MemoryInterval} (h : Held armed r w)
    (hw : Steps (Waking r ivs) w w') (hr : IsRecord r) (hivs : ∀ i ∈ ivs, r.Disjoint i)
    (ho : Orderly w'.log) : Held armed r w' := by
  refine h.steps hw (fun v a ha hg hv => ⟨?_, ?_⟩) ho
  · refine effect_word_apart ?_ ?_ ?_
    · rintro f l bs rfl
      obtain ⟨-, ⟨i, hi, hc⟩ | ⟨n, -, hn, rfl⟩⟩ := ha
      · exact ((hivs i hi).apart hr.covers_version hc).symm
      · exact fun _ => Or.inl (by simp only [versionOf]; omega)
    · rintro f l x d seen rfl hseen
      rcases ha with hne | ⟨i, hi, hc⟩ | ⟨rfl, -, -⟩
      · exact absurd hseen hne
      · exact ((hivs i hi).apart hr.covers_version hc).symm
      · exact fun _ => Or.inl (by simp only [versionOf, statusOf, Abi.serverVersion]; omega)
    · rintro f l d seen rfl
      obtain ⟨rfl, -⟩ := ha
      exact fun _ => Or.inl (by simp only [versionOf, statusOf, Abi.serverVersion]; omega)
  · rcases ha.status hg hr hivs with e | ⟨hawake, e⟩ | e
    · exact Or.inl e
    · -- a record that is awake is not out of scheduling
      refine Or.inr (Or.inr ⟨by rw [e]; decide, hv.scheduled.resolve_left fun hin => ?_⟩)
      rw [hin] at hawake
      exact absurd hawake (by decide)
    · exact Or.inr (Or.inl e)

lemma Held.moved {a b : ActivationStatus} (h : Held True r w) (hr : IsRecord r)
    (hm : Moved r a b w w') (ho : Orderly w'.log) : Held True r w' := by
  have hst := hm.status
  obtain ⟨w₁, hs, -, rfl⟩ := hm
  refine (h.reads hs hr ho.tail).perform ⟨?_, Or.inr (Or.inr ⟨?_, trivial⟩)⟩
  · refine effect_word_apart (by simp) ?_ (by simp)
    rintro f l x d seen e -
    cases e
    exact fun _ => Or.inl (by simp only [versionOf, statusOf, Abi.serverVersion]; omega)
  · rw [perform_mem] at hst
    rw [hst]
    cases b <;> decide

lemma Held.rest {armed' : Prop} (h : Held armed r w)
    (hin : w.mem.word (statusOf r) 4 = ActivationStatus.inactive.code) : Held armed' r w :=
  ⟨h.toMapped, h.status, Or.inl hin⟩

lemma Held.mono {armed' : Prop} (h : Held armed r w) (ha : armed → armed') : Held armed' r w :=
  ⟨h.toMapped, h.status, h.scheduled.imp_right ha⟩

lemma Mapped.held (h : Mapped r w)
    (hin : w.mem.word (statusOf r) 4 = ActivationStatus.inactive.code) : Held armed r w :=
  ⟨h, by rw [hin]; decide, Or.inl hin⟩

lemma Held.deactivated {armed' : Prop} (h : Held armed r w) (hr : IsRecord r)
    (hd : Deactivated r w w') (ho : Orderly w'.log) : Held armed' r w' := by
  refine (h.calm hd.steps ?_ ?_ hr ho).rest hd.status
  · rintro r' rfl; exact hr
  · exact fun r' e => Or.inl e

lemma Held.not_refused (h : Held armed r w) (hr : IsRecord r) (hw : Refused r w w')
    (ho : Orderly w'.log) : False := by
  obtain ⟨w₁, hs, hbad, hc⟩ := hw
  have h₁ := h.reads hs hr (ho.of_suffix hc.suffix)
  rcases hbad with hv | hst
  · exact hv h₁.version
  · exact absurd h₁.status (Nat.not_le_of_lt hst)

lemma Held.started (h : Held armed r w) (hr : IsRecord r) (hs : Started r w w')
    (ho : Orderly w'.log) : Held True r w' := by
  have h' : Held True r w := h.mono fun _ => trivial
  rcases hs with hs | hs
  · exact h'.reads hs.1 hr ho
  · exact h'.moved hr hs ho

lemma Processed.suffix {ivs : List MemoryInterval} {g : OutputGeneration}
    (h : Processed r ivs g w w') : w.log <:+ w'.log := by
  cases h with
  | idle hs => exact hs.suffix
  | called c _ hsel hs => exact hsel.steps.suffix.trans ((perform_suffix _ _).trans hs.suffix)
  | published c t hsel hs _ _ hs' =>
    exact hsel.steps.suffix.trans ((perform_suffix _ _).trans
      (hs.suffix.trans ((perform_suffix _ _).trans hs'.suffix)))

lemma Wakes.suffix {ivs : List MemoryInterval} {g : OutputGeneration}
    (h : Wakes r ivs g w w') : w.log <:+ w'.log := by
  cases h with
  | idle hs => exact hs.suffix
  | cycle h₁ h₂ h₃ h₄ h₅ =>
    exact h₁.suffix.trans (h₂.suffix.trans (h₃.suffix.trans (Processed.suffix h₄ |>.trans h₅.suffix)))

/-- **A wake of a running session keeps its record.** -/
theorem Held.wakes {ivs : List MemoryInterval} {g : OutputGeneration}
    (h : Held True r w) (hr : IsRecord r) (hivs : ∀ i ∈ ivs, r.Disjoint i)
    (hw : Wakes r ivs g w w') (ho : Orderly w'.log) : Held True r w' := by
  cases hw with
  | idle hs => exact h.waking hs hr hivs ho
  | cycle h₁ h₂ h₃ h₄ h₅ =>
    have ho₄ := ho.of_suffix h₅.suffix
    have ho₃ := ho₄.of_suffix (Processed.suffix h₄)
    have ho₂ := ho₃.of_suffix h₃.suffix
    have hclaimed := (((h.waking h₁ hr hivs (ho₂.of_suffix h₂.suffix)).moved hr h₂ ho₂).waking h₃ hr
      hivs ho₃)
    refine Held.waking ?_ h₅ hr hivs ho
    have call : ∀ {v : World} {b : ℕ} {x : Handed}, Held True r v →
        Held True r (v.perform (.callback b x)) :=
      fun hv => hv.perform ⟨rfl, Or.inl rfl⟩
    cases h₄ with
    | idle hs => exact hclaimed.waking hs hr hivs ho₄
    | called c _ hsel hs =>
      have ho' := (ho₄.of_suffix hs.suffix).tail
      exact (call (hclaimed.waking hsel.steps hr hivs ho')).waking hs hr hivs ho₄
    | published c t hsel hs _ hio hs' =>
      have ho₆ := (ho₄.of_suffix hs'.suffix).tail
      have ho₅ := (ho₆.of_suffix hs.suffix).tail
      have hcalled := (call (hclaimed.waking hsel.steps hr hivs ho₅)).waking hs hr hivs ho₆
      obtain ⟨i, hi, hcov⟩ := hio
      refine (hcalled.perform ⟨?_, Or.inl ?_⟩).waking hs' hr hivs ho₄
      · refine Memory.word_write_apart ?_
        rw [leBytes_length]
        exact ((hivs i hi).apart hr.covers_version hcov).symm
      · refine Memory.word_write_apart ?_
        rw [leBytes_length]
        exact ((hivs i hi).apart hr.covers_status hcov).symm

end Held

end World

/-! ### Along a run -/

namespace Sys

/-- What the rules of the server keep of a session. -/
structure Steady (s : Sys) : Prop where
  held : ∀ r, s.session.own = some r → Held (s.session.state = .running) r s.world
  wanted : s.session.state = .running → s.session.wanted

lemma Edit.suffix {s s' : Sys} (h : Edit s s') : s.world.log <:+ s'.world.log := by
  cases h with
  | calm w hw => exact hw.suffix
  | probe r w _ hp => exact hp.suffix
  | refused n r w₁ w _ _ href hw => exact href.steps.suffix.trans hw.suffix
  | halt a c w hw => exact hw.steps.suffix
  | replace t w₁ w₂ w₃ hp hh hw =>
    exact hp.suffix.trans (hh.steps.suffix.trans (hw.suffix.trans (perform_suffix _ _)))
  | release w _ hw => exact hw.suffix.trans (perform_suffix _ _)
  | start t w _ _ _ hs => exact hs.suffix
  | _ => exact List.suffix_refl _

lemma Edits.suffix {s s' : Sys} (h : Edits s s') : s.world.log <:+ s'.world.log := by
  induction h with
  | refl => exact List.suffix_refl _
  | tail _ he ih => exact ih.trans he.suffix

end Sys

lemma World.Probed.beside {r r' : MemoryInterval} {w w' : World} (hown : ownAt w.log = some r)
    (hp : Probed r' w w') (ho : Orderly w'.log) : r' = r ∨ r'.Disjoint r := by
  obtain ⟨w₁, hs, -, hc⟩ := hp
  have ho₁ : Orderly (.own (.candidate r') :: w₁.log) := ho.of_suffix hc.suffix
  refine ho₁.head r ?_
  rw [hs.ownAt fun _ => Reads.silent, hown]
  rfl

lemma World.Held.probed {armed : Prop} {r r' : MemoryInterval} {w w' : World}
    (h : Held armed r w) (hr : IsRecord r) (hown : ownAt w.log = some r) (hr' : IsRecord r')
    (hp : Probed r' w w') (ho : Orderly w'.log) : Held armed r w' := by
  have hbeside := hp.beside hown ho
  obtain ⟨w₁, hs, -, hc⟩ := hp
  have ho₁ := ho.of_suffix hc.suffix
  have h₁ : Held armed r (w₁.perform (.candidate r')) :=
    (h.reads hs hr ho₁.tail).perform ⟨rfl, Or.inl rfl⟩
  refine h₁.calm hc ?_ ?_ hr ho
  · rintro _ rfl; exact hr'
  · rintro _ rfl; exact hbeside

namespace Sys

lemma replaced_held {s : Sys} {t : TransportGeneration} {w₁ w₂ w₃ : World}
    (hown : ownAt s.world.log = s.session.own) (hp : Probed t.interval s.world w₁)
    (hh : Halted s.session.own w₁ w₂) (hw : Steps (Calm fun r => s.session.own = some r) w₂ w₃)
    (ho : Orderly w₃.log) (hst : s.session.own = some t.interval ∨
      w₃.mem.word (statusOf t.interval) 4 = ActivationStatus.inactive.code) :
    Held False t.interval w₃ := by
  have hrec : ∀ r, s.session.own = some r → IsRecord r := fun r hr =>
    ClientNodeSession.own_isRecord hr
  have ho₂ := ho.of_suffix hw.suffix
  have ho₁ := ho₂.of_suffix hh.steps.suffix
  have hbeside : ∀ r, s.session.own = some r → r = t.interval ∨ r.Disjoint t.interval := by
    intro r hr
    rcases hp.beside (hown.trans hr) ho₁ with e | h
    · exact Or.inl e.symm
    · exact Or.inr h.symm
  have hmapped₂ : Mapped t.interval w₂ := by
    obtain ⟨w₀, -, hv, hc⟩ := hp
    have h₀ : Mapped t.interval (w₀.perform (.candidate t.interval)) :=
      ⟨List.mem_cons_self .., hv⟩
    refine (h₀.calm hc ?_ ?_ t.isRecord ho₁).calm hh.steps hrec hbeside t.isRecord ho₂
    · rintro _ rfl; exact t.isRecord
    · exact fun _ e => Or.inl e
  rcases hst with hsame | hin
  · have hd : Deactivated t.interval w₁ w₂ := by rw [hsame] at hh; exact hh
    exact (hmapped₂.held hd.status).calm hw hrec hbeside t.isRecord ho
  · exact (hmapped₂.calm hw hrec hbeside t.isRecord ho).held hin

/-- **An edit keeps a session steady.** -/
theorem Edit.steady {s s' : Sys} (h : Edit s s') (hc : s.session.Coherent) (hcov : s.Covered)
    (hs : s.Steady) (ho : Orderly s'.world.log) : s'.Steady := by
  have hrec : ∀ r, s.session.own = some r → IsRecord r := fun r hr =>
    ClientNodeSession.own_isRecord hr
  have hsame : ∀ {r}, s.session.own = some r → ∀ r', s.session.own = some r' →
      r' = r ∨ r'.Disjoint r := fun hr r' hr' => Or.inl (Option.some.inj (hr'.symm.trans hr))
  have hlog := hcov.credit.own_eq
  cases h with
  | book n hk hact hcmd =>
    have hown : n.own = s.session.own := by unfold ClientNodeSession.own; rw [hk.transport]
    refine ⟨fun r hr => ?_, fun hrun => ?_⟩
    · rw [hk.state]
      exact hs.held r (hown.symm.trans hr)
    · have := hs.wanted (hk.state.symm.trans hrun)
      unfold ClientNodeSession.wanted at this ⊢
      rw [hact, hcmd]; exact this
  | calm w hw =>
    exact ⟨fun r hr => (hs.held r hr).calm hw hrec (hsame hr) (hrec r hr) ho, hs.wanted⟩
  | probe r' w hr' hp =>
    exact ⟨fun r hr => (hs.held r hr).probed (hrec r hr) (hlog.trans hr) hr' hp ho, hs.wanted⟩
  | refused n r w₁ w _ hr href hw =>
    exact ((hs.held r hr).not_refused (hrec r hr) href (ho.of_suffix hw.suffix)).elim
  | intent a c hw => exact ⟨hs.held, fun hrun => hw (hs.wanted hrun)⟩
  | halt a c w hw =>
    refine ⟨fun r hr => ?_, fun hrun => absurd hrun (ClientNodeSession.stopped_state_ne _)⟩
    have hr' : s.session.own = some r := 
      (ClientNodeSession.stopped_own (s.session.intend a c)).symm.trans hr
    have hd : Deactivated r s.world w := by rw [hr'] at hw; exact hw
    exact (hs.held r hr').deactivated (hrec r hr') hd ho
  | replace t w₁ w₂ w₃ hp hh hw _ _ _ =>
    refine ⟨fun r hr => ?_, fun hrun => absurd hrun s.session.stopped_state_ne⟩
    obtain rfl : t.interval = r := Option.some.inj hr
    have hlog₃ : ownAt w₃.log = s.session.own :=
      (((hcov.credit.probed t.isRecord hp hrec).calm hh.steps hrec hrec).calm hw hrec hrec).own_eq
    have hheld := replaced_held hlog hp hh hw ho.tail (ho.head.imp_left fun e => hlog₃.symm.trans e)
    exact (hheld.mono False.elim).perform ⟨rfl, Or.inl rfl⟩
  | release w hst _ => exact ⟨by simp [ClientNodeSession.own], fun hrun => absurd hrun hst⟩
  | setOutput | clearOutput | insertPeer | removePeers => exact ⟨hs.held, hs.wanted⟩
  | start t w hw _ hT hstart =>
    refine ⟨fun r hr => ?_, fun _ => hw⟩
    obtain rfl : t.interval = r := by
      have : s.session.own = some t.interval := by simp [ClientNodeSession.own, hT]
      exact Option.some.inj (this.symm.trans hr)
    exact ((hs.held _ hr).started t.isRecord hstart ho).mono fun _ => rfl
  | unready _ hr =>
    have hne : s.session.state ≠ .running := fun hrun => by
      have := hc.ready hrun
      rw [hr] at this
      exact absurd this (by simp)
    refine ⟨fun r hown => ?_, by simp⟩
    have hheld := hs.held r hown
    exact hheld.rest (hheld.scheduled.resolve_right hne)
  | refresh =>
    rw [ClientNodeSession.refreshState_eq]
    refine ⟨fun r hr => (hs.held r hr).mono ClientNodeSession.refreshState_running.2, fun hrun => ?_⟩
    exact hs.wanted (ClientNodeSession.refreshState_running.1 hrun)

theorem Edits.steady {s s' : Sys} (h : Edits s s') (hc : s.session.Coherent) (hcov : s.Covered)
    (hs : s.Steady) (ho : Orderly s'.world.log) : s'.Steady := by
  induction h with
  | refl => exact hs
  | tail h he ih =>
    exact he.steady (Edits.coherent h hc) (Edits.covered h hcov) (ih (ho.of_suffix he.suffix)) ho

lemma Closed.suffix {s s' : Sys} (h : Closed s s') : s.world.log <:+ s'.world.log := by
  obtain ⟨w, hw, rfl⟩ := h
  exact hw.suffix.trans (perform_suffix _ _)

lemma Applied.suffix {c : SessionCommand} {s s' : Sys} (h : Applied c s s') :
    s.world.log <:+ s'.world.log := by
  cases h with
  | ignored => exact List.suffix_refl _
  | closed _ h => exact h.suffix
  | edited _ _ h => exact h.suffix

lemma Applied.steady {c : SessionCommand} {s s' : Sys} (h : Applied c s s')
    (hc : s.session.Coherent) (hcov : s.Covered) (hs : s.Steady) (ho : Orderly s'.world.log) :
    s'.Steady := by
  cases h with
  | ignored => exact hs
  | closed _ h =>
    obtain ⟨w, -, rfl⟩ := h
    exact ⟨by simp [ClientNodeSession.own, ClientNodeSession.disconnected],
      by simp [ClientNodeSession.disconnected]⟩
  | edited _ _ h =>
    exact h.steady (s := s.prepare c)
      (hc.of_eq rfl rfl rfl (fun _ _ h => Or.inl h) hc.idle hc.ready)
      ⟨hcov.credit, hcov.ordered⟩ ⟨hs.held, hs.wanted⟩ ho

end Sys

lemma Woke.suffix {wake : Owner.Wake} {s s' : Sys} {st : SessionState} (h : Woke wake s st s') :
    s.world.log <:+ s'.world.log := by
  cases h with
  | ignored => exact List.suffix_refl _
  | drained t w _ _ hw => exact hw.suffix
  | cycle t g st w _ _ _ _ hw => exact Wakes.suffix hw

lemma Woke.state {wake : Owner.Wake} {s s' : Sys} {st : SessionState} (h : Woke wake s st s') :
    s'.session.state = st := by
  cases h <;> rfl

lemma Woke.steady {wake : Owner.Wake} {s s' : Sys} {st : SessionState} (h : Woke wake s st s')
    (hst : st = s.session.state) (hc : s.session.Coherent) (hs : s.Steady)
    (ho : Orderly s'.world.log) : s'.Steady := by
  have hown : ∀ {t r}, s.session.transport = some t → s.session.own = some r → t.interval = r :=
    fun hT hr => by simpa [ClientNodeSession.own, hT] using hr
  cases h with
  | ignored => exact hs
  | drained t w hT _ hw =>
    refine ⟨fun r hr => ?_, hs.wanted⟩
    obtain rfl := hown hT hr
    exact (hs.held _ hr).waking hw t.isRecord (by simp) ho
  | cycle t g st w hT _ hrun hG hw =>
    subst hst
    refine ⟨fun r hr => ?_, fun _ => hs.wanted hrun⟩
    obtain rfl := hown hT hr
    have hheld : Held True _ _ := (hs.held _ hr).mono fun _ => trivial
    exact (Held.wakes hheld t.isRecord (hc.own_disjoint hT hG) hw ho).mono fun _ => hrun

namespace Sys

lemma move_suffix (s : Sys) (hc : s.session.Coherent) (m : Move) :
    s.world.log <:+ (s.move m).world.log := by
  cases m with
  | server a =>
    cases a with
    | store l bs => exact ⟨[_], rfl⟩
    | signal fd n => exact List.suffix_refl _
  | op o k script =>
    cases o with
    | command c => exact (s.exec_command c k script).2.1.suffix
    | wake w =>
      obtain ⟨-, st, -, h⟩ := s.exec_wake hc w k script
      exact h.suffix

theorem move_steady (s : Sys) (m : Move) (hc : s.session.Coherent) (hcov : s.Covered)
    (hs : s.Steady) (hfail : (s.move m).session.state ≠ .failed)
    (ho : Orderly (s.move m).world.log) : (s.move m).Steady := by
  cases m with
  | server a => exact ⟨fun r hr => (hs.held r hr).serve a ho, hs.wanted⟩
  | op o k script =>
    have hheld : (s.scripted script).Steady :=
      ⟨fun r hr => ⟨⟨(hs.held r hr).mapped, (hs.held r hr).version⟩, (hs.held r hr).status,
        (hs.held r hr).scheduled⟩, hs.wanted⟩
    cases o with
    | command c =>
      exact (s.exec_command c k script).2.1.steady hc
        ⟨⟨hcov.credit.own_eq, hcov.credit.covered⟩, hcov.ordered⟩ hheld ho
    | wake w =>
      obtain ⟨-, st, hst, h⟩ := s.exec_wake hc w k script
      refine h.steady (hst.resolve_right ?_) hc hheld ho
      rintro ⟨hrun, rfl⟩
      exact hfail h.state

/-- The states of a run that a longer one begins with. -/
theorem run_steady (mem : Shm) (counter : Fd → ℕ) (moves : List Move)
    (hfail : ∀ ms, ms <+: moves → ((init mem counter).run ms).session.state ≠ .failed)
    (ho : Orderly ((init mem counter).run moves).world.log) :
    ((init mem counter).run moves).Steady := by
  induction moves using List.reverseRecOn with
  | nil => exact ⟨by simp [init, ClientNodeSession.own, ClientNodeSession.new], by simp [init, ClientNodeSession.new]⟩
  | append_singleton ms m ih =>
    have hc := run_coherent mem counter ms
    rw [run_append] at ho ⊢
    refine move_steady _ m hc (run_covered mem counter ms) (ih ?_ ?_) ?_ ho
    · exact fun ms' h => hfail ms' (h.trans (List.prefix_append _ _))
    · exact ho.of_suffix (move_suffix _ hc m)
    · have := hfail _ (List.prefix_refl _)
      rwa [run_append] at this

end Sys

/-! ### The end of a session -/

namespace ClientNodeSession

/-- Every descriptor, every mapping and every lease is gone. -/
structure Cleared (s : ClientNodeSession) : Prop where
  transport : s.transport = none
  pendingTransport : s.pendingTransport = none
  format : s.format = none
  bufferDescriptor : s.bufferDescriptor = none
  ioDescriptor : s.ioDescriptor = none
  output : s.output = none
  peers : s.peers = ∅
  pendingPeers : s.pendingPeers = ∅
  availableMemory : s.availableMemory = fun _ => none

lemma cleared_disconnected (s : ClientNodeSession) : s.disconnected.Cleared :=
  ⟨rfl, rfl, rfl, rfl, rfl, rfl, rfl, rfl, rfl⟩

lemma Cleared.disconnected_eq {s : ClientNodeSession} (h : s.Cleared)
    (hs : s.state = .disconnected) : s.disconnected = s := by
  obtain ⟨h₁, h₂, h₃, h₄, h₅, h₆, h₇, h₈, h₉⟩ := h
  cases s
  simp only [disconnected] at *
  simp_all

lemma stopped_open {s : ClientNodeSession} (h : s.state ≠ .disconnected) :
    s.stopped.state ≠ .disconnected := by
  unfold stopped; split_ifs <;> simp_all

lemma refreshState_open {s : ClientNodeSession} (h : s.state ≠ .disconnected) :
    s.refreshState.state ≠ .disconnected := by
  unfold refreshState
  split <;> simp_all
  split_ifs <;> simp

end ClientNodeSession

namespace Sys

lemma Edit.open {s s' : Sys} (h : Edit s s') (hs : s.session.state ≠ .disconnected) :
    s'.session.state ≠ .disconnected := by
  cases h with
  | book n hk | refused n r w₁ w hk => rw [hk.state]; exact hs
  | halt => exact ClientNodeSession.stopped_open hs
  | replace => exact ClientNodeSession.stopped_open (s := s.session) hs
  | start | unready => simp
  | refresh => exact ClientNodeSession.refreshState_open hs
  | _ => exact hs

lemma Edits.open {s s' : Sys} (h : Edits s s') (hs : s.session.state ≠ .disconnected) :
    s'.session.state ≠ .disconnected := by
  induction h with
  | refl => exact hs
  | tail _ he ih => exact he.open ih

lemma move_cleared {s : Sys} (hc : s.session.Coherent)
    (hcl : s.session.state = .disconnected → s.session.Cleared) (m : Move) :
    (s.move m).session.state = .disconnected → (s.move m).session.Cleared := by
  cases m with
  | server a => exact hcl
  | op o k script =>
    cases o with
    | command c =>
      show (s.exec (.command c) k script).2.session.state = _ → (s.exec _ k script).2.session.Cleared
      generalize (s.exec (.command c) k script).2 = s', (s.exec_command c k script).2.1 = h
      cases h with
      | ignored => exact hcl
      | closed _ h =>
        obtain ⟨w, -, rfl⟩ := h
        exact fun _ => s.session.cleared_disconnected
      | edited _ hs h => exact fun hd => absurd hd (h.open hs)
    | wake w =>
      obtain ⟨-, st, hst, h⟩ := s.exec_wake hc w k script
      show (s.exec (.wake w) k script).2.session.state = _ → (s.exec _ k script).2.session.Cleared
      generalize (s.exec (.wake w) k script).2 = s' at h
      cases h with
      | ignored | drained => exact hcl
      | cycle t g st w _ _ hrun _ _ =>
        rintro rfl
        rcases hst with e | ⟨-, e⟩
        · exact absurd (e.trans hrun) (by simp)
        · exact absurd e (by simp)

/-- A disconnected session is empty, whatever happened before. -/
theorem run_cleared (mem : Shm) (counter : Fd → ℕ) (moves : List Move) :
    ((init mem counter).run moves).session.state = .disconnected →
      ((init mem counter).run moves).session.Cleared :=
  (run_keeps (I := fun s => s.session.Coherent ∧
      (s.session.state = .disconnected → s.session.Cleared))
    (fun s m h => ⟨s.move_coherent m h.1, move_cleared h.1 h.2 m⟩) moves _
    ⟨ClientNodeSession.coherent_new, by simp [init, ClientNodeSession.new]⟩).2

/-- A disconnected session stays as it is. -/
theorem run_disconnected {s : Sys} (hs : s.session.state = .disconnected)
    (hcl : s.session.Cleared) (moves : List Move) : (s.run moves).session = s.session := by
  refine run_keeps (I := fun s' => s'.session = s.session) (fun s' m h => ?_) moves s rfl
  have hc : s'.session.Coherent := by
    rw [h]
    constructor <;> simp [hs, hcl.output, hcl.transport, hcl.peers, hcl.pendingPeers]
  cases m with
  | server a => exact h
  | op o k script =>
    cases o with
    | command c =>
      show (s'.exec (.command c) k script).2.session = s.session
      generalize (s'.exec (.command c) k script).2 = s'', (s'.exec_command c k script).2.1 = ha
      cases ha with
      | ignored => exact h
      | closed _ hcd =>
        obtain ⟨w, -, rfl⟩ := hcd
        show s'.session.disconnected = s.session
        rw [h]
        exact hcl.disconnected_eq hs
      | edited _ hne _ => exact absurd (by rw [← hs, ← h]; rfl) hne
    | wake w =>
      obtain ⟨-, st, hst, hw⟩ := s'.exec_wake hc w k script
      show (s'.exec (.wake w) k script).2.session = s.session
      generalize (s'.exec (.wake w) k script).2 = s'' at hw
      cases hw with
      | ignored | drained => exact h
      | cycle t g st w _ _ hrun _ _ =>
        have : s'.session.state = .running := hrun
        rw [h, hs] at this
        exact absurd this (by simp)

end Sys

/-! ### The states of a session -/

/-- The state that the intents and the bindings of a session ask for. -/
def ClientNodeSession.target (s : ClientNodeSession) : SessionState :=
  if s.activeRequested ∧ s.command = .start ∧ s.transport.isSome ∧ s.format.isSome ∧
      s.output.isSome then .running
  else if s.transport.isSome ∧ s.format.isSome ∧ s.output.isSome then .ready
  else .configuring

lemma ClientNodeSession.target_eq (s : ClientNodeSession) : s.target =
    if s.wanted && s.isReady then .running else if s.isReady then .ready else .configuring := by
  simp [target, wanted, isReady, and_assoc]

lemma ClientNodeSession.refreshState_state {s : ClientNodeSession} (hrun : s.state ≠ .running)
    (hidle : s.state ≠ .cycleClaimed) (hd : s.state ≠ .disconnected)
    (hf : s.refreshState.state ≠ .failed) :
    s.refreshState.state = if s.isReady then .ready else .configuring := by
  unfold refreshState at hf ⊢
  cases hst : s.state with
  | running => exact absurd hst hrun
  | cycleClaimed => exact absurd hst hidle
  | failed => simp only [hst] at hf; exact absurd rfl hf
  | disconnected => exact absurd hst hd
  | _ => rfl

lemma ClientNodeSession.settled_state {s : ClientNodeSession} (hc : s.Coherent)
    (hw : s.state = .running → s.wanted) (hd : s.state ≠ .disconnected)
    (hf : s.settled.state ≠ .failed) : s.settled.state = s.settled.target := by
  have hwant : s.refreshState.wanted = s.wanted := by rw [refreshState_eq]; rfl
  have hready : s.refreshState.isReady = s.isReady := by rw [refreshState_eq]; rfl
  have htarget : s.settled.target = s.target := by
    unfold settled
    rw [refreshState_eq]
    split_ifs <;> rfl
  rw [htarget, target_eq]
  unfold settled at hf ⊢
  rw [hwant, hready] at hf ⊢
  by_cases h : (s.wanted && s.isReady) = true
  · rw [if_pos h, if_pos h]
  · rw [if_neg h] at hf ⊢
    rw [if_neg h]
    refine refreshState_state (fun hrun => h ?_) hc.idle hd hf
    rw [hw hrun, hc.ready hrun]
    rfl

/-- **The life of a session.** Along a run in which the server keeps the rules and the session has
never failed: no operation leaves the session inside a callback; the own record is out of
scheduling unless the session runs; a disconnected session is empty and stays so; a command that
went through and did not close the session has brought it to the state its intents and bindings ask
for; and whatever is done next, no `unwrap` fails. -/
theorem Sys.lifecycle (mem : Shm) (counter : Fd → ℕ) (moves : List Move)
    (hfail : ∀ ms, ms <+: moves → ((init mem counter).run ms).session.state ≠ .failed)
    (horderly : Orderly ((init mem counter).run moves).world.log) :
    let s := (init mem counter).run moves
    s.session.state ≠ .cycleClaimed ∧
    (∀ r, s.session.own = some r →
      s.world.mem.word (statusOf r) 4 ≠ ActivationStatus.inactive.code →
      s.session.state = .running) ∧
    (s.session.state = .disconnected →
      s.session.Cleared ∧ ∀ more, (s.run more).session = s.session) ∧
    (∀ ms c k script o, moves = ms ++ [.op (.command c) k script] →
      (((init mem counter).run ms).exec (.command c) k script).1 = .ok o → c.closes = false →
      s.session.state = s.session.target) ∧
    (∀ o k script, (s.exec o k script).1 ≠ .error .panic) := by
  intro s
  have hc : s.session.Coherent := run_coherent mem counter moves
  have hsteady : s.Steady := run_steady mem counter moves hfail horderly
  refine ⟨hc.idle, fun r hr hne => ?_, fun hd => ?_, ?_, fun o k script => ?_⟩
  · exact (hsteady.held r hr).scheduled.resolve_left hne
  · have hcl := run_cleared mem counter moves hd
    exact ⟨hcl, run_disconnected hd hcl⟩
  · intro ms c k script o hms hok hcl
    -- the session before the restart is coherent and steady, and not closed
    have hcₘ := run_coherent mem counter ms
    have hsₘ : ((init mem counter).run ms).Steady := by
      refine run_steady mem counter ms
        (fun ms' h => hfail ms' (h.trans (by rw [hms]; exact List.prefix_append _ _))) ?_
      refine horderly.of_suffix ?_
      rw [hms, run_append]
      exact move_suffix _ hcₘ (.op (.command c) k script)
    obtain ⟨hopen, s₁, he₁, he₂, hses⟩ := (exec_command _ c k script).2.2 o hok hcl
    have hs : s = (((init mem counter).run ms).exec (.command c) k script).2 := by
      show (init mem counter).run moves = _
      rw [hms, run_append]; rfl
    rw [← hs] at he₂ hses
    have hcₚ : (((init mem counter).run ms).scripted script |>.prepare c).session.Coherent :=
      hcₘ.of_eq rfl rfl rfl (fun _ _ h => Or.inl h) hcₘ.idle hcₘ.ready
    have hcov := run_covered mem counter ms
    have hs₁ := he₁.steady hcₚ ⟨⟨hcov.credit.own_eq, hcov.credit.covered⟩, hcov.ordered⟩
      ⟨fun r hr => ⟨⟨(hsₘ.held r hr).mapped, (hsₘ.held r hr).version⟩, (hsₘ.held r hr).status,
        (hsₘ.held r hr).scheduled⟩, hsₘ.wanted⟩ (horderly.of_suffix he₂.suffix)
    have hnot : s.session.state ≠ .failed := hfail moves (List.prefix_refl _)
    rw [hses] at hnot ⊢
    exact ClientNodeSession.settled_state (he₁.coherent hcₚ) hs₁.wanted (he₁.open hopen) hnot
  · cases o with
    | command c => exact (s.exec_command c k script).1
    | wake w => exact (s.exec_wake hc w k script).1

/-! ### A sample session -/

namespace Sample

def kernel : Kernel where
  map _ := .sample
  fcntl _ := none
  read := none
  write _ := none

/-- The backing object of everything. -/
def backing : BackingIdentity := ⟨1, 1⟩

/-- Its bytes: an inactive own record at 0, a peer waiting for one trigger at 4096, an IO area that
needs data at 8192, and everything else zero. -/
def mem : Shm := fun _ a =>
  if a = 0 then 4 else if a = 544 then 1
  else if a = 4096 + 16 then 1 else if a = 4096 + 544 then 1
  else if a = 8192 then 1 else 0

def lease : MemoryLease := ⟨⟨⟨1, 1⟩, backing, 65536⟩, .allow⟩

def transport : TransportDescriptor := ⟨10, 11, ⟨1, 0, 2312⟩⟩

def format : NegotiatedAudioFormat :=
  ⟨.s16Le, 48000, [3, 4], 2, 4, by decide, by decide, by decide⟩

def buffers : BufferSetDescriptor := ⟨0, [⟨⟨1, 12288, 16⟩, [], 1, 16384, 4096⟩]⟩

def io : PortIoDescriptor := ⟨0, ⟨1, 8192, 8⟩⟩

def peer : PeerActivationDescriptor := ⟨7, 12, ⟨1, 4096, 2312⟩⟩

/-- A command the server leaves alone. -/
def command (c : SessionCommand) : Move := .op (.command c) kernel []

def start : List Move :=
  [command (.replaceTransport transport), command (.setFormat format),
    command (.useBuffers buffers), command (.setPortIo io), command (.setPeerActivation peer),
    command (.memoryAvailable lease), command (.setActive true), command (.setNodeCommand .start)]

def trigger : List Move :=
  [.server (.store ⟨backing, 0⟩ [1, 0, 0, 0]), .server (.signal 10 1)]

/-- A callback that commits one frame. -/
def callback : OutputProcess := fun c _ =>
  ([1, 2, 3, 4], .returned (match c.commit 1 with
    | .ok t => .ok t
    | .error _ => .error "commit"))

def wake : Move := .op (.wake ⟨1, 5, some 6, callback⟩) kernel []

def failing : List Move :=
  start ++ trigger ++
    [.op (.wake ⟨1, 5, some 6, fun _ _ => ([], .returned (.error "failed"))⟩) kernel []]

/-- No eventfd has been written. -/
def counter : Fd → ℕ := fun _ => 0

end Sample

def Sys.errorOf : Except Unwind Outcome → Option Unwind
  | .ok _ => none
  | .error e => some e

lemma Sys.errorOf_eq_some {r : Except Unwind Outcome} {e : Unwind} : errorOf r = some e ↔ r = .error e := by
  cases r <;> simp [errorOf]

/-- A session that is started and runs one cycle. -/
def Sample.cycle : List Move := Sample.start ++ Sample.trigger ++ [Sample.wake]

/-- The sample session, its peer removed after one cycle. -/
theorem Sys.lifecycle_sample :
    ((init Sample.mem Sample.counter).run
      (Sample.cycle ++ [Sample.command (.removePeerActivation 7)])).session.state = .running := by
  have hfail : ∀ ms ∈ (Sample.cycle ++ [Sample.command (.removePeerActivation 7)]).inits,
      ((init Sample.mem Sample.counter).run ms).session.state ≠ .failed := by decide +kernel
  obtain ⟨o, ho⟩ := except_isOk.1 (show (((init Sample.mem Sample.counter).run Sample.cycle).exec
    (.command (.removePeerActivation 7)) Sample.kernel []).1.isOk by decide +kernel)
  have h := lifecycle Sample.mem Sample.counter
    (Sample.cycle ++ [Sample.command (.removePeerActivation 7)])
    (fun ms hms => hfail ms ((List.mem_inits _ _).2 hms)) (by decide +kernel)
  refine (h.2.2.2.1 Sample.cycle (.removePeerActivation 7) Sample.kernel [] o rfl ho rfl).trans ?_
  decide +kernel

/-- The region over which a transport was installed. -/
def Event.over? : Event → Option MemoryInterval
  | .own (.install _ r _) => some r
  | _ => none

/-- The rules, with `INACTIVE` asked of a record only when it is bound for the first time. -/
def World.OrderlyAtFirst : List Event → Prop
  | [] => True
  | e :: log =>
    (e.over?.isSome ∧ e.over? ∈ log.map Event.over? ∨ Admits log e) ∧ OrderlyAtFirst log

instance World.decidableOrderlyAtFirst : (log : List Event) → Decidable (OrderlyAtFirst log)
  | [] => isTrue trivial
  | e :: log =>
    have := decidableOrderlyAtFirst log
    inferInstanceAs (Decidable ((e.over?.isSome ∧ e.over? ∈ log.map Event.over? ∨ Admits log e) ∧
      OrderlyAtFirst log))

namespace Sample

/-- The bytes of the sample, with a second inactive record at 20480. -/
def spare : Shm := fun o a => if a = 20480 then 4 else if a = 20480 + 544 then 1 else mem o a

/-- The second record takes the place of the first one, whose bytes become the media of a buffer. A
callback leaves the word of `TRIGGERED` there; then the buffers go, and the first record is bound
again. -/
def rebound : List Move :=
  [command (.memoryAvailable lease), command (.replaceTransport transport),
    command (.replaceTransport ⟨10, 11, ⟨1, 20480, 2312⟩⟩), command (.setFormat format),
    command (.useBuffers ⟨0, [⟨⟨1, 12288, 16⟩, [], 1, 0, 4096⟩]⟩), command (.setPortIo io),
    command (.setActive true), command (.setNodeCommand .start),
    .server (.store ⟨backing, 20480⟩ [1, 0, 0, 0]), .server (.signal 10 1),
    .op (.wake ⟨2, 5, some 6, fun c bytes => ([1, 0, 0, 0], (callback c bytes).2)⟩) kernel [],
    command .clearBuffers, command (.replaceTransport transport)]

end Sample

/-- A record that was `INACTIVE` when it was first bound is `TRIGGERED` in a session that does not
run: it is bound for the second time. -/
theorem Sys.lifecycle_rebound :
    let s := (init Sample.spare Sample.counter).run Sample.rebound
    (∀ ms ∈ Sample.rebound.inits,
      ((init Sample.spare Sample.counter).run ms).session.state ≠ .failed) ∧
    OrderlyAtFirst s.world.log ∧ s.session.own = some ⟨Sample.backing, 0, 2312⟩ ∧
    s.world.mem.word (statusOf ⟨Sample.backing, 0, 2312⟩) 4 = ActivationStatus.triggered.code ∧
    s.session.state = .configuring :=
  ⟨by decide +kernel, by decide +kernel, by decide +kernel, by decide +kernel, by decide +kernel⟩

end PipewireNative.Node
