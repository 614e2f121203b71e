import PipewireNative.Lib.Prog
import PipewireNative.Node.Abi
import Mathlib.Logic.Function.Basic

/-!
The world the session owner runs in: the shared memory, the eventfd counters, what the server
does in between, and a record of everything that happened.

The owner reaches shared memory one atomic access at a time, and before each access the server
may have stored anything anywhere: `World.script` holds, for each access still to come, what the
server does before it. The log keeps every event, newest first, those of the server with the
memory before and after.
-/

namespace PipewireNative.Node

open Lib Lib.Word

/-- The Linux identity of a backing object. -/
structure BackingIdentity where
  device : ℕ
  inode : ℕ
  deriving DecidableEq, Repr

/-- The bytes of every backing object. -/
abbrev Shm := Memory BackingIdentity

/-- A byte of a backing object. -/
abbrev Addr := Loc BackingIdentity

/-- An absolute byte interval in one backing object. -/
abbrev MemoryInterval := Span BackingIdentity

/-- An open eventfd; duplicated descriptors of one counter are the same `Fd`. -/
abbrev Fd := ℕ

/-- What a callback hands in for its cycle: no token that names the buffer of the cycle, one that
fits the cycle, or one that does not. -/
inductive Handed where
  | nothing
  | fitting
  | misfit
  deriving DecidableEq

/-- What the owner does to the world. A failed signal is a write to an eventfd that was made and
refused. The last three leave no trace in memory: a transport candidate has been mapped over a
region, a transport generation has been installed over a region whose status word then was
`status`, and the transport has been given up. -/
inductive Action where
  | load (field : Field) (at_ : Addr) (width value : ℕ)
  | store (field : Field) (at_ : Addr) (bytes : List UInt8)
  | exchange (field : Field) (at_ : Addr) (expected desired seen : ℕ)
  | swap (field : Field) (at_ : Addr) (desired seen : ℕ)
  | drain (fd : Fd) (count : ℕ)
  | signal (fd : Fd) (value : ℕ)
  | failedSignal (fd : Fd) (value : ℕ)
  | callback (buffer : ℕ) (handed : Handed)
  | candidate (region : MemoryInterval)
  | install (id : ℕ) (region : MemoryInterval) (status : ℕ)
  | release
  deriving DecidableEq

inductive Event where
  | server (before after : Shm)
  | own (a : Action)

/-- What the server can do: store bytes, or add to an eventfd counter. -/
inductive ServerAct where
  | store (at_ : Addr) (bytes : List UInt8)
  | signal (fd : Fd) (count : ℕ)

structure World where
  mem : Shm
  counter : Fd → ℕ
  script : List (List ServerAct)
  log : List Event

namespace World

/-- The callbacks that ran, with the buffer of the cycle and what was handed in, the latest first. -/
def calls (log : List Event) : List (ℕ × Handed) :=
  log.filterMap fun
    | .own (.callback id handed) => some (id, handed)
    | _ => none

/-- What an action does to memory. -/
def effect : Action → Shm → Shm
  | .store _ l bs, m => m.write l bs
  | .exchange _ l expected desired seen, m => if seen = expected then m.setWord l 4 desired else m
  | .swap _ l desired _, m => m.setWord l 4 desired
  | _, m => m

/-- What an action does to the eventfd counters. -/
def count : Action → (Fd → ℕ) → Fd → ℕ
  | .drain fd _, c => Function.update c fd 0
  | .signal fd v, c => Function.update c fd (c fd + v)
  | _, c => c

/-- The world after an action of the owner. -/
def perform (w : World) (a : Action) : World :=
  { w with mem := effect a w.mem, counter := count a w.counter, log := .own a :: w.log }

/-- The world after an act of the server. -/
def serve (w : World) : ServerAct → World
  | .store l bs => { w with mem := w.mem.write l bs, log := .server w.mem (w.mem.write l bs) :: w.log }
  | .signal fd n => { w with counter := Function.update w.counter fd (w.counter fd + n) }

/-- The world after what the server does before the next access of the owner. -/
def interfere (w : World) : World :=
  match w.script with
  | [] => w
  | acts :: rest => acts.foldl serve { w with script := rest }

@[simp] lemma perform_mem (w : World) (a : Action) : (w.perform a).mem = effect a w.mem := rfl
@[simp] lemma perform_log (w : World) (a : Action) : (w.perform a).log = .own a :: w.log := rfl
@[simp] lemma perform_script (w : World) (a : Action) : (w.perform a).script = w.script := rfl

lemma interfere_quiet {w : World} (h : w.script = []) : w.interfere = w := by
  unfold interfere; rw [h]

lemma interfere_script (w : World) : w.interfere.script = w.script.tail := by
  have hserve : ∀ (acts : List ServerAct) (v : World), (acts.foldl serve v).script = v.script := by
    intro acts
    induction acts with
    | nil => exact fun _ => rfl
    | cons a acts ih =>
      intro v
      rw [List.foldl_cons, ih]
      cases a <;> rfl
  unfold interfere
  split
  · rename_i h
    rw [h]
    rfl
  · rename_i acts rest h
    rw [hserve, h]
    rfl

/-! ### The accesses of the owner -/

variable {ε α : Type}

/-- One access: the server acts, then the owner does `a` and learns `r`. -/
def access (a : World → Action) (r : World → α) : Prog World ε α := fun w =>
  (.ok (r w.interfere), w.interfere.perform (a w.interfere))

/-- An entry of the log that is no access. -/
def note (a : World → Action) : Prog World ε Unit := fun w => (.ok (), w.perform (a w))

/-- Load the `n`-byte word at `l`. -/
def load (f : Field) (l : Addr) (n : ℕ) : Prog World ε ℕ :=
  access (fun w => .load f l n (w.mem.word l n)) fun w => w.mem.word l n

/-- Store bytes at `l`. -/
def store (f : Field) (l : Addr) (bs : List UInt8) : Prog World ε Unit :=
  access (fun _ => .store f l bs) fun _ => ()

/-- Store the `n`-byte word `v` at `l`. -/
def storeWord (f : Field) (l : Addr) (n v : ℕ) : Prog World ε Unit := store f l (leBytes n v)

/-- Compare and exchange the 32-bit word at `l`; the word seen is returned. -/
def compareExchange (f : Field) (l : Addr) (expected desired : ℕ) : Prog World ε ℕ :=
  access (fun w => .exchange f l expected desired (w.mem.word l 4)) fun w => w.mem.word l 4

/-- Swap the 32-bit word at `l`; the word seen is returned. -/
def swap (f : Field) (l : Addr) (desired : ℕ) : Prog World ε ℕ :=
  access (fun w => .swap f l desired (w.mem.word l 4)) fun w => w.mem.word l 4

section Ends

variable {w : World} {f : Field} {l : Addr} {n x d : ℕ} {E : ε → World → Prop}

@[simp] lemma ends_access {a : World → Action} {r : World → α} {Q : α → World → Prop} :
    (access a r : Prog World ε α).Ends w Q E ↔
      Q (r w.interfere) (w.interfere.perform (a w.interfere)) := Iff.rfl

@[simp] lemma ends_note {a : World → Action} {Q : Unit → World → Prop} :
    (note a : Prog World ε Unit).Ends w Q E ↔ Q () (w.perform (a w)) := Iff.rfl

@[simp] lemma ends_load {Q : ℕ → World → Prop} : (load f l n : Prog World ε ℕ).Ends w Q E ↔
    Q (w.interfere.mem.word l n)
      (w.interfere.perform (.load f l n (w.interfere.mem.word l n))) := Iff.rfl

@[simp] lemma ends_store {bs : List UInt8} {Q : Unit → World → Prop} :
    (store f l bs : Prog World ε Unit).Ends w Q E ↔
      Q () (w.interfere.perform (.store f l bs)) := Iff.rfl

@[simp] lemma ends_compareExchange {Q : ℕ → World → Prop} :
    (compareExchange f l x d : Prog World ε ℕ).Ends w Q E ↔ Q (w.interfere.mem.word l 4)
      (w.interfere.perform (.exchange f l x d (w.interfere.mem.word l 4))) := Iff.rfl

@[simp] lemma ends_swap {Q : ℕ → World → Prop} : (swap f l d : Prog World ε ℕ).Ends w Q E ↔
    Q (w.interfere.mem.word l 4)
      (w.interfere.perform (.swap f l d (w.interfere.mem.word l 4))) := Iff.rfl

end Ends

/-! ### What can happen while the owner runs -/

/-- The values an action reports are those of the world it is done in. -/
def Genuine (w : World) : Action → Prop
  | .load _ l n v => v = w.mem.word l n
  | .exchange _ l _ _ seen => seen = w.mem.word l 4
  | .swap _ l _ seen => seen = w.mem.word l 4
  | .install _ region status => status = w.mem.word ⟨region.obj, region.start⟩ 4
  | _ => True

/-- One step: the server does what the script says, or the owner does something of `P`. -/
inductive Step (P : Action → Prop) : World → World → Prop
  | interfere (w : World) : Step P w w.interfere
  | own (w : World) (a : Action) : w.Genuine a → P a → Step P w (w.perform a)

abbrev Steps (P : Action → Prop) : World → World → Prop := Relation.ReflTransGen (Step P)

variable {P P' : Action → Prop} {w w' : World}

lemma Steps.mono (h : Steps P w w') (hP : ∀ a, P a → P' a) : Steps P' w w' := by
  refine h.lift id fun a b hs => ?_
  cases hs with
  | interfere => exact .interfere _
  | own a hg ha => exact .own _ a hg (hP a ha)

lemma interfere_keeps {I : World → Prop} (h : I w)
    (script : ∀ w s, I w → I { w with script := s }) (serve : ∀ w a, I w → I (w.serve a)) :
    I w.interfere := by
  unfold interfere
  split
  · exact h
  · rename_i acts rest hs
    have h' := script w rest h
    generalize ({ w with script := rest } : World) = v at h'
    clear h hs
    induction acts generalizing v with
    | nil => exact h'
    | cons a acts ih => exact ih _ (serve v a h')

/-- **The rule of invariants.** What every act of the server and every permitted action keeps,
any number of steps keeps. -/
theorem Steps.keeps {I : World → Prop} (h : Steps P w w') (h0 : I w)
    (script : ∀ w s, I w → I { w with script := s }) (serve : ∀ w a, I w → I (w.serve a))
    (own : ∀ w a, I w → w.Genuine a → P a → I (w.perform a)) : I w' := by
  induction h with
  | refl => exact h0
  | tail _ hs ih =>
    cases hs with
    | interfere => exact interfere_keeps ih script serve
    | own a hg ha => exact own _ a ih hg ha

/-- **The rule of invariants, with a server that does nothing.** -/
theorem Steps.keeps_quiet {I : World → Prop} (h : Steps P w w') (hq : w.script = []) (h0 : I w)
    (own : ∀ w a, I w → w.Genuine a → P a → I (w.perform a)) : I w' ∧ w'.script = [] := by
  induction h with
  | refl => exact ⟨h0, hq⟩
  | tail _ hs ih =>
    cases hs with
    | interfere => rw [interfere_quiet ih.2]; exact ih
    | own a hg ha => exact ⟨own _ a ih.1 hg ha, ih.2⟩

lemma steps_interfere (P : Action → Prop) (w : World) : Steps P w w.interfere :=
  .single (.interfere w)

/-! ### Programs that only do something of `P` -/

/-- Whatever way `p` ends, all the owner did was of `P`. -/
def Does (P : Action → Prop) (p : Prog World ε α) : Prop := ∀ w, Steps P w (p w).2

section Does

variable {ε' β : Type} {p : Prog World ε α}

lemma Does.ends {w₀ w : World} (hp : Does P p) (h : Steps P w₀ w) :
    p.Ends w (fun _ => Steps P w₀) (fun _ => Steps P w₀) :=
  Prog.ends_state.2 (h.trans (hp w))

lemma does_pure (a : α) : Does P (pure a : Prog World ε α) := fun _ => .refl
lemma does_fail (e : ε) : Does P (Prog.fail e : Prog World ε α) := fun _ => .refl
lemma does_ofExcept (r : Except ε α) : Does P (Prog.ofExcept r : Prog World ε α) := fun _ => .refl
lemma does_failIf (c : Prop) [Decidable c] (e : ε) :
    Does P (Prog.failIf c e : Prog World ε Unit) := fun _ => .refl

lemma Does.bind {f : α → Prog World ε β} (hp : Does P p) (hf : ∀ a, Does P (f a)) :
    Does P (p >>= f) := by
  intro w
  have h := hp w
  simp only [Bind.bind]
  generalize p w = r at h
  obtain ⟨r | a, w'⟩ := r
  · exact h
  · exact h.trans (hf a w')

lemma Does.mapErr {f : ε → ε'} (hp : Does P p) : Does P (p.mapErr f) := by
  intro w
  have h := hp w
  unfold Prog.mapErr
  generalize p w = r at h
  obtain ⟨r | a, w'⟩ := r <;> exact h

lemma Does.attempt (hp : Does P p) : Does P (p.attempt : Prog World ε' _) := hp

lemma Does.onFail {c : Prog World Empty Unit} (hp : Does P p) (hc : Does P c) :
    Does P (p.onFail c) := by
  intro w
  have h := hp w
  unfold Prog.onFail
  generalize p w = r at h
  obtain ⟨r | a, w'⟩ := r
  · exact h.trans (hc w')
  · exact h

lemma Does.ite {c : Prop} [Decidable c] {q : Prog World ε α} (hp : c → Does P p)
    (hq : ¬ c → Does P q) : Does P (if c then p else q) := by
  split_ifs with h
  · exact hp h
  · exact hq h

lemma Does.mapList {f : α → Prog World ε β} {as : List α} (hf : ∀ a ∈ as, Does P (f a)) :
    Does P (Prog.mapList f as) := by
  induction as with
  | nil => exact does_pure _
  | cons a as ih =>
    refine (hf a (by simp)).bind fun b => ?_
    exact (ih fun x hx => hf x (List.mem_cons_of_mem _ hx)).bind fun _ => does_pure _

lemma Does.mono (hp : Does P p) (h : ∀ a, P a → P' a) : Does P' p := fun w => (hp w).mono h

lemma does_access {a : World → Action} {r : World → α} (hg : ∀ w : World, w.Genuine (a w))
    (hP : ∀ w : World, P (a w)) : Does P (access a r : Prog World ε α) :=
  fun w => (steps_interfere P w).tail (.own _ _ (hg _) (hP _))

lemma does_load {f : Field} {l : Addr} {n : ℕ} (hP : ∀ v, P (.load f l n v)) :
    Does P (load f l n : Prog World ε ℕ) := does_access (fun _ => rfl) fun _ => hP _

lemma does_store {f : Field} {l : Addr} {bs : List UInt8} (hP : P (.store f l bs)) :
    Does P (store f l bs : Prog World ε Unit) := does_access (fun _ => trivial) fun _ => hP

lemma does_compareExchange {f : Field} {l : Addr} {x d : ℕ}
    (hP : ∀ seen, P (.exchange f l x d seen)) :
    Does P (compareExchange f l x d : Prog World ε ℕ) := does_access (fun _ => rfl) fun _ => hP _

end Does

end World

end PipewireNative.Node
