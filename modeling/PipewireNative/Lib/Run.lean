import Mathlib.Algebra.Order.BigOperators.Group.List
import Mathlib.Algebra.Order.Ring.Nat
import Mathlib.Tactic.Common
import Mathlib.Data.List.Basic
import Mathlib.Logic.Function.Basic

/-!
Runs of a machine: acts that are done one after the other, each of them by a total function on
the states. What one act keeps, a run keeps; where acts are asked for something in the state they
happen in, what every such act keeps, a run of them keeps.
-/

namespace PipewireNative.Lib

variable {σ α : Type}

/-- The state after some acts. -/
def after (step : σ → α → σ) (acts : List α) (s : σ) : σ := acts.foldl step s

/-- What a turn of a call has come to, if the call is over. -/
def settled {ε β : Type} : Except ε (Option β) → Option (Except ε β)
  | .ok none => none
  | .ok (some b) => some (.ok b)
  | .error e => some (.error e)

/-- What the first act comes to that comes to something. -/
def outcome {β : Type} (out : σ → α → Option β) (step : σ → α → σ) : List α → σ → Option β
  | [], _ => none
  | a :: acts, s => (out s a).or (outcome out step acts (step s a))

/-- Every one of the acts is as `ok` asks in the state it happens in. -/
def Admits (step : σ → α → σ) (ok : σ → α → Prop) : List α → σ → Prop
  | [], _ => True
  | a :: acts, s => ok s a ∧ Admits step ok acts (step s a)

variable {step : σ → α → σ} {ok : σ → α → Prop} {I : σ → Prop} {acts : List α} {s : σ}

@[simp] lemma after_nil : after step [] s = s := rfl

@[simp] lemma after_cons (a : α) : after step (a :: acts) s = after step acts (step s a) := rfl

lemma after_append (acts acts' : List α) :
    after step (acts ++ acts') s = after step acts' (after step acts s) := List.foldl_append

instance decidableAdmits [∀ s a, Decidable (ok s a)] : ∀ acts s, Decidable (Admits step ok acts s)
  | [], _ => inferInstanceAs (Decidable True)
  | a :: acts, s =>
    have := decidableAdmits acts (step s a)
    inferInstanceAs (Decidable (ok s a ∧ Admits step ok acts (step s a)))

/-- What every act of a run keeps that is as `ok` asks, the run keeps. -/
theorem Admits.keeps_of_mem (hstep : ∀ s, ∀ a ∈ acts, ok s a → I s → I (step s a))
    (hacts : Admits step ok acts s) (h : I s) : I (after step acts s) := by
  induction acts generalizing s with
  | nil => exact h
  | cons a acts ih =>
    exact ih (fun s b hb => hstep s b (List.mem_cons_of_mem _ hb)) hacts.2
      (hstep s a List.mem_cons_self hacts.1 h)

/-- What every act keeps that is as `ok` asks, a run of such acts keeps. -/
theorem Admits.keeps (hstep : ∀ s a, ok s a → I s → I (step s a)) (hacts : Admits step ok acts s)
    (h : I s) : I (after step acts s) :=
  hacts.keeps_of_mem (fun s a _ => hstep s a) h

/-- What every act keeps, a run keeps. -/
theorem after_keeps (hstep : ∀ s a, I s → I (step s a)) (acts : List α) (h : I s) :
    I (after step acts s) := by
  induction acts generalizing s with
  | nil => exact h
  | cons a acts ih => exact ih (hstep s a h)

/-- Parties that work side by side. Where a step of one leaves it less to do and none of the others
more, they are done when each had as many steps as it had to do. -/
theorem after_ends [DecidableEq α] {work : σ → α → ℕ} (hstep : ∀ s a, I s → I (step s a))
    (hself : ∀ s a, I s → work (step s a) a ≤ work s a - 1)
    (hother : ∀ s a b, I s → b ≠ a → work (step s a) b ≤ work s b)
    (h : I s) (hcount : ∀ a, work s a ≤ acts.count a) (a : α) : work (after step acts s) a = 0 := by
  induction acts generalizing s with
  | nil => exact Nat.le_zero.1 (by simpa using hcount a)
  | cons b acts ih =>
    refine ih (hstep s b h) ?_
    intro c
    have hc := hcount c
    by_cases hcb : c = b
    · subst hcb
      rw [List.count_cons_self] at hc
      have := hself s c h
      omega
    · rw [List.count_cons_of_ne (Ne.symm hcb)] at hc
      exact Nat.le_trans (hother s b c h hcb) hc

end PipewireNative.Lib
