import PipewireNative.Pod.Safe
import PipewireNative.Wire.Event

/-!
Decoding an event of a ClientNode does not panic, whatever its bytes are.
-/

namespace PipewireNative.Wire

open Lib Prog Pod
open Frame (FrameFds OwnedFd)

/-! ### Checks -/

instance : Panics Fault := ⟨.panic⟩

/-- A program that does not panic. -/
def Quiet {σ α : Type} (p : Prog σ Fault α) : Prop :=
  ∀ s, p.Ends s (fun _ _ => True) fun f _ => f ≠ .panic

namespace Quiet

variable {σ τ α β : Type}

lemma pure (a : α) : Quiet (Pure.pure a : Prog σ Fault α) := fun _ => trivial

lemma fail (kind : ErrorKind) (message : String) : Quiet (.fail (.io kind message) : Prog σ Fault α) :=
  fun _ h => nomatch h

lemma modify (f : σ → σ) : Quiet (.modify f : Prog σ Fault Unit) := fun _ => trivial

lemma ofExcept {r : Result α} {Q : α → Prop} (h : Calm r Q) : Quiet (.ofExcept r : Prog σ Fault α) :=
  fun _ => h.ends (fun _ _ => trivial) fun _ hf => hf

lemma bind {p : Prog σ Fault α} {f : α → Prog σ Fault β} (hp : Quiet p) (hf : ∀ a, Quiet (f a)) :
    Quiet (p >>= f) := by
  intro s
  rw [ends_bind]
  exact (hp s).mono (fun a s _ => hf a s) fun _ _ h => h

lemma ite {c : Prop} [Decidable c] {p q : Prog σ Fault α} (hp : Quiet p) (hq : Quiet q) :
    Quiet (if c then p else q) := fun s => ends_ite.2 ⟨fun _ => hp s, fun _ => hq s⟩

lemma failIf {c : Prop} [Decidable c] (kind : ErrorKind) (message : String) :
    Quiet (.failIf c (.io kind message) : Prog σ Fault Unit) :=
  fun _ => (ends_failIf _).2 ⟨fun _ h => (nomatch h), fun _ => trivial⟩

lemma zoom {view : τ → σ} {put : σ → τ → τ} {p : Prog σ Fault α} (hp : Quiet p) :
    Quiet (p.zoom view put) := fun t => ends_zoom.2 (hp (view t))

end Quiet

end PipewireNative.Wire
