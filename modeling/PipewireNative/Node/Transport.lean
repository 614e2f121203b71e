import PipewireNative.Node.Activation
import PipewireNative.Node.Cycle

/-!
The error vocabulary of the session and its transport generations: one exact activation mapping
and both transport eventfds, and the claim of one cycle.
-/

namespace PipewireNative.Node

open Lib World

inductive SessionError where
  | overflow (what : String)
  | tooManyDescriptors (what : String)
  | memory (e : MemoryError)
  | activation (e : ActivationError)
  | port (e : PortError)
  | cycle (e : CycleError)
  | signal (e : IoError)
  | peerTrigger (peer : NodeId) (source : ActivationError)
  | peerSignal (peer : NodeId) (source : IoError)
  | notReady (what : String)
  | invalidTransition (what : String)
  | callback (message : String)
  | callbackPanicked
  | finishClockPanicked
  | disconnected
  deriving DecidableEq, Repr

/-- How code that may panic leaves early. -/
inductive Unwind where
  | error (e : SessionError)
  | panic
  deriving DecidableEq, Repr

lemma ActivationView.offset_dvd (v : ActivationView) : 8 ∣ v.region.offset := by
  have h₁ := v.aligned
  have h₂ := v.region.ptr_mod
  unfold Abi.align at h₁
  omega

/-- Owns one exact activation mapping and both transport eventfds. -/
structure TransportGeneration where
  id : ℕ
  trigger : Fd
  completion : Fd
  activationKey : MemoryKey
  activation : MemoryMapping
  fits : Abi.size ≤ activation.len
  aligned : 8 ∣ activation.offset

inductive ClaimCompletion where
  | notClaimed
  | finished (result : Except SessionError (Option PublishedOutput)) (finishNs : ℕ)

namespace TransportGeneration

/-- Builds and initializes a candidate before it can replace a live transport. -/
def bind (k : Kernel) (id : ℕ) (descriptor : TransportDescriptor) (memory : OrderedMemory) :
    Prog World SessionError TransportGeneration := do
  let key ← (Prog.ofExcept (memory.resolve descriptor.activation.memory)).mapErr .memory
  let mapping ← (Prog.ofExcept (memory.map (k.map .activation) key descriptor.activation.offset
    descriptor.activation.len)).mapErr .memory
  let view ← (ActivationView.fromRawParts mapping).mapErr .activation
  note fun _ => .candidate view.region.interval
  view.initializeClientV1.mapErr .activation
  let trigger ← (Prog.ofExcept (EventFd.fromOwnedFd k descriptor.triggerFd)).mapErr .signal
  let completion ← (Prog.ofExcept (EventFd.fromOwnedFd k descriptor.completionFd)).mapErr .signal
  pure ⟨id, trigger, completion, key, view.region, view.fits, view.offset_dvd⟩

variable (t : TransportGeneration)

def interval : MemoryInterval := t.activation.interval

def statusAt : Addr := t.activation.at_ Abi.status

def drain (k : Kernel) : Prog World SessionError ℕ := (EventFd.drain k t.trigger).mapErr .signal

def activationView : Prog World SessionError ActivationView :=
  (ActivationView.fromRawParts t.activation).mapErr .activation

def status : Prog World SessionError ActivationStatus := do
  let view ← t.activationView
  view.status.mapErr .activation

/-- Makes the v6 activation schedulable. -/
def markReady : Prog World SessionError Unit := do
  let view ← t.activationView
  view.markReady.mapErr .activation

/-- Leaves graph scheduling between callbacks. -/
def deactivate : Prog World SessionError ActivationStatus := do
  let view ← t.activationView
  view.deactivate.mapErr .activation

/-- Dropping a generation deactivates it and ignores how that ends. -/
def drop {ε : Type} : Prog World ε Unit := do
  let _ ← t.deactivate.attempt
  pure ()

/-- What a cycle reports and its status word: a callback that fails or panics reads as an I/O
error. -/
def cycleResult :
    Except Unwind (Option PublishedOutput × ℤ) → Except SessionError (Option PublishedOutput) × ℤ
  | .ok (value, status) => (.ok value, status)
  | .error (.error e) => (.error e, -eio)
  | .error .panic => (.error .callbackPanicked, -eio)

/-- A finish clock that panics overrides what the cycle reports; its time is then the awake one. -/
def finishResult (awakeNs : ℕ) (finishTime : Option ℕ)
    (result : Except SessionError (Option PublishedOutput)) (status : ℤ) :
    Except SessionError (Option PublishedOutput) × ℤ × ℕ :=
  match finishTime with
  | some finishNs => (result, status, finishNs)
  | none => (.error .finishClockPanicked, -eio, awakeNs)

/-- Runs `process` in a cycle that has been claimed and finishes it. -/
def finishClaimed (view : ActivationView) (awakeNs : ℕ) (finishTime : Option ℕ)
    (process : Prog World Unwind (Option PublishedOutput × ℤ)) :
    Prog World SessionError ClaimCompletion := do
  let processed ← process.attempt
  let (result, status) := cycleResult processed
  let (result, status, finishNs) := finishResult awakeNs finishTime result status
  (view.publishResultAndFinish status finishNs).mapErr .activation
  pure (.finished result finishNs)

/-- Claims one cycle, runs `process` in it and finishes it. A finish clock that panics is `none`. -/
def claimAndFinish (awakeNs : ℕ) (finishTime : Option ℕ)
    (process : Prog World Unwind (Option PublishedOutput × ℤ)) :
    Prog World SessionError ClaimCompletion := do
  let view ← t.activationView
  match ← (view.claimCycle awakeNs).attempt with
  | .error (.invalidTransition .triggered _) => pure .notClaimed
  | .error e => .fail (.activation e)
  | .ok _ => finishClaimed view awakeNs finishTime process

end TransportGeneration

end PipewireNative.Node
