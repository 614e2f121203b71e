import PipewireNative.Node.Memory

/-!
Typed access to the `pw_node_activation` record: the checked view over a mapped region and the
transitions of the status word.
-/

namespace PipewireNative.Node

open Lib Lib.Word World

inductive ActivationError where
  | null
  | undersized (actual required : ℕ)
  | misaligned (address required : ℕ)
  | unsupportedVersion (version : ℕ)
  | unknownStatus (value : ℕ)
  | invalidTransition (expected actual : ActivationStatus)
  | invalidPending (pending : ℤ)
  deriving DecidableEq, Repr

def activationStatus : ℕ → Except ActivationError ActivationStatus
  | 0 => .ok .notTriggered
  | 1 => .ok .triggered
  | 2 => .ok .awake
  | 3 => .ok .finished
  | 4 => .ok .inactive
  | value => .error (.unknownStatus value)

lemma activationStatus_ok {v : ℕ} {s : ActivationStatus} :
    activationStatus v = .ok s ↔ v = s.code := by
  unfold activationStatus
  split <;> cases s <;> simp_all [ActivationStatus.code]

lemma activationStatus_isOk {v : ℕ} : (∃ s, activationStatus v = .ok s) ↔ v ≤ 4 := by
  constructor
  · rintro ⟨s, hs⟩
    rw [activationStatus_ok.1 hs]
    cases s <;> simp [ActivationStatus.code]
  · intro h
    obtain rfl | rfl | rfl | rfl | rfl : v = 0 ∨ v = 1 ∨ v = 2 ∨ v = 3 ∨ v = 4 := by omega
    all_goals exact ⟨_, rfl⟩

/-- Result of decrementing a peer's pending dependency count. -/
inductive TriggerOutcome where
  | waiting (remaining : ℤ)
  | triggered
  deriving DecidableEq, Repr

/-- ABI-checked view over a `pw_node_activation` region. -/
structure ActivationView where
  region : MemoryMapping
  fits : Abi.size ≤ region.len
  aligned : region.mapped.ptr % Abi.align = 0

namespace ActivationView

def fromRawParts (m : MemoryMapping) : Prog World ActivationError ActivationView :=
  if m.mapped.ptr = 0 then .fail .null
  else if hsize : Abi.size ≤ m.len then
    if halign : m.mapped.ptr % Abi.align = 0 then do
      let version ← load .serverVersion (m.at_ Abi.serverVersion) 4
      .failIf (version ≠ activationVersion) (.unsupportedVersion version)
      pure ⟨m, hsize, halign⟩
    else .fail (.misaligned m.mapped.ptr Abi.align)
  else .fail (.undersized m.len Abi.size)

variable (v : ActivationView)

def at_ (field : ℕ) : Addr := v.region.at_ field

/-- Publishes activation ABI v1 support without changing server-owned bytes. -/
def initializeClientV1 : Prog World ActivationError Unit :=
  storeWord .clientVersion (v.at_ Abi.clientVersion) 4 activationVersion

def status : Prog World ActivationError ActivationStatus := do
  let value ← load .status (v.at_ Abi.status) 4
  .ofExcept (activationStatus value)

/-- Moves the status word, which must be `source`, to `target`. -/
def transition (source target : ActivationStatus) : Prog World ActivationError Unit := do
  let seen ← compareExchange .status (v.at_ Abi.status) source.code target.code
  if seen = source.code then pure ()
  else do
    let actual ← .ofExcept (activationStatus seen)
    .fail (.invalidTransition source actual)

/-- Makes a ClientNode v6 activation schedulable (`INACTIVE -> FINISHED`). -/
def markReady : Prog World ActivationError Unit := v.transition .inactive .finished

def deactivate : Prog World ActivationError ActivationStatus := do
  let seen ← swap .status (v.at_ Abi.status) ActivationStatus.inactive.code
  .ofExcept (activationStatus seen)

def claimCycle (nowNs : ℕ) : Prog World ActivationError Unit := do
  v.transition .triggered .awake
  storeWord .awakeTime (v.at_ Abi.awakeTime) 8 nowNs

/-- Publishes the process result and finish timestamp, then completes the cycle. -/
def publishResultAndFinish (processStatus : ℤ) (nowNs : ℕ) : Prog World ActivationError Unit := do
  storeWord .processResult (v.at_ Abi.state0Status) 4 (ofI32 processStatus)
  storeWord .finishTime (v.at_ Abi.finishTime) 8 nowNs
  v.transition .awake .finished

/-- The turns of the decrement: compare and exchange until the count seen last is still there. -/
def decrementLoop (nowNs : ℕ) : ℕ → ℤ → Prog World ActivationError TriggerOutcome
  | 0, current => .fail (.invalidPending current)
  | fuel + 1, current => do
    .failIf (current ≤ 0) (.invalidPending current)
    let seen ← compareExchange .pending (v.at_ Abi.state0Pending) (ofI32 current)
      (ofI32 (current - 1))
    if seen = ofI32 current then
      if 1 < current then pure (.waiting (current - 1))
      else do
        v.transition .notTriggered .triggered
        storeWord .signalTime (v.at_ Abi.signalTime) 8 nowNs
        pure .triggered
    else decrementLoop nowNs fuel (asI32 seen)

/-- Decrements peer pending and triggers it when the count reaches zero. A failed exchange saw
the server act just before it, so there is at most one for each entry of the script: the turns
given are enough. -/
def decrementPendingAndTrigger (nowNs : ℕ) : Prog World ActivationError TriggerOutcome := do
  let turns ← .gets fun w => w.script.length + 1
  let current ← load .pending (v.at_ Abi.state0Pending) 4
  v.decrementLoop nowNs turns (asI32 current)

end ActivationView

end PipewireNative.Node
