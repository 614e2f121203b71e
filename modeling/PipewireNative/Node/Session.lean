import PipewireNative.Node.Owner

/-!
The public operations of the session, `apply` and `on_wake_with_finish`, and runs: commands and
wakes in any order, the server free to act between them and before every access they make.
-/

namespace PipewireNative.Node

open Lib World

namespace Owner

/-! ### Commands -/

/-- The clearing that `ClearFormat` and `Suspend` share. -/
def clearFormat : Owner Unit := do
  stop
  edit fun s => { s with output := none, ioDescriptor := none, bufferDescriptor := none,
                         format := none }

def setFormat (k : Kernel) (value : NegotiatedAudioFormat) : Owner ApplyOutcome := do
  let s ← session
  let replacement := s.format.any fun current => decide (current ≠ value)
  edit fun s => { s with format := some value }
  doIf replacement do
    stop
    edit fun s => { s with bufferDescriptor := none, ioDescriptor := none, output := none }
  bindOutput k

/-- Whether replacement buffers, validated with the format and the IO there are, wait for
memory. -/
def buffersPending (k : Kernel) (value : BufferSetDescriptor) : Owner Bool := do
  let s ← session
  match s.format, s.ioDescriptor with
  | some format, some io => do
    let candidate ← outputCandidate k format value io
    pure candidate.isNone
  | _, _ => pure false

def useBuffers (k : Kernel) (value : BufferSetDescriptor) : Owner ApplyOutcome := do
  let s ← session
  if s.bufferDescriptor.any fun current => decide (current ≠ value) then do
    let pending ← buffersPending k value
    stop
    edit fun s => { s with output := none, ioDescriptor := none, bufferDescriptor := some value }
    pure (if pending then .pendingMemory else .applied)
  else do
    edit fun s => { s with bufferDescriptor := some value }
    bindOutput k

def setPortIo (k : Kernel) (value : PortIoDescriptor) : Owner ApplyOutcome := do
  let s ← session
  match s.format, s.bufferDescriptor with
  | some format, some buffers => do
    match ← outputCandidate k format buffers value with
    | some candidate => do
      stop
      edit fun s => { s with ioDescriptor := some value, output := some candidate }
      pure .applied
    | none => do
      stop
      edit fun s => { s with ioDescriptor := some value, output := none }
      pure .pendingMemory
  | _, _ => do
    edit fun s => { s with ioDescriptor := some value }
    pure .applied

def setPeerActivation (k : Kernel) (value : PeerActivationDescriptor) : Owner ApplyOutcome := do
  let s ← session
  if value.node ∉ s.pendingPeers ∧ value.node ∉ s.peers ∧
      maxSessionPeers ≤ s.pendingPeers.size + s.peers.size then
    raise (.tooManyDescriptors "peer activations")
  else do
    edit fun s => { s with pendingPeers := s.pendingPeers.insert value.node value }
    bindPeer k value.node

def setActive (active : Bool) : Owner Unit := do
  edit fun s => { s with activeRequested := active }
  if active then ensureRunning else stop

def setNodeCommand (command : NodeCommandState) : Owner Unit := do
  edit fun s => { s with command := command }
  match command with
  | .start => ensureRunning
  | .pause => stop
  | .suspend => clearFormat

/-- The branches of `apply`. -/
def dispatch (k : Kernel) : SessionCommand → Owner ApplyOutcome
  | .replaceTransport value => do
    edit fun s => { s with pendingTransport := some value }
    bindTransport k
  | .setFormat value => setFormat k value
  | .clearFormat => do
    clearFormat
    pure .applied
  | .useBuffers value => useBuffers k value
  | .clearBuffers => do
    stop
    edit fun s => { s with output := none, ioDescriptor := none, bufferDescriptor := none }
    pure .applied
  | .setPortIo value => setPortIo k value
  | .clearPortIo => do
    stop
    edit fun s => { s with output := none, ioDescriptor := none }
    pure .applied
  | .setPeerActivation value => setPeerActivation k value
  | .removePeerActivation node => do
    edit fun s => { s with pendingPeers := s.pendingPeers.erase node, peers := s.peers.erase node }
    pure .applied
  | .memoryAvailable lease => do
    edit fun s => { s with availableMemory := s.availableMemory.announce lease }
    retryPending k
  | .removeMemory key => do
    edit fun s => { s with availableMemory := s.availableMemory.retire key }
    removeMemory key
    pure .applied
  | .memoryDisconnected => do
    disconnect
    pure .applied
  | .setActive active => do
    setActive active
    pure .applied
  | .setNodeCommand command => do
    setNodeCommand command
    pure .applied
  | .disconnect => do
    disconnect
    pure .applied

/-- The restart at the end of a command. -/
def restart : Owner Unit := do
  edit (·.refreshState)
  let s ← session
  doIf (s.wanted && s.isReady) ensureRunning

def apply (k : Kernel) (command : SessionCommand) : Owner ApplyOutcome := do
  let s ← session
  match s.state with
  | .disconnected =>
    if command = .disconnect then pure .alreadyDisconnected else raise .disconnected
  | .cycleClaimed => raise (.invalidTransition "configuration during callback")
  | _ => do
    let outcome ← dispatch k command
    restart
    pure outcome

/-! ### Wakes -/

/-- One runtime wake: the generation it is tagged with, its clock, the finish clock (`none` is
one that panics) and the callback. -/
structure Wake where
  generation : ℕ
  awakeNs : ℕ
  finishTime : Option ℕ
  callback : OutputProcess

/-- What follows a cycle that was finished. -/
def finishCycle (k : Kernel) (drained : ℕ)
    (result : Except SessionError (Option PublishedOutput)) (finishNs : ℕ) : Owner WakeOutcome := do
  let s ← session
  match result with
  | .ok published => do
    match ← outside (s.peers.triggerAll k finishNs).attempt with
    | .ok _ => do
      edit fun s => { s with state := .running }
      pure (.processed drained (drained - 1) published.isSome)
    | .error e => do
      fail
      raise e
  | .error e => do
    doIf (decide (e = .finishClockPanicked)) do
      let output ← unwrap s.output
      let _ ← outside output.abortPublished.attempt
      pure ()
    fail
    raise e

/-- Runs the one cycle a drained wake can claim. -/
def runCycle (k : Kernel) (wake : Wake) (drained : ℕ) : Owner WakeOutcome := do
  let s ← session
  if s.state ≠ .running then pure (.notRunning drained)
  else do
    edit fun s => { s with state := .cycleClaimed }
    let transport ← unwrap s.transport
    let output ← unwrap s.output
    match ← outside (transport.claimAndFinish wake.awakeNs wake.finishTime
        (output.process wake.callback)).attempt with
    | .error e => do
      fail
      raise e
    | .ok .notClaimed => do
      edit fun s => { s with state := .running }
      pure (.notClaimed drained (drained - 1))
    | .ok (.finished result finishNs) => finishCycle k drained result finishNs

/-- Processes a wake with a finish clock sampled after callback completion. -/
def onWakeWithFinish (k : Kernel) (wake : Wake) : Owner WakeOutcome := do
  let s ← session
  match s.transportGeneration with
  | none => raise (.notReady "transport")
  | some expected =>
    if wake.generation ≠ expected then pure (.stale expected wake.generation)
    else do
      let transport ← unwrap s.transport
      match ← outside (transport.drain k).attempt with
      | .ok drained => runCycle k wake drained
      | .error (.signal e) => if e.isWouldBlock then pure .noWake else raise (.signal e)
      | .error e => raise e

end Owner

/-! ### Runs -/

/-- A public operation of the session. -/
inductive Op where
  | command (c : SessionCommand)
  | wake (w : Owner.Wake)

inductive Outcome where
  | applied (o : ApplyOutcome)
  | woken (o : WakeOutcome)

def Op.run (k : Kernel) : Op → Owner Outcome
  | .command c => do
    let o ← Owner.apply k c
    pure (.applied o)
  | .wake w => do
    let o ← Owner.onWakeWithFinish k w
    pure (.woken o)

/-- One move of a run: an act of the server between operations, or an operation, the kernel
answering `k` and the server acting by `script` while it runs. -/
inductive Move where
  | server (a : ServerAct)
  | op (o : Op) (k : Kernel) (script : List (List ServerAct))

namespace Sys

def exec (s : Sys) (o : Op) (k : Kernel) (script : List (List ServerAct)) :
    Except Unwind Outcome × Sys :=
  o.run k { s with world := { s.world with script := script } }

def move (s : Sys) : Move → Sys
  | .server a => { s with world := s.world.serve a }
  | .op o k script => (s.exec o k script).2

def run (s : Sys) (moves : List Move) : Sys := moves.foldl move s

def init (mem : Shm) (counter : Fd → ℕ) : Sys := ⟨.new, ⟨mem, counter, [], []⟩⟩

@[simp] lemma run_nil (s : Sys) : s.run [] = s := rfl
@[simp] lemma run_cons (s : Sys) (m : Move) (ms : List Move) : s.run (m :: ms) = (s.move m).run ms :=
  rfl
lemma run_append (s : Sys) (ms ms' : List Move) : s.run (ms ++ ms') = (s.run ms).run ms' :=
  List.foldl_append

/-- **The rule of runs.** What every move keeps, every run keeps. -/
theorem run_keeps {I : Sys → Prop} (step : ∀ s m, I s → I (s.move m)) :
    ∀ (ms : List Move) (s : Sys), I s → I (s.run ms) := by
  intro ms
  induction ms with
  | nil => exact fun _ h => h
  | cons m ms ih => exact fun s h => ih (s.move m) (step s m h)

/-- Every move of the run meets `C` in the system it is made in. -/
inductive Along (C : Sys → Move → Prop) : Sys → List Move → Prop
  | done (s : Sys) : Along C s []
  | next {s : Sys} {m : Move} {ms : List Move} : C s m → Along C (s.move m) ms → Along C s (m :: ms)

/-- **The rule of runs under a condition.** What every move that meets `C` keeps holds in every
system along the run. -/
theorem Along.keeps {C : Sys → Move → Prop} {I : Sys → Prop}
    (step : ∀ s m, I s → C s m → I (s.move m)) {s : Sys} {ms : List Move} (h : Along C s ms)
    (hs : I s) : ∀ ms', ms' <+: ms → I (s.run ms') := by
  induction h with
  | done s =>
    intro ms' hms
    rw [List.prefix_nil.1 hms]
    exact hs
  | next hm _ ih =>
    intro ms' hms
    rcases List.prefix_cons_iff.1 hms with rfl | ⟨ms'', rfl, hms''⟩
    · exact hs
    · exact ih (step _ _ hs hm) ms'' hms''

end Sys

end PipewireNative.Node
