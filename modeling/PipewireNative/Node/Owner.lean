import PipewireNative.Node.Output
import PipewireNative.Node.Peer

/-!
Runtime-independent single-owner ClientNode session state machine: its commands, its wakes, and
the helpers both go through. A failed `unwrap` is the outcome `Unwind.panic`.
-/

namespace PipewireNative.Node

open Lib Prog World

/-- `MAX_SESSION_PEERS`. -/
def maxSessionPeers : ℕ := 64

/-- Node command intent retained independently from graph-active intent. -/
inductive NodeCommandState where
  | pause | start | suspend
  deriving DecidableEq, Repr

inductive SessionState where
  | configuring | ready | running | cycleClaimed | stopped | failed | disconnected
  deriving DecidableEq, Repr

/-- Owned command seam between canonical protocol conversion and the session owner. -/
inductive SessionCommand where
  | replaceTransport (value : TransportDescriptor)
  | setFormat (value : NegotiatedAudioFormat)
  | clearFormat
  | useBuffers (value : BufferSetDescriptor)
  | clearBuffers
  | setPortIo (value : PortIoDescriptor)
  | clearPortIo
  | setPeerActivation (value : PeerActivationDescriptor)
  | removePeerActivation (node : NodeId)
  | memoryAvailable (lease : MemoryLease)
  | removeMemory (key : MemoryKey)
  | memoryDisconnected
  | setActive (active : Bool)
  | setNodeCommand (command : NodeCommandState)
  | disconnect
  deriving DecidableEq, Repr

inductive ApplyOutcome where
  | applied | pendingMemory | alreadyDisconnected
  deriving DecidableEq, Repr

/-- Result of consuming one runtime wake hint. -/
inductive WakeOutcome where
  | noWake
  | stale (expected received : ℕ)
  | notRunning (drained : ℕ)
  | notClaimed (drained missed : ℕ)
  | processed (drained missed : ℕ) (produced : Bool)
  deriving DecidableEq, Repr

/-- Coherent owner of one node's mappings, descriptors, state, and cycle authority. -/
structure ClientNodeSession where
  availableMemory : OrderedMemory
  nextGeneration : ℕ
  transport : Option TransportGeneration
  pendingTransport : Option TransportDescriptor
  format : Option NegotiatedAudioFormat
  bufferDescriptor : Option BufferSetDescriptor
  ioDescriptor : Option PortIoDescriptor
  output : Option OutputGeneration
  peers : PeerSet
  pendingPeers : Std.ExtTreeMap NodeId PeerActivationDescriptor
  activeRequested : Bool
  command : NodeCommandState
  state : SessionState

namespace ClientNodeSession

def new : ClientNodeSession where
  availableMemory := fun _ => none
  nextGeneration := 1
  transport := none
  pendingTransport := none
  format := none
  bufferDescriptor := none
  ioDescriptor := none
  output := none
  peers := ∅
  pendingPeers := ∅
  activeRequested := false
  command := .pause
  state := .configuring

variable (s : ClientNodeSession)

def transportGeneration : Option ℕ := s.transport.map (·.id)

def isReady : Bool := s.transport.isSome && s.format.isSome && s.output.isSome

/-- Both intents ask for scheduling. -/
def wanted : Bool := s.activeRequested && decide (s.command = .start)

/-- The state of a session that is not scheduled. -/
def stopped : ClientNodeSession :=
  if s.state ≠ .disconnected ∧ s.state ≠ .failed then
    { s with state := if s.isReady then .stopped else .configuring }
  else s

def refreshState : ClientNodeSession :=
  match s.state with
  | .running | .cycleClaimed | .failed | .disconnected => s
  | _ => { s with state := if s.isReady then .ready else .configuring }

def disconnected : ClientNodeSession :=
  { s with
    pendingPeers := ∅, peers := ∅, output := none, ioDescriptor := none,
    bufferDescriptor := none, format := none, pendingTransport := none, transport := none,
    availableMemory := fun _ => none, state := .disconnected }

def transportIntervals : List MemoryInterval := s.transport.toList.map (·.interval)

def outputIntervals : List MemoryInterval := s.output.toList.flatMap (·.intervals)

end ClientNodeSession

/-- A session and the world it runs in. -/
structure Sys where
  session : ClientNodeSession
  world : World

/-- What the owner runs. -/
abbrev Owner := Prog Sys Unwind

namespace Owner

variable {α : Type}

/-- A part of the owner that leaves the session alone. -/
def outside (p : Prog World SessionError α) : Owner α :=
  (p.mapErr Unwind.error).zoom Sys.world fun w s => { s with world := w }

/-- A part that neither fails nor touches the session, such as a destructor. -/
def cleanup (p : Prog World Empty Unit) : Prog Sys Empty Unit :=
  p.zoom Sys.world fun w s => { s with world := w }

def session : Owner ClientNodeSession := .gets Sys.session

def edit (f : ClientNodeSession → ClientNodeSession) : Owner Unit :=
  .modify fun s => { s with session := f s.session }

def raise (e : SessionError) : Owner α := .fail (.error e)

/-- `if c { p }`. -/
def doIf (c : Bool) (p : Owner Unit) : Owner Unit := if c then p else pure ()

/-- `Option::unwrap`. -/
def unwrap : Option α → Owner α
  | some a => pure a
  | none => .fail .panic

def check (r : Except SessionError α) : Owner α := outside (.ofExcept r)

/-! ### Walking the owner -/

section Rules

variable {s : Sys} {Q : α → Sys → Prop} {E : Unwind → Sys → Prop}

@[simp] lemma ends_outside {p : Prog World SessionError α} : (outside p).Ends s Q E ↔
    p.Ends s.world (fun a w => Q a { s with world := w })
      (fun e w => E (.error e) { s with world := w }) := by
  unfold outside
  rw [ends_zoom, ends_mapErr]

@[simp] lemma ends_session {Q : ClientNodeSession → Sys → Prop} :
    session.Ends s Q E ↔ Q s.session s := Iff.rfl

@[simp] lemma ends_edit {f : ClientNodeSession → ClientNodeSession} {Q : Unit → Sys → Prop} :
    (edit f).Ends s Q E ↔ Q () { s with session := f s.session } := Iff.rfl

@[simp] lemma ends_raise {e : SessionError} : (raise e : Owner α).Ends s Q E ↔ E (.error e) s :=
  Iff.rfl

@[simp] lemma ends_check {r : Except SessionError α} : (check r).Ends s Q E ↔
    match r with | .ok a => Q a s | .error e => E (.error e) s := by
  unfold check
  rw [ends_outside, ends_ofExcept]
  cases r <;> rfl

@[simp] lemma ends_unwrap_some {a : α} : (unwrap (some a)).Ends s Q E ↔ Q a s := Iff.rfl

end Rules

/-! ### Helpers of the commands -/

def unresolved : Except MemoryError MemoryKey → Except SessionError Bool
  | .ok _ => .ok false
  | .error (.unknownMemory _) => .ok true
  | .error e => .error (.memory e)

/-- Whether one of the IDs, looked at in order, is not available. -/
def anyUnresolved (memory : OrderedMemory) : List MemoryId → Except SessionError Bool
  | [] => .ok false
  | id :: rest => do
    if ← unresolved (memory.resolve id) then .ok true else anyUnresolved memory rest

/-- No interval of the candidate may overlap one that exists. -/
def ensureDisjoint (candidate existing : List MemoryInterval) : Except SessionError Unit :=
  rejectIf (candidate.any fun left => existing.any left.overlaps)
    (.invalidTransition "overlapping generation mappings")

def allocateGeneration : Owner ℕ := do
  let s ← session
  if s.nextGeneration + 1 < usizeBound then do
    edit fun s => { s with nextGeneration := s.nextGeneration + 1 }
    pure s.nextGeneration
  else raise (.overflow "session generation")

def stop : Owner Unit := do
  let s ← session
  match s.transport with
  | none => pure ()
  | some transport => do
    let _ ← outside transport.deactivate
    pure ()
  edit (·.stopped)

def fail : Owner Unit := do
  let s ← session
  match s.transport with
  | none => pure ()
  | some transport => outside transport.drop
  edit fun s => { s with state := .failed }

/-- Assigning the transport field: the generation that was there is dropped. -/
def setTransport (candidate : Option TransportGeneration) : Owner Unit := do
  let s ← session
  match s.transport with
  | none => pure ()
  | some old => outside old.drop
  edit fun s => { s with transport := candidate }
  match candidate with
  | none => outside (note fun _ => .release)
  | some t => outside (note fun w => .install t.id t.interval (w.mem.word t.statusAt 4))

def disconnect : Owner Unit := do
  let _ ← stop.attempt
  setTransport none
  edit (·.disconnected)

def ensureRunning : Owner Unit := do
  let s ← session
  if s.wanted = false then pure ()
  else if s.isReady = false then edit fun s => { s with state := .configuring }
  else do
    let transport ← unwrap s.transport
    match ← outside transport.status with
    | .inactive => outside transport.markReady
    | .finished => pure ()
    | _ => raise (.invalidTransition "Start activation status")
    edit fun s => { s with state := .running }

/-! ### Binding -/

variable (k : Kernel)

def bindTransport : Owner ApplyOutcome := do
  let s ← session
  match s.pendingTransport with
  | none => pure .applied
  | some descriptor =>
    if ← check (unresolved (s.availableMemory.resolve descriptor.activation.memory)) then
      pure .pendingMemory
    else do
      edit fun s => { s with pendingTransport := none }
      let generation ← allocateGeneration
      let candidate ← outside (TransportGeneration.bind k generation descriptor s.availableMemory)
      -- a candidate that is not installed is dropped, and that deactivates it
      Prog.onFail (do
          check (ensureDisjoint [candidate.interval] (s.outputIntervals ++ s.peers.intervals))
          stop)
        (cleanup candidate.drop)
      setTransport (some candidate)
      pure .applied

def outputCandidate (format : NegotiatedAudioFormat) (buffers : BufferSetDescriptor)
    (io : PortIoDescriptor) : Owner (Option OutputGeneration) := do
  let s ← session
  if ← check (anyUnresolved s.availableMemory (bufferMemoryIds buffers ++ [io.region.memory])) then
    pure none
  else do
    let generation ← allocateGeneration
    let candidate ← outside
      (OutputGeneration.bind k generation format buffers io s.availableMemory)
    check (ensureDisjoint candidate.intervals (s.transportIntervals ++ s.peers.intervals))
    pure (some candidate)

def bindOutput : Owner ApplyOutcome := do
  let s ← session
  match s.format, s.bufferDescriptor, s.ioDescriptor with
  | some format, some buffers, some io => do
    match ← outputCandidate k format buffers io with
    | none => pure .pendingMemory
    | some candidate => do
      stop
      edit fun s => { s with output := some candidate }
      pure .applied
  | _, _, _ => pure .applied

def bindPeer (node : NodeId) : Owner ApplyOutcome := do
  let s ← session
  let descriptor ← unwrap s.pendingPeers[node]?
  if ← check (unresolved (s.availableMemory.resolve descriptor.activation.memory)) then
    pure .pendingMemory
  else do
    edit fun s => { s with pendingPeers := s.pendingPeers.erase node }
    let generation ← allocateGeneration
    let candidate ← outside (PeerActivation.bind k generation descriptor s.availableMemory)
    check (ensureDisjoint [candidate.interval]
      (s.transportIntervals ++ s.outputIntervals ++ s.peers.intervalsExcept node))
    edit fun s => { s with peers := s.peers.insert candidate.node candidate }
    pure .applied

/-- One retry, made when there is something to retry. -/
def retryWhen (c : Bool) (p : Owner ApplyOutcome) : Owner ApplyOutcome :=
  if c then p else pure .applied

def retryPending : Owner ApplyOutcome := do
  let s ← session
  let transport ← retryWhen s.pendingTransport.isSome (bindTransport k)
  let s ← session
  let output ← retryWhen (s.bufferDescriptor.isSome && s.ioDescriptor.isSome) (bindOutput k)
  let s ← session
  let peers ← Prog.mapList (bindPeer k) s.pendingPeers.keys
  pure (if ApplyOutcome.pendingMemory ∈ transport :: output :: peers then .pendingMemory
    else .applied)

def removeMemory (key : MemoryKey) : Owner Unit := do
  let s ← session
  doIf (s.transport.any fun t => decide (t.activationKey = key)) do
    stop
    setTransport none
  let s ← session
  doIf (s.output.any fun g => g.dependsOn key) do
    stop
    edit fun s => { s with output := none }
  edit fun s => { s with peers := s.peers.removeMemory key }

end Owner

end PipewireNative.Node
