import PipewireNative.Lib.Map
import PipewireNative.Node.Transport

/-!
Deterministic downstream activation generations, visited in node-ID order.
-/

namespace PipewireNative.Node

open Lib World

/-- One exact downstream activation generation. -/
structure PeerActivation where
  node : NodeId
  generation : ℕ
  signal : Fd
  key : MemoryKey
  mapping : MemoryMapping
  fits : Abi.size ≤ mapping.len
  aligned : 8 ∣ mapping.offset

namespace PeerActivation

def bind (k : Kernel) (generation : ℕ) (descriptor : PeerActivationDescriptor)
    (memory : OrderedMemory) : Prog World SessionError PeerActivation := do
  let key ← (Prog.ofExcept (memory.resolve descriptor.activation.memory)).mapErr .memory
  let mapping ← (Prog.ofExcept (memory.map (k.map (.peer descriptor.node)) key
    descriptor.activation.offset descriptor.activation.len)).mapErr .memory
  let view ← (ActivationView.fromRawParts mapping).mapErr .activation
  let signal ← (Prog.ofExcept (EventFd.fromOwnedFd k descriptor.signalFd)).mapErr .signal
  pure ⟨descriptor.node, generation, signal, key, view.region, view.fits, view.offset_dvd⟩

variable (p : PeerActivation)

def interval : MemoryInterval := p.mapping.interval

/-- Decrements the peer's pending count, and signals it once it is triggered. -/
def trigger (k : Kernel) (nowNs : ℕ) : Prog World SessionError TriggerOutcome := do
  let view ← (ActivationView.fromRawParts p.mapping).mapErr .activation
  let outcome ← (view.decrementPendingAndTrigger nowNs).mapErr .activation
  match outcome with
  | .triggered => do
    (EventFd.signal k p.signal 1).mapErr .signal
    pure outcome
  | .waiting _ => pure outcome

end PeerActivation

abbrev PeerSet := Std.ExtTreeMap NodeId PeerActivation

namespace PeerSet

def peerError (node : NodeId) : SessionError → SessionError
  | .activation source => .peerTrigger node source
  | .signal source => .peerSignal node source
  | other => other

/-- Triggers peers one after the other; the first error is kept and the rest still visited. -/
def triggerFrom (k : Kernel) (nowNs : ℕ) :
    Option SessionError → List (NodeId × PeerActivation) → Prog World SessionError Unit
  | first, [] => .ofExcept (match first with | none => .ok () | some e => .error e)
  | first, (node, peer) :: rest => do
    let result ← (peer.trigger k nowNs).attempt
    let first := first <|> match result with
      | .ok _ => none
      | .error e => some (peerError node e)
    triggerFrom k nowNs first rest

variable (peers : PeerSet)

def triggerAll (k : Kernel) (nowNs : ℕ) : Prog World SessionError Unit :=
  triggerFrom k nowNs none peers.toList

/-- Drops the peers of an exact memory key. -/
def removeMemory (key : MemoryKey) : PeerSet := peers.filter fun _ peer => decide (peer.key ≠ key)

def intervals : List MemoryInterval := peers.toList.map fun e => e.2.interval

def intervalsExcept (node : NodeId) : List MemoryInterval :=
  (peers.toList.filter fun e => decide (e.1 ≠ node)).map fun e => e.2.interval

lemma mem_intervals {i : MemoryInterval} :
    i ∈ peers.intervals ↔ ∃ (n : NodeId) (p : PeerActivation), peers[n]? = some p ∧ p.interval = i := by
  simp only [intervals, List.mem_map, Prod.exists, Std.ExtTreeMap.mem_toList_iff_getElem?_eq_some]

lemma mem_intervalsExcept {node : NodeId} {i : MemoryInterval} :
    i ∈ peers.intervalsExcept node ↔ ∃ (n : NodeId) (p : PeerActivation),
      peers[n]? = some p ∧ n ≠ node ∧ p.interval = i := by
  simp only [intervalsExcept, List.mem_map, List.mem_filter, Prod.exists,
    Std.ExtTreeMap.mem_toList_iff_getElem?_eq_some, decide_eq_true_eq, and_assoc]

end PeerSet

end PipewireNative.Node
