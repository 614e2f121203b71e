import PipewireNative.Node.Binding
import PipewireNative.Node.Session

/-!
What a command can do, said once: every way through `apply` either tears the session down or is a
sequence of a few kinds of edits of the session and of the world. Invariants are proved for each
kind of edit.
-/

namespace PipewireNative.Node

open Lib World

namespace ClientNodeSession

/-- The interval of the session's own activation record. -/
def own (s : ClientNodeSession) : Option MemoryInterval := s.transport.map (·.interval)

/-- Only descriptors and the generation counter have changed, and a format that is in use has not
been lost. -/
structure Kept (s s' : ClientNodeSession) : Prop where
  memory : s'.availableMemory = s.availableMemory
  next : s.nextGeneration ≤ s'.nextGeneration
  transport : s'.transport = s.transport
  output : s'.output = s.output
  peers : s'.peers = s.peers
  state : s'.state = s.state
  format : s.format.isSome → s.state = .running → s'.format.isSome
  pending : ∀ (n : NodeId) (d : PeerActivationDescriptor), s'.pendingPeers[n]? = some d →
    s.pendingPeers[n]? = some d ∨ d.node = n

lemma kept_of_eq {s s' : ClientNodeSession} (memory : s'.availableMemory = s.availableMemory)
    (next : s.nextGeneration ≤ s'.nextGeneration) (transport : s'.transport = s.transport)
    (output : s'.output = s.output) (peers : s'.peers = s.peers) (state : s'.state = s.state)
    (format : s'.format = s.format) (pending : s'.pendingPeers = s.pendingPeers) : s.Kept s' :=
  ⟨memory, next, transport, output, peers, state, fun h _ => by rw [format]; exact h,
    fun n d h => Or.inl (by rw [← pending]; exact h)⟩

def intend (s : ClientNodeSession) (active : Bool) (command : NodeCommandState) :
    ClientNodeSession :=
  { s with activeRequested := active, command := command }

lemma stopped_state_ne (s : ClientNodeSession) : s.stopped.state ≠ .running := by
  unfold stopped
  split_ifs with h hr
  · simp
  · simp
  · intro hs
    rw [hs] at h
    simp at h

end ClientNodeSession

namespace World

/-- A session's own record has been taken out of scheduling, if it has one. -/
def Halted (own : Option MemoryInterval) (w w' : World) : Prop :=
  match own with
  | none => w' = w
  | some r => Deactivated r w w'

/-- The record in `r` is finished, as it was or moved there. -/
def Started (r : MemoryInterval) (w w' : World) : Prop :=
  (Steps Reads w w' ∧ w'.mem.word (statusOf r) 4 = ActivationStatus.finished.code) ∨
    Moved r .inactive .finished w w'

lemma Halted.steps {own : Option MemoryInterval} {w w' : World} (h : Halted own w w') :
    Steps (Calm fun r => own = some r) w w' := by
  cases own with
  | none => rw [show w' = w from h]
  | some r => exact Steps.mono (Deactivated.steps h) fun a ha => ha.mono fun _ e => by rw [e]

end World

namespace Sys

inductive Edit : Sys → Sys → Prop
  /-- Descriptors are taken in or given up, or a generation number is used up. -/
  | book (s : Sys) (n : ClientNodeSession) : s.session.Kept n →
      n.activeRequested = s.session.activeRequested → n.command = s.session.command →
      Edit s ⟨n, s.world⟩
  /-- The own record is looked at, or taken out of scheduling while the session stays. -/
  | calm (s : Sys) (w : World) : Steps (Calm fun r => s.session.own = some r) s.world w →
      Edit s ⟨s.session, w⟩
  /-- A transport candidate is mapped, and dropped again. -/
  | probe (s : Sys) (r : MemoryInterval) (w : World) : IsRecord r → Probed r s.world w →
      Edit s ⟨s.session, w⟩
  /-- The server's part of the own record made an access fail. -/
  | refused (s : Sys) (n : ClientNodeSession) (r : MemoryInterval) (w₁ w : World) :
      s.session.Kept n → s.session.own = some r → Refused r s.world w₁ →
      Steps (Calm IsRecord) w₁ w → Edit s ⟨n, w⟩
  /-- Intents change, and not away from scheduling. -/
  | intent (s : Sys) (active : Bool) (command : NodeCommandState) :
      (s.session.wanted → (s.session.intend active command).wanted) →
      Edit s ⟨s.session.intend active command, s.world⟩
  /-- The session stops. -/
  | halt (s : Sys) (active : Bool) (command : NodeCommandState) (w : World) :
      Halted s.session.own s.world w →
      Edit s ⟨(s.session.intend active command).stopped, w⟩
  /-- A transport candidate is mapped, the session stops, and the candidate is installed. -/
  | replace (s : Sys) (t : TransportGeneration) (w₁ w₂ w₃ : World) :
      Probed t.interval s.world w₁ → Halted s.session.own w₁ w₂ →
      Steps (Calm fun r => s.session.own = some r) w₂ w₃ → t.id = s.session.nextGeneration →
      (∀ i ∈ s.session.outputIntervals ++ s.session.peers.intervals, t.interval.Disjoint i) →
      s.session.availableMemory.Grants t.activationKey →
      Edit s ⟨{ s.session.stopped with
          transport := some t, nextGeneration := s.session.nextGeneration + 1 },
        w₃.perform (.install t.id t.interval (w₃.mem.word (statusOf t.interval) 4))⟩
  /-- The transport is given up. -/
  | release (s : Sys) (w : World) : s.session.state ≠ .running →
      Steps (Calm fun r => s.session.own = some r) s.world w →
      Edit s ⟨{ s.session with transport := none }, w.perform .release⟩
  | setOutput (s : Sys) (g : OutputGeneration) : s.session.state ≠ .running → g.Sound →
      (∀ i ∈ g.intervals, ∀ j ∈ s.session.transportIntervals ++ s.session.peers.intervals,
        i.Disjoint j) →
      (∀ key ∈ g.keys, s.session.availableMemory.Grants key) → g.id < s.session.nextGeneration →
      Edit s ⟨{ s.session with output := some g }, s.world⟩
  | clearOutput (s : Sys) : s.session.state ≠ .running →
      Edit s ⟨{ s.session with output := none }, s.world⟩
  | insertPeer (s : Sys) (node : NodeId) (d : PeerActivationDescriptor) (p : PeerActivation) :
      s.session.pendingPeers[node]? = some d → p.node = d.node →
      (∀ i ∈ s.session.transportIntervals ++ s.session.outputIntervals ++
        s.session.peers.intervalsExcept node, p.interval.Disjoint i) →
      s.session.availableMemory.Grants p.key → p.generation < s.session.nextGeneration →
      Edit s ⟨{ s.session with peers := s.session.peers.insert p.node p }, s.world⟩
  | removePeers (s : Sys) (peers : PeerSet) :
      (∀ (node : NodeId) (p : PeerActivation), peers[node]? = some p →
        s.session.peers[node]? = some p) →
      Edit s ⟨{ s.session with peers := peers }, s.world⟩
  /-- The session starts. -/
  | start (s : Sys) (t : TransportGeneration) (w : World) : s.session.wanted →
      s.session.isReady → s.session.transport = some t → Started t.interval s.world w →
      Edit s ⟨{ s.session with state := .running }, w⟩
  /-- A start that lacks something. -/
  | unready (s : Sys) : s.session.wanted → s.session.isReady = false →
      Edit s ⟨{ s.session with state := .configuring }, s.world⟩
  | refresh (s : Sys) : Edit s ⟨s.session.refreshState, s.world⟩

/-- Any number of edits. -/
abbrev Edits : Sys → Sys → Prop := Relation.ReflTransGen Edit

/-- The session has been torn down, its own record taken out of scheduling if that was possible. -/
def Closed (s s' : Sys) : Prop :=
  ∃ w, Steps (Calm fun r => s.session.own = some r) s.world w ∧
    s' = ⟨s.session.disconnected, w.perform .release⟩

end Sys

open Sys

namespace Owner

variable {α β : Type}

/-- Whatever way `p` ends, it has done edits, and no `unwrap` has failed. -/
def Refines (p : Owner α) (s : Sys) : Prop :=
  p.Ends s (fun _ s' => Edits s s') (fun e s' => e ≠ .panic ∧ Edits s s')

end Owner

end PipewireNative.Node
