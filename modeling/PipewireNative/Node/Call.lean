import PipewireNative.Node.Peer

/-!
A call of `PeerActivation::trigger`, cut into its accesses of the shared memory. What is left to do
of a call at each place is a program, and the program of a place is the next access and then the
program of the place after it.
-/

namespace PipewireNative.Node

open Lib Lib.Word Prog World

/-- Where a call is: before its load, at an exchange with the count it saw last, at what follows the
last exchange, or at its end. A call that triggered has ended with what the eventfd said. -/
inductive Place where
  | load
  | exchange (current : ℤ)
  | transition
  | store
  | signal
  | waiting (remaining : ℤ)
  | triggered (refused : Option IoError)
  | failed (e : ActivationError)
  deriving DecidableEq

namespace Place

/-- The call has not taken one off the count yet. -/
def undecided : Place → Bool
  | .load | .exchange _ => true
  | _ => false

/-- The call has taken off the last one. -/
def last : Place → Bool
  | .transition | .store | .signal | .triggered _ => true
  | _ => false

end Place

namespace ActivationView

variable (v : ActivationView) (k : Kernel) (fd : Fd) (nowNs : ℕ)

def pendingAt (w : World) : ℕ := w.mem.word (v.at_ Abi.state0Pending) 4

def statusWordAt (w : World) : ℕ := w.mem.word (v.at_ Abi.status) 4

/-- Where an exchange of the count leads. -/
def exchanged (current : ℤ) (seen : ℕ) : Place :=
  if seen = ofI32 current then
    if 1 < current then .waiting (current - 1) else .transition
  else .exchange (asI32 seen)

/-- Where the transition leads. -/
def moved (seen : ℕ) : Place :=
  if seen = ActivationStatus.notTriggered.code then .store
  else match activationStatus seen with
    | .ok actual => .failed (.invalidTransition .notTriggered actual)
    | .error e => .failed e

/-- The write of the time. -/
def stamp : Action := .store .signalTime (v.at_ Abi.signalTime) (leBytes 8 nowNs)

def next (w : World) : Place → World × Place
  | .load => (w.perform (.load .pending (v.at_ Abi.state0Pending) 4 (v.pendingAt w)),
      .exchange (asI32 (v.pendingAt w)))
  | .exchange current =>
    if current ≤ 0 then (w, .failed (.invalidPending current))
    else (w.perform (.exchange .pending (v.at_ Abi.state0Pending) (ofI32 current)
      (ofI32 (current - 1)) (v.pendingAt w)), exchanged current (v.pendingAt w))
  | .transition => (w.perform (.exchange .status (v.at_ Abi.status)
      ActivationStatus.notTriggered.code ActivationStatus.triggered.code (v.statusWordAt w)),
      moved (v.statusWordAt w))
  | .store => (w.perform (v.stamp nowNs), .signal)
  | .signal =>
    let r := EventFd.signal k fd 1 w
    (r.2, .triggered (match r.1 with
      | .ok _ => none
      | .error e => some e))
  | place => (w, place)

/-- What `trigger` does with an outcome. -/
def signalled : TriggerOutcome → Prog World SessionError TriggerOutcome
  | .triggered => do
    (EventFd.signal k fd 1).mapErr .signal
    pure .triggered
  | .waiting remaining => pure (.waiting remaining)

/-- What a call still has to do at a place. -/
def rest (fuel : ℕ) : Place → Prog World SessionError TriggerOutcome
  | .load => do
    let current ← load .pending (v.at_ Abi.state0Pending) 4
    let outcome ← (v.decrementLoop nowNs (fuel - 1) (asI32 current)).mapErr .activation
    signalled k fd outcome
  | .exchange current => do
    let outcome ← (v.decrementLoop nowNs fuel current).mapErr .activation
    signalled k fd outcome
  | .transition => do
    (v.transition .notTriggered .triggered).mapErr .activation
    storeWord .signalTime (v.at_ Abi.signalTime) 8 nowNs
    signalled k fd .triggered
  | .store => do
    storeWord .signalTime (v.at_ Abi.signalTime) 8 nowNs
    signalled k fd .triggered
  | .signal => signalled k fd .triggered
  | .waiting remaining => pure (.waiting remaining)
  | .triggered none => pure .triggered
  | .triggered (some e) => .fail (.signal e)
  | .failed e => .fail (.activation e)

variable {v k fd nowNs} {w : World} {fuel : ℕ}

lemma decrementLoop_run (hquiet : w.script = []) {current : ℤ} (hpos : 0 < current) :
    v.decrementLoop nowNs (fuel + 1) current w =
      (if v.pendingAt w = ofI32 current then
        if 1 < current then pure (.waiting (current - 1))
        else do
          v.transition .notTriggered .triggered
          storeWord .signalTime (v.at_ Abi.signalTime) 8 nowNs
          pure .triggered
      else v.decrementLoop nowNs fuel (asI32 (v.pendingAt w)))
        (w.perform (.exchange .pending (v.at_ Abi.state0Pending) (ofI32 current)
          (ofI32 (current - 1)) (v.pendingAt w))) := by
  have hrun : (compareExchange .pending (v.at_ Abi.state0Pending) (ofI32 current)
      (ofI32 (current - 1)) : Prog World ActivationError ℕ) w = (.ok (v.pendingAt w),
        w.perform (.exchange .pending (v.at_ Abi.state0Pending) (ofI32 current)
          (ofI32 (current - 1)) (v.pendingAt w))) := by
    unfold compareExchange access
    rw [interfere_quiet hquiet]
    rfl
  exact (failIf_bind (by omega)).trans (bind_ok hrun)

lemma mapErr_bind_congr {α β ε ε' : Type} {p q : Prog World ε α} {f : ε → ε'}
    {g : α → Prog World ε' β} {w' : World} (h : p w = q w') :
    (p.mapErr f >>= g) w = (q.mapErr f >>= g) w' := by
  simp only [bind, Prog.mapErr, h]

/-- The part after the last exchange, with its error mapped as a whole or by parts. -/
lemma transition_rest : (((do
      v.transition .notTriggered .triggered
      storeWord .signalTime (v.at_ Abi.signalTime) 8 nowNs
      pure .triggered : Prog World ActivationError TriggerOutcome).mapErr .activation) >>=
        signalled k fd) w = v.rest k fd nowNs fuel .transition w := by
  simp only [rest, bind, Prog.mapErr]
  generalize v.transition .notTriggered .triggered w = r
  obtain ⟨r | r, w'⟩ := r <;> rfl

/-- **A call goes on by its accesses**: what it has to do at a place is its next access and then
what it has to do at the place after it. -/
theorem rest_next (hquiet : w.script = []) (place : Place) :
    v.rest k fd nowNs (fuel + 1) place w =
      v.rest k fd nowNs fuel (v.next k fd nowNs w place).2 (v.next k fd nowNs w place).1 := by
  have hsame := interfere_quiet hquiet
  cases place with
  | load =>
    have hrun : (load .pending (v.at_ Abi.state0Pending) 4 : Prog World SessionError ℕ) w =
        (.ok (v.pendingAt w),
          w.perform (.load .pending (v.at_ Abi.state0Pending) 4 (v.pendingAt w))) := by
      unfold World.load access
      rw [hsame]
      rfl
    exact bind_ok hrun
  | exchange current =>
    by_cases hpos : current ≤ 0
    · unfold next rest decrementLoop
      simp only [if_pos hpos]
      refine bind_error ?_
      unfold Prog.mapErr
      rw [failIf_bind_of hpos]
    · unfold next
      simp only [if_neg hpos]
      refine (mapErr_bind_congr (decrementLoop_run hquiet (by omega))).trans ?_
      unfold exchanged
      split_ifs
      · rfl
      · exact transition_rest
      · rfl
  | transition =>
    have hrun : (compareExchange .status (v.at_ Abi.status) ActivationStatus.notTriggered.code
        ActivationStatus.triggered.code : Prog World ActivationError ℕ) w = (.ok (v.statusWordAt w),
          w.perform (.exchange .status (v.at_ Abi.status) ActivationStatus.notTriggered.code
            ActivationStatus.triggered.code (v.statusWordAt w))) := by
      unfold compareExchange access
      rw [hsame]
      rfl
    unfold next rest transition
    simp only
    unfold moved
    split_ifs with hseen
    · refine bind_ok (a := ()) ?_
      unfold Prog.mapErr
      rw [bind_ok hrun, if_pos hseen]
      rfl
    · cases hstatus : activationStatus (v.statusWordAt w) with
      | ok actual =>
        refine bind_error ?_
        unfold Prog.mapErr
        rw [bind_ok hrun, if_neg hseen, ofExcept_bind hstatus]
        rfl
      | error e =>
        refine bind_error ?_
        unfold Prog.mapErr
        rw [bind_ok hrun, if_neg hseen, hstatus]
        rfl
  | store =>
    have hrun : (storeWord .signalTime (v.at_ Abi.signalTime) 8 nowNs :
        Prog World SessionError Unit) w = (.ok (), w.perform (v.stamp nowNs)) := by
      unfold storeWord World.store access
      rw [hsame]
      rfl
    exact bind_ok hrun
  | signal =>
    unfold next rest signalled Prog.mapErr
    simp only [bind]
    generalize EventFd.signal k fd 1 w = r
    obtain ⟨r | r, w'⟩ := r <;> rfl
  | waiting remaining => rfl
  | triggered refused => cases refused <;> rfl
  | failed e => rfl

/-- A call from its beginning is `decrement_pending_and_trigger`, and the signal after it. -/
lemma decrement_rest : (((v.decrementPendingAndTrigger nowNs).mapErr .activation) >>=
    signalled k fd) w = v.rest k fd nowNs (w.script.length + 2) .load w := by
  have hrun : v.decrementPendingAndTrigger nowNs w =
      v.decrementLoop nowNs (w.script.length + 1)
        (asI32 (w.interfere.mem.word (v.at_ Abi.state0Pending) 4))
        (w.interfere.perform (.load .pending (v.at_ Abi.state0Pending) 4
          (w.interfere.mem.word (v.at_ Abi.state0Pending) 4))) := rfl
  exact mapErr_bind_congr hrun

lemma trigger_eq (p : PeerActivation) : p.trigger k nowNs =
    (ActivationView.fromRawParts p.mapping).mapErr .activation >>= fun v w =>
      v.rest k p.signal nowNs (w.script.length + 2) .load w := by
  unfold PeerActivation.trigger
  congr 1
  funext v w
  rw [← decrement_rest]
  refine congrFun (congrArg
    ((v.decrementPendingAndTrigger nowNs).mapErr SessionError.activation >>= ·) ?_) w
  funext outcome
  cases outcome <;> rfl

end ActivationView

namespace EventFd

lemma signal_quiet (k : Kernel) (fd : Fd) {w : World} (hquiet : w.script = []) :
    ∃ a, (a = .signal fd 1 ∨ a = .failedSignal fd 1) ∧ (signal k fd 1 w).2 = w.perform a := by
  unfold signal
  rw [interfere_quiet hquiet]
  split
  · exact ⟨_, .inr rfl, rfl⟩
  · split_ifs
    · exact ⟨_, .inr rfl, rfl⟩
    · refine ⟨_, .inl rfl, ?_⟩
      unfold access
      rw [interfere_quiet hquiet]

end EventFd

end PipewireNative.Node
