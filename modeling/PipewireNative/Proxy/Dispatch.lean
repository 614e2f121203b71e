import PipewireNative.Lib.Run

/-!
The events of a ClientNode and the one handler they go to. A call of `dispatch` that finds no
other one going on takes the handler out of the shared state, gives it the events one by one
without the lock, and puts it back; other calls leave their event in the queue. A generation
counts the handlers that were set, so that a call can tell that its own was replaced.

Every function here is one section between taking the lock and giving it back.
-/

namespace PipewireNative.Proxy

variable {H E : Type}

structure EventDispatch (H E : Type) where
  handler : Option H
  queued : List E
  dispatching : Bool
  generation : UInt64
  deriving DecidableEq, Repr

/-- What a call of `dispatch` keeps while it goes on. -/
structure ActiveHandler (H : Type) where
  handler : Option H
  generation : UInt64
  deriving DecidableEq, Repr

/-- What a call of `dispatch` does next: it gives an event to its handler, or it is over. -/
inductive Next (H E : Type) where
  | deliver (event : E)
  | over (active : ActiveHandler H)

namespace EventDispatch

/-- `EventDispatch::default`. -/
def standard : EventDispatch H E := ⟨none, [], false, 0⟩

variable (d : EventDispatch H E)

/-- `set_event_handler`. -/
def setEventHandler (handler : Option H) : EventDispatch H E :=
  { d with generation := d.generation + 1, handler }

/-- The first section of `dispatch_event`; when there is no active handler, the call is over. -/
def enter (event : E) : EventDispatch H E × Option (ActiveHandler H) :=
  if d.dispatching then ({ d with queued := d.queued ++ [event] }, none)
  else match d.handler with
    | none => (d, none)
    | some handler =>
      ({ d with handler := none, dispatching := true, queued := d.queued ++ [event] },
        some ⟨some handler, d.generation⟩)

/-- The section that looks at the generation. Where it has changed, the replacement is taken and
the loop begins anew. -/
def check (active : ActiveHandler H) : EventDispatch H E × ActiveHandler H × Bool :=
  if d.generation ≠ active.generation then
    ({ d with handler := none }, ⟨d.handler, d.generation⟩, true)
  else (d, active, false)

/-- The section that takes the next event. Without a handler the queue is dropped, without an event
the handler is put back. -/
def next (active : ActiveHandler H) : EventDispatch H E × Next H E :=
  match active.handler, d.queued with
  | none, _ => ({ d with queued := [], dispatching := false }, .over active)
  | some handler, [] =>
    ({ d with handler := some handler, dispatching := false }, .over { active with handler := none })
  | some _, event :: queued => ({ d with queued }, .deliver event)

/-- `ActiveHandler::drop`. -/
def leave (active : ActiveHandler H) : EventDispatch H E :=
  if d.generation = active.generation ∧ d.handler.isNone then
    { d with handler := active.handler, dispatching := false }
  else { d with dispatching := false }

/-! ### What the sections do -/

variable {d} {active : ActiveHandler H}

lemma enter_dispatching (h : d.dispatching = true) (event : E) :
    d.enter event = ({ d with queued := d.queued ++ [event] }, none) := if_pos h

lemma enter_none (h : d.dispatching = false) (hhandler : d.handler = none) (event : E) :
    d.enter event = (d, none) := by
  unfold enter
  rw [if_neg (by simp [h]), hhandler]

lemma enter_some (h : d.dispatching = false) {handler : H} (hhandler : d.handler = some handler)
    (event : E) : d.enter event =
      ({ d with handler := none, dispatching := true, queued := d.queued ++ [event] },
        some ⟨some handler, d.generation⟩) := by
  unfold enter
  rw [if_neg (by simp [h]), hhandler]

lemma check_changed (h : d.generation ≠ active.generation) :
    d.check active = ({ d with handler := none }, ⟨d.handler, d.generation⟩, true) := if_pos h

lemma check_same (h : d.generation = active.generation) : d.check active = (d, active, false) :=
  if_neg (not_not.2 h)

lemma next_none (h : active.handler = none) :
    d.next active = ({ d with queued := [], dispatching := false }, .over active) := by
  unfold next
  rw [h]

lemma next_nil {handler : H} (h : active.handler = some handler) (hqueued : d.queued = []) :
    d.next active = ({ d with handler := some handler, dispatching := false },
      .over { active with handler := none }) := by
  unfold next
  rw [h, hqueued]

lemma next_cons {handler : H} (h : active.handler = some handler) {event : E} {queued : List E}
    (hqueued : d.queued = event :: queued) : d.next active = ({ d with queued }, .deliver event) := by
  unfold next
  rw [h, hqueued]

lemma leave_none (h : active.handler = none) : d.leave active = { d with dispatching := false } := by
  unfold leave
  split_ifs with hback
  · have hnone : d.handler = none := by simpa using hback.2
    rw [h, ← hnone]
  · rfl

end EventDispatch

/-! ### Calls and deliveries -/

/-- Where a call of `dispatch` is. -/
inductive Place (H E : Type) where
  | idle
  | check (active : ActiveHandler H)
  | next (active : ActiveHandler H)
  | call (active : ActiveHandler H) (event : E)
  | leave (active : ActiveHandler H)
  deriving DecidableEq, Repr

namespace Place

variable {H E : Type}

/-- What a call that goes on keeps. -/
def active? : Place H E → Option (ActiveHandler H)
  | .idle => none
  | .check active | .next active | .call active _ | .leave active => some active

/-- About to take the next event. -/
def isNext : Place H E → Bool
  | .next _ => true
  | _ => false

/-- Between the end of the loop and the drop of the guard. -/
def isLeave : Place H E → Bool
  | .leave _ => true
  | _ => false

def isCall : Place H E → Bool
  | .call _ _ => true
  | _ => false

end Place

/-- An event that was taken to be delivered, the handler it went to, and the handler set last. -/
structure Delivery (H E : Type) where
  event : E
  handler : Option H
  installed : Option H
  deriving DecidableEq, Repr

end PipewireNative.Proxy
