import PipewireNative.Lib.Run
import PipewireNative.Node.Lifecycle

/-!
The task that owns a session: it takes commands from a channel and wakes from the trigger of the
current transport, and disconnects the session when it ends. What the channel, the stop flag and
the reactor give at a turn is part of the turn, so that they may give anything at any time.
-/

namespace PipewireNative.Node

open Lib World Sys

structure RuntimeDiagnostics where
  callbacks : ℕ
  missedWakes : ℕ
  staleWakes : ℕ
  deriving DecidableEq, Repr

/-- `record_outcome`. -/
def RuntimeDiagnostics.record (d : RuntimeDiagnostics) : WakeOutcome → RuntimeDiagnostics
  | .processed _ missed _ => { d with
      callbacks := (d.callbacks + 1) % usizeBound
      missedWakes := (d.missedWakes + missed) % usizeBound }
  | .notClaimed _ missed => { d with missedWakes := (d.missedWakes + missed) % usizeBound }
  | .stale _ _ => { d with staleWakes := (d.staleWakes + 1) % usizeBound }
  | .noWake | .notRunning _ => d

inductive TaskError where
  | session (e : SessionError)
  | io (e : IoError)

inductive TaskEnd where
  | returned (result : Except TaskError Unit)
  | panicked

/-- What the kernel answers and the server does during an operation. -/
structure Setting where
  kernel : Kernel
  script : List (List ServerAct)

/-- The branches of `select!`, each with what it has got: the stop flag after a change, or that
whoever could change it is gone; the command received, or that every sender is gone; or that the
trigger is readable. -/
inductive Branch where
  | changed (stop : Except Unit Bool)
  | received (command : Option SessionCommand)
  | ready (readable : Except IoError Unit)

/-- What a turn of the task meets: the stop flag as the turn begins, its branch, the world of its
operation, the clock and the callback of a wake, what duplicating and registering the trigger gives,
and the world of the cleanup. -/
structure Turn where
  stop : Bool
  branch : Branch
  during : Setting
  awakeNs : ℕ
  finishTime : Option ℕ
  callback : OutputProcess
  register : Except TaskError Unit
  cleanup : Setting

/-- The task, with the commands it has received. -/
structure Runtime where
  sys : Sys
  received : List SessionCommand
  registration : Option ℕ
  counters : RuntimeDiagnostics
  ended : Option TaskEnd

namespace Runtime

/-- What `spawn_tokio_with_clock` starts for a new session. -/
def start (mem : Shm) (counter : Fd → ℕ) : Runtime :=
  ⟨init mem counter, [], none, ⟨0, 0, 0⟩, none⟩

variable (r : Runtime)

/-- The end of the task. The session is disconnected, and the first error is the result. -/
def finish (result : Except TaskError Unit) (t : Turn) : Runtime :=
  let x := r.sys.exec (.command .disconnect) t.cleanup.kernel t.cleanup.script
  { r with
    sys := x.2
    ended := some (match x.1, result with
      | .error .panic, _ => .panicked
      | .error (.error e), .ok _ => .returned (.error (.session e))
      | _, _ => .returned result) }

/-- `desired_registration`. -/
def desiredRegistration (register : Except TaskError Unit) : Except TaskError (Option ℕ) :=
  if r.sys.session.state ≠ .running then .ok none
  else match r.sys.session.transportGeneration with
    | none => .ok none
    | some generation => register.map fun _ => some generation

def reregister (t : Turn) : Runtime :=
  match r.desiredRegistration t.register with
  | .ok registration => { r with registration := registration }
  | .error e => r.finish (.error e) t

/-- What a turn does after an operation of the session; a panic unwinds the task. -/
def resume (x : Except Unwind Outcome × Sys) (t : Turn) : Runtime :=
  let r := { r with sys := x.2 }
  match x.1 with
  | .error .panic => { r with ended := some .panicked }
  | .error (.error e) => r.finish (.error (.session e)) t
  | .ok (.applied _) =>
    if r.sys.session.state = .disconnected then r.finish (.ok ()) t else r.reregister t
  | .ok (.woken o) => { r with counters := r.counters.record o }.reregister t

/-- One turn of the loop of `run_session`. -/
def turn (t : Turn) : Runtime :=
  if r.ended.isSome then r
  else if t.stop then r.finish (.ok ()) t
  else match t.branch with
    | .changed (.ok false) => r
    | .changed _ | .received none => r.finish (.ok ()) t
    | .received (some c) => { r with received := r.received ++ [c] }.resume
        (r.sys.exec (.command c) t.during.kernel t.during.script) t
    | .ready readable =>
      match r.registration, readable with
      | none, _ => r
      | some _, .error e => r.finish (.error (.io e)) t
      | some generation, .ok _ => r.resume
          (r.sys.exec (.wake ⟨generation, t.awakeNs, t.finishTime, t.callback⟩) t.during.kernel
            t.during.script) t

/-- What can happen: the server acts while the task waits, or the task takes a turn. -/
inductive Act where
  | server (a : ServerAct)
  | turn (t : Turn)

def step : Act → Runtime
  | .server a => { r with sys := r.sys.move (.server a) }
  | .turn t => r.turn t

end Runtime

/-! ### The session of a task -/

def Move.command? : Move → Option SessionCommand
  | .op (.command c) _ _ => some c
  | _ => none

/-- A wake is tagged with the generation that is current, and the session runs. -/
def Sys.Tagged (s : Sys) : Move → Prop
  | .op (.wake w) _ _ =>
    s.session.state = .running ∧ s.session.transportGeneration = some w.generation
  | _ => True

lemma Sys.Along.snoc {C : Sys → Move → Prop} {s : Sys} {ms : List Move} {m : Move}
    (h : Along C s ms) (hm : C (s.run ms) m) : Along C s (ms ++ [m]) := by
  induction h with
  | done s => exact .next hm (.done _)
  | next h _ ih => exact .next h (ih hm)

/-- The system is that of a run with these commands, in which every wake is tagged. -/
def Sys.Traces (mem : Shm) (counter : Fd → ℕ) (cs : List SessionCommand) (s : Sys) : Prop :=
  ∃ moves, s = (init mem counter).run moves ∧ moves.filterMap Move.command? = cs ∧
    Along Tagged (init mem counter) moves

lemma Sys.Traces.move {mem : Shm} {counter : Fd → ℕ} {cs : List SessionCommand} {s : Sys}
    (h : Traces mem counter cs s) {m : Move} (hm : s.Tagged m) :
    Traces mem counter (cs ++ m.command?.toList) (s.move m) := by
  obtain ⟨moves, rfl, rfl, halong⟩ := h
  refine ⟨moves ++ [m], by rw [run_append]; rfl, ?_, halong.snoc hm⟩
  rw [List.filterMap_append]
  cases hc : m.command? <;> simp [hc]

lemma Sys.Traces.coherent {mem : Shm} {counter : Fd → ℕ} {cs : List SessionCommand} {s : Sys}
    (h : Traces mem counter cs s) : s.session.Coherent := by
  obtain ⟨moves, rfl, -⟩ := h
  exact run_coherent mem counter moves

lemma Sys.exec_disconnect {s : Sys} (h : s.session.Coherent) (k : Kernel)
    (script : List (List ServerAct)) :
    (s.exec (.command .disconnect) k script).2.session.state = .disconnected := by
  generalize (s.exec (.command .disconnect) k script).2 = s',
    (s.exec_command .disconnect k script).2.1 = happ
  cases happ with
  | ignored hs => exact hs.resolve_right h.idle
  | closed _ hclosed =>
    obtain ⟨w, -, rfl⟩ := hclosed
    rfl
  | edited hc => cases hc

lemma Sys.Edits.unfailed {s s' : Sys} (h : Edits s s') (hs : s.session.state ≠ .failed) :
    s'.session.state ≠ .failed := by
  have hstopped : ∀ n : ClientNodeSession, n.state ≠ .failed → n.stopped.state ≠ .failed := by
    intro n hn
    unfold ClientNodeSession.stopped
    split_ifs <;> simp_all
  induction h with
  | refl => exact hs
  | tail _ he ih =>
    cases he with
    | book n hk | refused n r w₁ w hk => rw [hk.state]; exact ih
    | halt | replace => exact hstopped _ ih
    | start | unready => simp
    | refresh =>
      unfold ClientNodeSession.refreshState
      split
      all_goals first | exact ih | (dsimp only; split_ifs <;> simp)
    | _ => exact ih

lemma Sys.exec_unfailed {s : Sys} (hc : s.session.Coherent) (hs : s.session.state ≠ .failed)
    (o : Op) (k : Kernel) (script : List (List ServerAct)) (hok : (s.exec o k script).1.isOk) :
    (s.exec o k script).2.session.state ≠ .failed := by
  cases o with
  | command c =>
    generalize (s.exec (.command c) k script).2 = s', (s.exec_command c k script).2.1 = happ
    cases happ with
    | ignored => exact hs
    | closed _ hclosed =>
      obtain ⟨w, -, rfl⟩ := hclosed
      simp [ClientNodeSession.disconnected]
    | edited _ _ h => exact h.unfailed hs
  | wake w =>
    obtain ⟨r, hr, h⟩ := s.exec_phases hc w k script
    obtain ⟨-, st, hst, hwoke⟩ := h.woke (s := s.scripted script) hc.sound
    rw [hr] at hok
    rw [hwoke.state]
    obtain rfl | ⟨-, -, e, he⟩ := hst
    · exact hs
    · rw [he] at hok
      cases hok

/-! ### Runs of a task -/

namespace Runtime

variable {mem : Shm} {counter : Fd → ℕ} {r : Runtime}

/-- What holds of a task that goes on, also in the middle of a turn. -/
structure Works (mem : Shm) (counter : Fd → ℕ) (r : Runtime) : Prop where
  going : r.ended = none
  traces : Traces mem counter r.received r.sys

/-- What holds of a task that is over. -/
structure Over (mem : Shm) (counter : Fd → ℕ) (r : Runtime) : Prop where
  ended : ∃ result, r.ended = some (.returned result)
  traces : Traces mem counter (r.received ++ [.disconnect]) r.sys
  state : r.sys.session.state = .disconnected

/-- The registration is that of the session, which has not failed. -/
def Registered (r : Runtime) : Prop :=
  r.sys.session.state ≠ .failed ∧ r.registration =
    if r.sys.session.state = .running then r.sys.session.transportGeneration else none

/-- **What a runtime that occurs satisfies.** -/
def Sound (mem : Shm) (counter : Fd → ℕ) (r : Runtime) : Prop :=
  (Works mem counter r ∧ r.Registered) ∨ Over mem counter r

lemma Works.finish (h : Works mem counter r) (result : Except TaskError Unit) (t : Turn) :
    Over mem counter (r.finish result t) := by
  have hpanic := (r.sys.exec_command .disconnect t.cleanup.kernel t.cleanup.script).1
  refine ⟨?_, ?_, exec_disconnect h.traces.coherent _ _⟩
  · unfold Runtime.finish
    dsimp only
    split
    · rename_i hx
      exact absurd hx hpanic
    · exact ⟨_, rfl⟩
    · exact ⟨_, rfl⟩
  · exact h.traces.move (m := .op (.command .disconnect) t.cleanup.kernel t.cleanup.script) trivial

lemma Works.reregister (h : Works mem counter r) (hfine : r.sys.session.state ≠ .failed)
    (t : Turn) : Sound mem counter (r.reregister t) := by
  unfold Runtime.reregister
  split
  · rename_i registration hreg
    refine .inl ⟨⟨h.going, h.traces⟩, hfine, ?_⟩
    show registration = _
    unfold desiredRegistration at hreg
    split_ifs at hreg with hrun
    · cases hreg
      exact (if_neg hrun).symm
    · rw [if_pos (not_not.1 hrun)]
      cases hgen : r.sys.session.transportGeneration with
      | none => rw [hgen] at hreg; cases hreg; rfl
      | some g =>
        rw [hgen] at hreg
        cases hr : t.register <;> rw [hr] at hreg <;> cases hreg
        rfl
  · exact .inr (h.finish _ _)

lemma Works.resume (h : Works mem counter r) (hfine : r.sys.session.state ≠ .failed) {o : Op}
    {k : Kernel} {script : List (List ServerAct)} {received : List SessionCommand}
    (htag : r.sys.Tagged (.op o k script))
    (hreceived : received = r.received ++ (Move.command? (.op o k script)).toList) (t : Turn) :
    Sound mem counter ({ r with received := received }.resume (r.sys.exec o k script) t) := by
  have hworks : Works mem counter ⟨(r.sys.exec o k script).2, received, r.registration, r.counters,
      r.ended⟩ := ⟨h.going, hreceived ▸ h.traces.move htag⟩
  have hpanic : (r.sys.exec o k script).1 ≠ .error .panic := by
    cases o with
    | command c => exact (r.sys.exec_command c k script).1
    | wake w => exact (r.sys.exec_wake h.traces.coherent w k script).1
  have hnext := exec_unfailed h.traces.coherent hfine o k script
  unfold Runtime.resume
  rcases hx : (r.sys.exec o k script).1 with (e | _) | (_ | o)
  · exact .inr (hworks.finish _ _)
  · exact absurd hx hpanic
  · dsimp only
    split_ifs
    · exact .inr (hworks.finish _ _)
    · exact hworks.reregister (hnext (by rw [hx]; rfl)) t
  · exact Works.reregister (r := ⟨_, _, _, r.counters.record o, _⟩)
      ⟨hworks.going, hworks.traces⟩ (hnext (by rw [hx]; rfl)) t

lemma Sound.turn (h : Sound mem counter r) (t : Turn) : Sound mem counter (r.turn t) := by
  unfold Runtime.turn
  rcases h with ⟨h, hreg⟩ | h
  · rw [if_neg (by simp [h.going])]
    split_ifs
    · exact .inr (h.finish _ _)
    split
    · exact .inl ⟨h, hreg⟩
    · exact .inr (h.finish _ _)
    · exact .inr (h.finish _ _)
    · exact h.resume (o := .command _) hreg.1 trivial rfl t
    · split
      · exact .inl ⟨h, hreg⟩
      · exact .inr (h.finish _ _)
      · rename_i hsome _
        rw [hreg.2] at hsome
        split_ifs at hsome with hrun
        exact h.resume (o := .wake _) hreg.1 ⟨hrun, hsome⟩ (List.append_nil _).symm t
  · obtain ⟨result, hended⟩ := h.ended
    rw [if_pos (by simp [hended])]
    exact .inr h

lemma Sound.step (h : Sound mem counter r) (a : Act) : Sound mem counter (r.step a) := by
  cases a with
  | server a =>
    have hmove : ∀ {cs}, Traces mem counter cs r.sys →
        Traces mem counter cs (r.sys.move (.server a)) := fun {cs} hcs =>
      List.append_nil cs ▸ hcs.move (m := .server a) trivial
    rcases h with ⟨h, hreg⟩ | h
    · exact .inl ⟨⟨h.going, hmove h.traces⟩, hreg⟩
    · exact .inr ⟨h.ended, hmove h.traces, h.state⟩
  | turn t => exact h.turn t

variable (mem : Shm) (counter : Fd → ℕ)

lemma task_sound (acts : List Act) : Sound mem counter (after step acts (start mem counter)) :=
  after_keeps (fun _ a h => h.step a) acts
    (.inl ⟨⟨rfl, [], rfl, rfl, .done _⟩, by simp [start, init, ClientNodeSession.new], rfl⟩)

/-- **How a task ends.** It never panics. When it is over, its session is disconnected and holds
nothing any more; before that, the session has not failed, and the trigger it waits for is that of
the transport the session has now, or none if the session does not run. -/
theorem run_over (acts : List Act) :
    let r := after step acts (start mem counter)
    match r.ended with
    | none => r.Registered
    | some e => (∃ result, e = .returned result) ∧ r.sys.session.state = .disconnected ∧
        r.sys.session.Cleared := by
  intro r
  rcases task_sound mem counter acts with ⟨h, hreg⟩ | h
  · have hgoing : r.ended = none := h.going
    rw [hgoing]
    exact hreg
  · obtain ⟨result, hended⟩ : ∃ result, r.ended = some (.returned result) := h.ended
    obtain ⟨moves, hsys, -⟩ : Traces mem counter _ r.sys := h.traces
    rw [hended]
    refine ⟨⟨result, rfl⟩, h.state, ?_⟩
    have hcleared := run_cleared mem counter moves
    rw [← hsys] at hcleared
    exact hcleared h.state

end Runtime

end PipewireNative.Node
