import Mathlib.Data.Finset.Lattice.Fold
import PipewireNative.Proxy.Threads

/-!
Events of any number of threads that go to one handler, which is there from the start and stays.
One call at a time is to have the handler; it works until the queue is empty. Between the end of its
loop and the drop of its guard it has given the handler back, and the drop says once more that
nothing is dispatched: a call that comes in between is not seen by the calls after it.
-/

namespace PipewireNative.Proxy

open Lib

variable {H E : Type} {n : ℕ} {h : H}

/-! ### The one call that goes on -/

/-- How the shared state is while a call is at a place. -/
def Place.Fits (h : H) (d : EventDispatch H E) : Place H E → Prop
  | .idle => d.dispatching = false ∧ d.handler = some h ∧ d.queued = []
  | .leave active => active.handler = none ∧ d.dispatching = false ∧ d.handler = some h ∧ d.queued = []
  | .check active | .next active | .call active _ =>
    active = ⟨some h, d.generation⟩ ∧ d.dispatching = true ∧ d.handler = none

/-- How many sections a call has before it, and returns of its handler. -/
def Place.work (queued : ℕ) : Place H E → ℕ
  | .idle => 0
  | .leave _ => 1
  | .next _ => 3 * queued + 2
  | .check _ => 3 * queued + 3
  | .call _ _ => 3 * queued + 4

@[simp] lemma Place.work_eq_zero {place : Place H E} {queued : ℕ} :
    place.work queued = 0 ↔ place = .idle := by
  cases place <;> simp [Place.work]

/-- A call that is not at its end is the one that dispatches, whatever the queue is. -/
lemma Place.Fits.working {place : Place H E} {d : EventDispatch H E} (hfits : place.Fits h d)
    (hidle : place ≠ .idle) (hleave : place.isLeave = false) :
    d.dispatching = true ∧ ∀ queued, place.Fits h { d with queued } := by
  cases place with
  | idle => exact absurd rfl hidle
  | leave active => cases hleave
  | _ => exact ⟨hfits.2.1, fun _ => hfits⟩

namespace Threads

variable {t : Threads H E n}

/-- No event is dispatched while a call is between the end of its loop and the drop of its guard. -/
def Apart (t : Threads H E n) : Act H E n → Prop
  | .dispatch _ _ => ∀ i, (t.places i).isLeave = false
  | _ => True

instance (t : Threads H E n) : DecidablePred t.Apart
  | .dispatch _ _ => inferInstanceAs (Decidable (∀ i, (t.places i).isLeave = false))
  | .set _ | .step _ => inferInstanceAs (Decidable True)

/-- The events go to the handler `h`, each of them once and in their order, and one thread at a time
delivers. Once every thread has had enough steps they are all delivered. -/
structure Delivers (h : H) (t : Threads H E n) : Prop where
  inOrder : t.delivered.map (·.event) ++ t.state.queued = t.dispatched
  handler : ∀ x ∈ t.delivered, x.handler = some h
  one : ∀ i j, (t.places i).isCall → (t.places j).isCall → i = j
  ends : ∃ k, ∀ steps : List (Fin n), (∀ i, k ≤ steps.count i) →
    (∀ i, (after Threads.step steps t).places i = .idle) ∧
      (after Threads.step steps t).delivered.map (·.event) = t.dispatched

/-- At most one call goes on, and the shared state is as it has to be. -/
structure Single (h : H) (t : Threads H E n) : Prop where
  alone : ∀ i j, t.places i ≠ .idle → j ≠ i → t.places j = .idle
  fits : ∀ i, t.places i ≠ .idle → (t.places i).Fits h t.state
  quiet : (∀ i, t.places i = .idle) → Place.Fits h t.state (.idle : Place H E)
  inOrder : t.delivered.map (·.event) ++ t.state.queued = t.dispatched
  handler : ∀ x ∈ t.delivered, x.handler = some h

lemma single_start (h : H) (generation : UInt64) :
    Single h (start ⟨some h, [], false, generation⟩ : Threads H E n) :=
  ⟨fun _ _ hi => absurd rfl hi, fun _ hi => absurd rfl hi, fun _ => ⟨rfl, rfl, rfl⟩, rfl,
    fun _ hx => nomatch hx⟩

lemma single_update {i : Fin n} {state : EventDispatch H E} {place : Place H E}
    {installed : Option H} {dispatched : List E} {delivered : List (Delivery H E)}
    (halone : ∀ j ≠ i, t.places j = .idle) (hfits : place.Fits h state)
    (hinOrder : delivered.map (·.event) ++ state.queued = dispatched)
    (hhandler : ∀ x ∈ delivered, x.handler = some h) :
    Single h ⟨state, Function.update t.places i place, installed, dispatched, delivered⟩ := by
  have hothers : ∀ j ≠ i, Function.update t.places i place j = .idle := by
    intro j hj
    rw [Function.update_of_ne hj, halone j hj]
  have hi : ∀ j, Function.update t.places i place j ≠ .idle → j = i := by
    intro j hj
    by_contra hji
    exact hj (hothers j hji)
  refine ⟨?_, ?_, ?_, hinOrder, hhandler⟩
  · intro j k hj hkj
    obtain rfl := hi j hj
    exact hothers k hkj
  · intro j hj
    obtain rfl := hi j hj
    show (Function.update t.places j place j).Fits h state
    rw [Function.update_self]
    exact hfits
  · intro hidle
    have hplace : place = .idle := by simpa using hidle i
    rw [← hplace]
    exact hfits

lemma Single.dispatch (hs : Single h t) (i : Fin n) (event : E)
    (hapart : ∀ j, (t.places j).isLeave = false) : Single h (t.dispatch i event) := by
  unfold Threads.dispatch
  cases hplace : t.places i with
  | idle =>
    by_cases hidle : ∀ j, t.places j = .idle
    · -- nothing goes on, and this call takes the handler
      obtain ⟨hdispatching, hhandler, hqueued⟩ := hs.quiet hidle
      dsimp only
      rw [EventDispatch.enter_some hdispatching hhandler]
      refine single_update (fun j _ => hidle j) ⟨rfl, rfl, rfl⟩ ?_ hs.handler
      rw [← hs.inOrder, List.append_assoc]
    · -- another one goes on, and it has not come to the end of its loop
      push Not at hidle
      obtain ⟨j, hj⟩ := hidle
      have hworking : ∀ k, t.places k ≠ .idle → _ := fun k hk => (hs.fits k hk).working hk (hapart k)
      dsimp only
      rw [EventDispatch.enter_dispatching (hworking j hj).1]
      dsimp only
      rw [← hplace, Function.update_eq_self]
      refine ⟨hs.alone, fun k hk => (hworking k hk).2 _, fun hidle => absurd (hidle j) hj, ?_, hs.handler⟩
      rw [← hs.inOrder, List.append_assoc]
  | _ => exact hs

lemma Single.step_cases (hs : Single h t) {i : Fin n} (hi : t.places i ≠ .idle) :
    ∃ state place delivered, t.step i =
        ⟨state, Function.update t.places i place, t.installed, t.dispatched, delivered⟩ ∧
      place.Fits h state ∧ delivered.map (·.event) ++ state.queued = t.dispatched ∧
      (∀ x ∈ delivered, x.handler = some h) ∧
      place.work state.queued.length < (t.places i).work t.state.queued.length := by
  have hfits := hs.fits i hi
  unfold Threads.step
  cases hplace : t.places i with
  | idle => exact absurd hplace hi
  | check active =>
    rw [hplace] at hfits
    obtain ⟨rfl, hdispatching, hhandler⟩ := hfits
    dsimp only
    rw [EventDispatch.check_same rfl]
    exact ⟨_, _, _, rfl, ⟨rfl, hdispatching, hhandler⟩, hs.inOrder, hs.handler, by simp [Place.work]⟩
  | next active =>
    rw [hplace] at hfits
    obtain ⟨rfl, hdispatching, hhandler⟩ := hfits
    dsimp only
    cases hqueued : t.state.queued with
    | nil =>
      rw [EventDispatch.next_nil rfl hqueued]
      exact ⟨_, _, _, rfl, ⟨rfl, rfl, rfl, hqueued⟩, hs.inOrder, hs.handler, by simp [Place.work]⟩
    | cons event queued =>
      rw [EventDispatch.next_cons rfl hqueued]
      refine ⟨_, _, _, rfl, ⟨rfl, hdispatching, hhandler⟩, ?_, ?_, ?_⟩
      · rw [← hs.inOrder, hqueued, List.map_append, List.append_assoc]
        rfl
      · intro x hx
        rcases List.mem_append.1 hx with hx | hx
        · exact hs.handler x hx
        · rw [List.mem_singleton.1 hx]
      · simp only [Place.work, List.length_cons]
        omega
  | call active event =>
    rw [hplace] at hfits
    exact ⟨_, _, _, rfl, hfits, hs.inOrder, hs.handler, by simp [Place.work]⟩
  | leave active =>
    rw [hplace] at hfits
    obtain ⟨hnone, hdispatching, hhandler, hqueued⟩ := hfits
    dsimp only
    rw [EventDispatch.leave_none hnone]
    exact ⟨_, _, _, rfl, ⟨rfl, hhandler, hqueued⟩, hs.inOrder, hs.handler, by simp [Place.work]⟩

lemma step_idle {i : Fin n} (hi : t.places i = .idle) : t.step i = t := by
  unfold Threads.step
  rw [hi]

lemma Single.step (hs : Single h t) (i : Fin n) : Single h (t.step i) := by
  by_cases hi : t.places i = .idle
  · rw [step_idle hi]
    exact hs
  · obtain ⟨state, place, delivered, heq, hfits, hinOrder, hhandler, -⟩ := hs.step_cases hi
    rw [heq]
    exact single_update (fun j hj => hs.alone i j hi hj) hfits hinOrder hhandler

/-! ### That the events are all delivered -/

/-- The sections that a thread has before it. -/
def work (t : Threads H E n) (i : Fin n) : ℕ := (t.places i).work t.state.queued.length

lemma Single.work_self (hs : Single h t) (i : Fin n) : (t.step i).work i ≤ t.work i - 1 := by
  by_cases hi : t.places i = .idle
  · rw [step_idle hi]
    simp [work, hi, Place.work]
  · obtain ⟨state, place, delivered, heq, -, -, -, hless⟩ := hs.step_cases hi
    have hself : (t.step i).work i = place.work state.queued.length := by
      rw [heq]
      simp [work]
    have : t.work i = (t.places i).work t.state.queued.length := rfl
    omega

lemma Single.work_other (hs : Single h t) (i j : Fin n) (hji : j ≠ i) :
    (t.step i).work j ≤ t.work j := by
  by_cases hi : t.places i = .idle
  · rw [step_idle hi]
  · obtain ⟨state, place, delivered, heq, -⟩ := hs.step_cases hi
    have hidle : (t.step i).work j = 0 := by
      rw [heq]
      simp [work, Function.update_of_ne hji, hs.alone i j hi hji]
    omega

lemma step_dispatched (t : Threads H E n) (i : Fin n) : (t.step i).dispatched = t.dispatched := by
  unfold Threads.step
  split
  · rfl
  · rfl
  · dsimp only
    split <;> rfl
  · rfl
  · rfl

lemma Single.ends (hs : Single h t) {steps : List (Fin n)} (hcount : ∀ i, t.work i ≤ steps.count i) :
    (∀ i, (after Threads.step steps t).places i = .idle) ∧
      (after Threads.step steps t).delivered.map (·.event) = t.dispatched := by
  have hkeeps : Single h (after Threads.step steps t) :=
    after_keeps (I := Single h) (fun u i hu => hu.step i) steps hs
  have hidle : ∀ i, (after Threads.step steps t).places i = .idle := by
    intro i
    have hzero := after_ends (I := Single h) (fun u i hu => hu.step i) (fun u i hu => hu.work_self i)
      (fun u i j hu hji => hu.work_other i j hji) hs hcount i
    simpa [work] using hzero
  have hdispatched : (after Threads.step steps t).dispatched = t.dispatched :=
    after_keeps (I := fun u : Threads H E n => u.dispatched = t.dispatched)
      (fun u i hu => (step_dispatched u i).trans hu) steps rfl
  refine ⟨hidle, ?_⟩
  have hinOrder := hkeeps.inOrder
  rw [(hkeeps.quiet hidle).2.2, List.append_nil, hdispatched] at hinOrder
  exact hinOrder

lemma Single.delivers (hs : Single h t) : Delivers h t := by
  refine ⟨hs.inOrder, hs.handler, ?_, ?_⟩
  · intro i j hi hj
    by_contra hij
    have hidle := hs.alone i j (by rintro hp; rw [hp] at hi; cases hi) (Ne.symm hij)
    rw [hidle] at hj
    cases hj
  · refine ⟨Finset.univ.sup t.work, ?_⟩
    intro steps hcount
    exact hs.ends fun i => (Finset.le_sup (Finset.mem_univ i)).trans (hcount i)

/-- **One handler that stays.** In a run where no event is dispatched between the end of a call's
loop and the drop of its guard, the handler gets every event once and in order. -/
theorem delivers_of_apart (n : ℕ) (h : H) (generation : UInt64) (acts : List (Act H E n))
    (hset : ∀ handler, .set handler ∉ acts)
    (hapart : Admits act Apart acts (start ⟨some h, [], false, generation⟩)) :
    Delivers h (after act acts (start ⟨some h, [], false, generation⟩)) := by
  refine (hapart.keeps_of_mem (I := Single h) (fun t a ha hok hs => ?_)
    (single_start h generation)).delivers
  cases a with
  | set handler => exact absurd ha (hset handler)
  | dispatch i event => exact hs.dispatch i event hok
  | step i => exact hs.step i

theorem delivers_two_calls :
    Delivers 1 (after act [.dispatch 0 10, .step 0, .step 0, .dispatch 1 11, .step 0, .step 0, .step 0,
      .step 0, .step 0, .step 0, .step 0, .dispatch 1 12, .step 1]
      (start ⟨some 1, [], false, 7⟩ : Threads ℕ ℕ 2)) :=
  delivers_of_apart 2 1 7 _ (by simp) (by decide +kernel)

/-- The second call comes in before the first one's guard is dropped, and the third finds neither a
call that goes on nor a handler. -/
theorem not_delivers_before_drop :
    ¬ Delivers 1 (after act [.dispatch 0 10, .step 0, .step 0, .step 0, .step 0, .step 0, .dispatch 1 11,
      .step 0, .dispatch 0 12] (start ⟨some 1, [], false, 7⟩ : Threads ℕ ℕ 2)) := by
  intro h
  exact absurd h.inOrder (by decide)

end Threads

end PipewireNative.Proxy
