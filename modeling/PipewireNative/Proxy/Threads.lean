import Mathlib.Data.Fin.Basic
import Mathlib.Data.Fintype.Basic
import Mathlib.Logic.Function.Basic
import PipewireNative.Proxy.Dispatch

/-!
Any number of threads that dispatch events and set handlers. A thread is at one of five places of
`dispatch_event`; every section of it is one act, and so is a handler that returns. A call that a
handler makes is one of another thread here: that its caller waits for it leaves out runs and adds
none.
-/

namespace PipewireNative.Proxy

open Lib

/-- The shared state, the places of `n` threads, and what has happened: the handler set last, the
events in the order of their calls, and the deliveries. -/
structure Threads (H E : Type) (n : ℕ) where
  state : EventDispatch H E
  places : Fin n → Place H E
  installed : Option H
  dispatched : List E
  delivered : List (Delivery H E)

namespace Threads

variable {H E : Type} {n : ℕ}

inductive Act (H E : Type) (n : ℕ) where
  | set (handler : Option H)
  | dispatch (i : Fin n) (event : E)
  | step (i : Fin n)

/-- All threads are idle. -/
def start (state : EventDispatch H E) : Threads H E n := ⟨state, fun _ => .idle, state.handler, [], []⟩

variable (t : Threads H E n)

def setEventHandler (handler : Option H) : Threads H E n :=
  { t with state := t.state.setEventHandler handler, installed := handler }

/-- A call of `dispatch`. A thread that is in one makes no other. -/
def dispatch (i : Fin n) (event : E) : Threads H E n :=
  match t.places i with
  | .idle =>
    let r := t.state.enter event
    { t with
      state := r.1
      places := Function.update t.places i (match r.2 with
        | none => .idle
        | some active => .check active)
      dispatched := t.dispatched ++ [event] }
  | _ => t

/-- The next section of a thread, or the return of its handler. -/
def step (i : Fin n) : Threads H E n :=
  match t.places i with
  | .idle => t
  | .check active =>
    let r := t.state.check active
    { t with
      state := r.1
      places := Function.update t.places i (if r.2.2 then .check r.2.1 else .next r.2.1) }
  | .next active =>
    let r := t.state.next active
    match r.2 with
    | .deliver event =>
      { t with
        state := r.1
        places := Function.update t.places i (.call active event)
        delivered := t.delivered ++ [⟨event, active.handler, t.installed⟩] }
    | .over active =>
      { t with state := r.1, places := Function.update t.places i (.leave active) }
  | .call active _ => { t with places := Function.update t.places i (.check active) }
  | .leave active =>
    { t with state := t.state.leave active, places := Function.update t.places i .idle }

def act : Act H E n → Threads H E n
  | .set handler => t.setEventHandler handler
  | .dispatch i event => t.dispatch i event
  | .step i => t.step i

/-- What the calls keep that go on. -/
def actives (i : Fin n) : Option (ActiveHandler H) := (t.places i).active?

end Threads

/-! ### Who has the handler -/

section Owner

variable {H : Type} {n : ℕ} {handler installed : Option H} {generation : UInt64}
  {actives : Fin n → Option (ActiveHandler H)} {i : Fin n}

/-- The call of `i` has the handler `h`, and it is of the current generation. -/
def Holds (generation : UInt64) (actives : Fin n → Option (ActiveHandler H)) (i : Fin n) (h : H) : Prop :=
  actives i = some ⟨some h, generation⟩

/-- The handler set last is in one place: in the shared state, or with one call of the current
generation. -/
structure Owner (handler : Option H) (generation : UInt64)
    (actives : Fin n → Option (ActiveHandler H)) (installed : Option H) : Prop where
  shared : ∀ h, handler = some h → installed = some h ∧ ∀ i h', ¬ Holds generation actives i h'
  call : ∀ i h, Holds generation actives i h →
    installed = some h ∧ ∀ j h', Holds generation actives j h' → j = i
  held : ∀ h, installed = some h → handler = some h ∨ ∃ i, Holds generation actives i h

lemma holds_update_ne {a : Option (ActiveHandler H)} {j : Fin n} (hne : j ≠ i) {h : H} :
    Holds generation (Function.update actives i a) j h ↔ Holds generation actives j h := by
  unfold Holds
  rw [Function.update_of_ne hne]

lemma Owner.set (hfresh : ∀ i a, actives i = some a → a.generation ≠ generation)
    (handler : Option H) : Owner handler generation actives handler := by
  have hnone : ∀ i h, ¬ Holds generation actives i h := fun i h hh => hfresh i _ hh rfl
  exact ⟨fun h hh => ⟨hh, hnone⟩, fun i h hh => absurd hh (hnone i h), fun h hh => .inl hh⟩

lemma Owner.take (ho : Owner handler generation actives installed)
    (hi : ∀ h, ¬ Holds generation actives i h) :
    Owner none generation (Function.update actives i (some ⟨handler, generation⟩)) installed := by
  have hself : ∀ h, Holds generation (Function.update actives i (some ⟨handler, generation⟩)) i h ↔
      handler = some h := by
    intro h
    simp [Holds]
  refine ⟨by simp, ?_, ?_⟩
  · intro j h hj
    by_cases hji : j = i
    · subst hji
      obtain ⟨hinst, hnone⟩ := ho.shared h ((hself h).1 hj)
      refine ⟨hinst, ?_⟩
      intro k h' hk
      by_contra hkj
      exact hnone k h' ((holds_update_ne hkj).1 hk)
    · have hj' := (holds_update_ne hji).1 hj
      obtain ⟨hinst, hone⟩ := ho.call j h hj'
      refine ⟨hinst, ?_⟩
      intro k h' hk
      by_cases hki : k = i
      · subst hki
        exact absurd hj' ((ho.shared h' ((hself h').1 hk)).2 j h)
      · exact hone k h' ((holds_update_ne hki).1 hk)
  · intro h hinst
    right
    rcases ho.held h hinst with hshared | ⟨j, hj⟩
    · exact ⟨i, (hself h).2 hshared⟩
    · have hji : j ≠ i := by
        rintro rfl
        exact hi h hj
      exact ⟨j, (holds_update_ne hji).2 hj⟩

lemma Owner.putBack (ho : Owner handler generation actives installed) {h : H}
    (hi : Holds generation actives i h) :
    Owner (some h) generation (Function.update actives i (some ⟨none, generation⟩)) installed := by
  obtain ⟨hinst, hone⟩ := ho.call i h hi
  have hnone : ∀ j h', ¬ Holds generation (Function.update actives i (some ⟨none, generation⟩)) j h' := by
    intro j h' hj
    by_cases hji : j = i
    · subst hji
      simp [Holds] at hj
    · exact hji (hone j h' ((holds_update_ne hji).1 hj))
  refine ⟨?_, fun j h' hj => absurd hj (hnone j h'), ?_⟩
  · intro h' hh'
    exact ⟨hinst.trans hh', hnone⟩
  · intro h' hinst'
    exact .inl (hinst.symm.trans hinst')

lemma Owner.leave (ho : Owner handler generation actives installed)
    (hi : ∀ h, ¬ Holds generation actives i h) {a : Option (ActiveHandler H)}
    (ha : ∀ h, a ≠ some ⟨some h, generation⟩) :
    Owner handler generation (Function.update actives i a) installed := by
  have hiff : ∀ j h, Holds generation (Function.update actives i a) j h ↔
      Holds generation actives j h := by
    intro j h
    by_cases hji : j = i
    · subst hji
      refine ⟨fun hj => absurd ?_ (ha h), fun hj => absurd hj (hi h)⟩
      simpa [Holds] using hj
    · exact holds_update_ne hji
  refine ⟨?_, ?_, ?_⟩
  · intro h hh
    exact ⟨(ho.shared h hh).1, fun j h' hj => (ho.shared h hh).2 j h' ((hiff j h').1 hj)⟩
  · intro j h hj
    obtain ⟨hinst, hone⟩ := ho.call j h ((hiff j h).1 hj)
    exact ⟨hinst, fun k h' hk => hone k h' ((hiff k h').1 hk)⟩
  · intro h hinst
    rcases ho.held h hinst with hshared | ⟨j, hj⟩
    · exact .inl hshared
    · exact .inr ⟨j, (hiff j h).2 hj⟩

end Owner

/-! ### Handlers that are replaced -/

namespace Threads

variable {H E : Type} {n : ℕ} {t : Threads H E n}

/-- No handler is set while a call has looked at the generation and not yet taken its next event,
or while one still keeps the generation that this call comes to. -/
def Timely (t : Threads H E n) : Act H E n → Prop
  | .set _ => ∀ i, (t.places i).isNext = false ∧
      ∀ a ∈ (t.places i).active?, a.generation ≠ t.state.generation + 1
  | _ => True

instance [DecidableEq H] [DecidableEq E] (t : Threads H E n) : DecidablePred t.Timely
  | .set _ => inferInstanceAs (Decidable (∀ i, (t.places i).isNext = false ∧
      ∀ a ∈ (t.places i).active?, a.generation ≠ t.state.generation + 1))
  | .dispatch _ _ | .step _ => inferInstanceAs (Decidable True)

/-- While nothing is dispatched, the handler set last is the one installed, and events go to the
handler that was set last when they were taken. -/
structure GoesToLast (t : Threads H E n) : Prop where
  installed : (∀ i, t.places i = .idle) → t.state.handler = t.installed
  delivered : ∀ x ∈ t.delivered, x.handler = x.installed

/-- What is kept for it. -/
structure Kept (t : Threads H E n) : Prop where
  owner : Owner t.state.handler t.state.generation t.actives t.installed
  next : ∀ i a, t.places i = .next a → a.generation = t.state.generation
  leave : ∀ i a, t.places i = .leave a → a.handler = none
  delivered : ∀ x ∈ t.delivered, x.handler = x.installed

lemma Kept.goesToLast (h : Kept t) : GoesToLast t := by
  refine ⟨?_, h.delivered⟩
  intro hidle
  have hnone : ∀ i h', ¬ Holds t.state.generation t.actives i h' := by
    intro i h' hi
    unfold Holds actives at hi
    rw [hidle i] at hi
    cases hi
  cases hinst : t.installed with
  | some h' =>
    rcases h.owner.held h' hinst with hshared | ⟨i, hi⟩
    · exact hshared
    · exact absurd hi (hnone i h')
  | none =>
    cases hshared : t.state.handler with
    | none => rfl
    | some h' => exact absurd (hinst.symm.trans (h.owner.shared h' hshared).1) (by simp)

lemma actives_update (places : Fin n → Place H E) (i : Fin n) (place : Place H E) :
    (fun j => (Function.update places i place j).active?) =
      Function.update (fun j => (places j).active?) i place.active? := by
  funext j
  by_cases hji : j = i
  · subst hji
    simp
  · simp [Function.update_of_ne hji]

lemma kept_start (state : EventDispatch H E) : Kept (start (n := n) state) := by
  refine ⟨Owner.set (fun i a ha => by cases ha) _, ?_, ?_, ?_⟩
  · intro i a ha
    cases ha
  · intro i a ha
    cases ha
  · simp [start]

lemma Kept.set (h : Kept t) {handler : Option H} (hok : t.Timely (.set handler)) :
    Kept (t.setEventHandler handler) := by
  refine ⟨Owner.set (fun i a ha => ((hok i).2 a ha).symm ∘ Eq.symm) handler, ?_, h.leave, h.delivered⟩
  intro i a ha
  have hno : (t.places i).isNext = false := (hok i).1
  rw [show t.places i = .next a from ha] at hno
  cases hno

lemma Kept.go (h : Kept t) {i : Fin n} {state : EventDispatch H E} {place : Place H E}
    {dispatched : List E} {delivered : List (Delivery H E)}
    (hgeneration : state.generation = t.state.generation)
    (howner : Owner state.handler t.state.generation (Function.update t.actives i place.active?)
      t.installed)
    (hnext : ∀ a, place = .next a → a.generation = t.state.generation)
    (hleave : ∀ a, place = .leave a → a.handler = none)
    (hdelivered : ∀ x ∈ delivered, x.handler = x.installed) :
    Kept ⟨state, Function.update t.places i place, t.installed, dispatched, delivered⟩ := by
  refine ⟨?_, ?_, ?_, hdelivered⟩
  · show Owner state.handler state.generation
      (fun j => (Function.update t.places i place j).active?) t.installed
    rw [actives_update, hgeneration]
    exact howner
  · intro j a hj
    rw [hgeneration]
    by_cases hji : j = i
    · subst hji
      exact hnext a (by simpa using hj)
    · exact h.next j a (by simpa [Function.update_of_ne hji] using hj)
  · intro j a hj
    by_cases hji : j = i
    · subst hji
      exact hleave a (by simpa using hj)
    · exact h.leave j a (by simpa [Function.update_of_ne hji] using hj)

lemma Kept.dispatch (h : Kept t) (i : Fin n) (event : E) : Kept (t.dispatch i event) := by
  unfold Threads.dispatch
  cases hplace : t.places i with
  | idle =>
    have hfree : ∀ h', ¬ Holds t.state.generation t.actives i h' := by
      intro h' hi
      unfold Holds actives at hi
      rw [hplace] at hi
      cases hi
    have hstays := h.owner.leave hfree (a := none) (by simp)
    cases hdispatching : t.state.dispatching with
    | true =>
      rw [EventDispatch.enter_dispatching hdispatching]
      exact h.go rfl hstays (by simp) (by simp) h.delivered
    | false =>
      cases hhandler : t.state.handler with
      | none =>
        rw [EventDispatch.enter_none hdispatching hhandler]
        exact h.go rfl hstays (by simp) (by simp) h.delivered
      | some h' =>
        rw [EventDispatch.enter_some hdispatching hhandler]
        have hown := h.owner.take hfree
        rw [hhandler] at hown
        exact h.go rfl hown (by simp) (by simp) h.delivered
  | _ => exact h

lemma Kept.same (h : Kept t) {i : Fin n} {active : ActiveHandler H} (hactive : t.actives i = some active)
    {place : Place H E} (hplace : place.active? = some active) :
    Owner t.state.handler t.state.generation (Function.update t.actives i place.active?)
      t.installed := by
  rw [hplace, ← hactive, Function.update_eq_self]
  exact h.owner

lemma Kept.step (h : Kept t) (i : Fin n) : Kept (t.step i) := by
  unfold Threads.step
  cases hplace : t.places i with
  | idle => exact h
  | check active =>
    have hactive : t.actives i = some active := by simp [actives, hplace, Place.active?]
    dsimp only
    by_cases hsame : t.state.generation = active.generation
    · rw [EventDispatch.check_same hsame]
      exact h.go rfl (h.same hactive rfl) (by simp [hsame]) (by simp) h.delivered
    · rw [EventDispatch.check_changed hsame]
      -- the call was not of this generation and takes what is there
      have hfree : ∀ h', ¬ Holds t.state.generation t.actives i h' := by
        intro h' hi
        cases hactive.symm.trans hi
        exact hsame rfl
      exact h.go rfl (h.owner.take hfree) (by simp) (by simp) h.delivered
  | next active =>
    have hactive : t.actives i = some active := by simp [actives, hplace, Place.active?]
    have hcurrent := h.next i active hplace
    dsimp only
    cases hhandler : active.handler with
    | none =>
      rw [EventDispatch.next_none hhandler]
      exact h.go rfl (h.same hactive rfl) (by simp) (by simp [hhandler]) h.delivered
    | some h' =>
      have hholds : Holds t.state.generation t.actives i h' := by
        unfold Holds
        rw [hactive, ← hhandler, ← hcurrent]
      cases hqueued : t.state.queued with
      | nil =>
        rw [EventDispatch.next_nil hhandler hqueued]
        have hback := h.owner.putBack hholds
        rw [← hcurrent] at hback
        refine h.go rfl ?_ (by simp) (by simp) h.delivered
        rw [← hcurrent]
        exact hback
      | cons event queued =>
        rw [EventDispatch.next_cons hhandler hqueued]
        refine h.go rfl (h.same hactive rfl) (by simp) (by simp) ?_
        intro x hx
        rcases List.mem_append.1 hx with hx | hx
        · exact h.delivered x hx
        · rw [List.mem_singleton.1 hx, (h.owner.call i h' hholds).1, ← hhandler]
  | call active event =>
    have hactive : t.actives i = some active := by simp [actives, hplace, Place.active?]
    exact h.go rfl (h.same hactive rfl) (by simp) (by simp) h.delivered
  | leave active =>
    have hactive : t.actives i = some active := by simp [actives, hplace, Place.active?]
    have hnone := h.leave i active hplace
    dsimp only
    rw [EventDispatch.leave_none hnone]
    have hfree : ∀ h', ¬ Holds t.state.generation t.actives i h' := by
      intro h' hi
      cases hactive.symm.trans hi
      cases hnone
    exact h.go rfl (h.owner.leave hfree (by simp [Place.active?])) (by simp) (by simp) h.delivered

/-- **Handlers that are replaced.** In a run whose calls of `set_event_handler` are timely, events
go to the handler that was set last. -/
theorem goesToLast_of_timely (n : ℕ) (acts : List (Act H E n))
    (h : Admits act Timely acts (start .standard)) :
    GoesToLast (after act acts (start .standard)) := by
  refine (h.keeps (fun t a hok hkept => ?_) (kept_start _)).goesToLast
  cases a with
  | set handler => exact hkept.set hok
  | dispatch i event => exact hkept.dispatch i event
  | step i => exact hkept.step i

theorem goesToLast_replaced_in_call :
    GoesToLast (after act [.set (some 1), .dispatch 0 10, .step 0, .step 0, .dispatch 1 11,
      .set (some 2), .step 0, .step 0, .step 0, .step 0] (start .standard : Threads ℕ ℕ 2)) :=
  goesToLast_of_timely 2 _ (by decide +kernel)

/-- A handler is set between the last look at the generation and the end of the loop, which then puts
the old one back over it. -/
theorem not_goesToLast_put_back :
    ¬ GoesToLast (after act [.set (some 1), .dispatch 0 10, .step 0, .step 0, .step 0, .step 0,
      .set (some 2), .step 0, .step 0] (start .standard : Threads ℕ ℕ 2)) := by
  intro h
  exact absurd (h.installed (by decide)) (by decide)

end Threads

end PipewireNative.Proxy
