import PipewireNative.Proxy.Dispatch

/-!
One thread that dispatches events and sets handlers, also from inside its handlers. The calls that
go on are a stack; the code on top of them, the handler of the topmost call or what made the first
one, does the next act. A handler that panics drops the guards of all of them.
-/

namespace PipewireNative.Proxy

open Lib

/-- The shared state, the calls that go on with the innermost first, and what has happened: the
handler set last, the events in the order of their calls, the deliveries, and how often a handler
was set since the last of them. -/
structure Nested (H E : Type) where
  state : EventDispatch H E
  stack : List (Place H E)
  installed : Option H
  dispatched : List E
  delivered : List (Delivery H E)
  sets : ℕ

namespace Nested

variable {H E : Type}

inductive Act (H E : Type) where
  | set (handler : Option H)
  | dispatch (event : E)
  | step
  | ret
  | panic

def start : Nested H E := ⟨.standard, [], none, [], [], 0⟩

variable (t : Nested H E)

/-- Whether the code that calls and handles is on top. -/
def atCode : Bool :=
  match t.stack with
  | [] => true
  | place :: _ => place.isCall

def setEventHandler (handler : Option H) : Nested H E :=
  if t.atCode then
    { t with state := t.state.setEventHandler handler, installed := handler, sets := t.sets + 1 }
  else t

def dispatch (event : E) : Nested H E :=
  if t.atCode then
    let r := t.state.enter event
    { t with
      state := r.1
      stack := match r.2 with
        | none => t.stack
        | some active => .check active :: t.stack
      dispatched := t.dispatched ++ [event] }
  else t

/-- The next section of the topmost call. -/
def step : Nested H E :=
  match t.stack with
  | .check active :: stack =>
    let r := t.state.check active
    { t with state := r.1, stack := (if r.2.2 then .check r.2.1 else .next r.2.1) :: stack }
  | .next active :: stack =>
    let r := t.state.next active
    match r.2 with
    | .deliver event =>
      { t with
        state := r.1
        stack := .call active event :: stack
        delivered := t.delivered ++ [⟨event, active.handler, t.installed⟩]
        sets := 0 }
    | .over active => { t with state := r.1, stack := .leave active :: stack }
  | .leave active :: stack => { t with state := t.state.leave active, stack }
  | _ => t

/-- The handler returns. -/
def ret : Nested H E :=
  match t.stack with
  | .call active _ :: stack => { t with stack := .check active :: stack }
  | _ => t

/-- The drop of a call's guard. -/
def unwind (d : EventDispatch H E) (place : Place H E) : EventDispatch H E :=
  match place.active? with
  | none => d
  | some active => d.leave active

/-- The handler panics, and so does every call that waits for it. -/
def panic : Nested H E :=
  match t.stack with
  | .call active event :: stack =>
    { t with state := (.call active event :: stack).foldl unwind t.state, stack := [] }
  | _ => t

def act : Act H E → Nested H E
  | .set handler => t.setEventHandler handler
  | .dispatch event => t.dispatch event
  | .step => t.step
  | .ret => t.ret
  | .panic => t.panic

/-- The generation tells whether a handler was set since the last delivery. -/
def Told : Prop := t.sets % 2 ^ 64 = 0 → t.sets = 0

instance : Decidable t.Told := inferInstanceAs (Decidable (_ → _))

/-- A handler that comes to its end has not set handlers a multiple of `2 ^ 64` times. -/
def Counted (t : Nested H E) : Act H E → Prop
  | .ret | .panic => t.Told
  | _ => True

instance : DecidablePred t.Counted
  | .ret | .panic => inferInstanceAs (Decidable t.Told)
  | .set _ | .dispatch _ | .step => inferInstanceAs (Decidable True)

/-- Events go in order, each at most once, to the handler that was set last. When it is left cleared
the queue is dropped, and when it panics neither the queue is lost nor the handler. -/
structure Upholds (t : Nested H E) : Prop where
  inOrder : (t.delivered.map (·.event) ++ t.state.queued).Sublist t.dispatched
  handler : ∀ x ∈ t.delivered, x.handler = x.installed
  cleared : ∀ active event stack, t.stack = .call active event :: stack → t.Told →
    t.installed = none → ((after act [.ret, .step, .step, .step, .step] t).stack = [] ∧
      (after act [.ret, .step, .step, .step, .step] t).state.queued = [] ∧
      (after act [.ret, .step, .step, .step, .step] t).delivered = t.delivered)
  panic : ∀ active event stack, t.stack = .call active event :: stack → t.Told →
    t.panic.state.queued = t.state.queued ∧ t.panic.state.handler = t.installed ∧
      (t.sets = 0 → t.panic.state.handler = active.handler)
  flag : t.stack = [] → t.state.dispatching = false

/-! ### What holds at each place -/

variable {t}

/-- How the shared state is while a call is at a place, with the handler set last and how often one
was set since the last delivery. -/
def Fits (d : EventDispatch H E) (installed : Option H) (sets : ℕ) : Place H E → Prop
  | .idle => False
  | .check active => d.dispatching = true ∧
      if d.generation = active.generation then active.handler = installed ∧ d.handler = none
      else d.handler = installed
  | .next active => d.dispatching = true ∧ d.generation = active.generation ∧
      active.handler = installed ∧ d.handler = none
  | .call active _ => d.dispatching = true ∧ active.handler ≠ none ∧
      d.generation = active.generation + UInt64.ofNat sets ∧
      if sets = 0 then active.handler = installed ∧ d.handler = none else d.handler = installed
  | .leave active => d.dispatching = false ∧ active.handler = none ∧ d.handler = installed

/-- There is at most one call that goes on. -/
structure Sound (t : Nested H E) : Prop where
  quiet : t.stack = [] → t.state.dispatching = false ∧ t.state.handler = t.installed
  single : ∀ place stack, t.stack = place :: stack →
    stack = [] ∧ Fits t.state t.installed t.sets place
  inOrder : (t.delivered.map (·.event) ++ t.state.queued).Sublist t.dispatched
  handler : ∀ x ∈ t.delivered, x.handler = x.installed

lemma sound_start : Sound (start : Nested H E) :=
  ⟨fun _ => ⟨rfl, rfl⟩, fun _ _ h => (nomatch h), List.Sublist.refl [], fun _ h => (nomatch h)⟩

lemma sound_at {state : EventDispatch H E} {place : Place H E} {installed : Option H}
    {dispatched : List E} {delivered : List (Delivery H E)} {sets : ℕ}
    (hfits : Fits state installed sets place)
    (hinOrder : (delivered.map (·.event) ++ state.queued).Sublist dispatched)
    (hhandler : ∀ x ∈ delivered, x.handler = x.installed) :
    Sound ⟨state, [place], installed, dispatched, delivered, sets⟩ := by
  refine ⟨fun h => (nomatch h), ?_, hinOrder, hhandler⟩
  intro place' stack h
  obtain ⟨rfl, rfl⟩ := List.cons.inj h
  exact ⟨rfl, hfits⟩

lemma sound_nil {state : EventDispatch H E} {installed : Option H}
    {dispatched : List E} {delivered : List (Delivery H E)} {sets : ℕ}
    (hdispatching : state.dispatching = false) (hinstalled : state.handler = installed)
    (hinOrder : (delivered.map (·.event) ++ state.queued).Sublist dispatched)
    (hhandler : ∀ x ∈ delivered, x.handler = x.installed) :
    Sound ⟨state, [], installed, dispatched, delivered, sets⟩ :=
  ⟨fun _ => ⟨hdispatching, hinstalled⟩, fun _ _ h => (nomatch h), hinOrder, hhandler⟩

lemma generation_eq_iff (generation : UInt64) (ht : t.Told) :
    generation + UInt64.ofNat t.sets = generation ↔ t.sets = 0 := by
  have hzero : UInt64.ofNat t.sets = 0 ↔ t.sets % 2 ^ 64 = 0 := by
    rw [← UInt64.toNat_inj]
    simp
  constructor
  · intro h
    exact ht (hzero.1 (by simpa using h))
  · intro h
    simp [h]

lemma Fits.ended {active : ActiveHandler H} {event : E}
    (hfits : Fits t.state t.installed t.sets (.call active event)) (ht : t.Told) :
    if t.state.generation = active.generation then
      t.sets = 0 ∧ active.handler = t.installed ∧ t.state.handler = none
    else t.sets ≠ 0 ∧ t.state.handler = t.installed := by
  obtain ⟨-, -, hgeneration, hhandler⟩ := hfits
  have hiff := generation_eq_iff active.generation ht
  rw [← hgeneration] at hiff
  by_cases hsets : t.sets = 0
  · rw [if_pos hsets] at hhandler
    rw [if_pos (hiff.2 hsets)]
    exact ⟨hsets, hhandler⟩
  · rw [if_neg hsets] at hhandler
    rw [if_neg (fun h => hsets (hiff.1 h))]
    exact ⟨hsets, hhandler⟩

lemma Fits.leave {active : ActiveHandler H} {event : E}
    (hfits : Fits t.state t.installed t.sets (.call active event)) (ht : t.Told) :
    (t.state.leave active).dispatching = false ∧ (t.state.leave active).queued = t.state.queued ∧
      (t.state.leave active).handler = t.installed ∧
      (t.sets = 0 → (t.state.leave active).handler = active.handler) := by
  have hended := hfits.ended ht
  unfold EventDispatch.leave
  by_cases hgeneration : t.state.generation = active.generation
  · rw [if_pos hgeneration] at hended
    obtain ⟨-, hactive, hnone⟩ := hended
    rw [if_pos ⟨hgeneration, by simp [hnone]⟩]
    exact ⟨rfl, rfl, hactive, fun _ => rfl⟩
  · rw [if_neg hgeneration] at hended
    obtain ⟨hsets, hhandler⟩ := hended
    rw [if_neg (fun h => hgeneration h.1)]
    exact ⟨rfl, rfl, hhandler, fun h => absurd h hsets⟩

/-! ### What an act keeps -/

lemma Sound.setEventHandler (hs : Sound t) (handler : Option H) : Sound (t.setEventHandler handler) := by
  unfold Nested.setEventHandler
  split_ifs with hcode
  · obtain ⟨state, stack, installed, dispatched, delivered, sets⟩ := t
    cases stack with
    | nil => exact sound_nil (hs.quiet rfl).1 rfl hs.inOrder hs.handler
    | cons place stack =>
      obtain ⟨rfl, hfits⟩ := hs.single place stack rfl
      cases place with
      | call active event =>
        obtain ⟨hdispatching, hne, hgeneration, -⟩ := hfits
        refine sound_at ⟨hdispatching, hne, ?_, ?_⟩ hs.inOrder hs.handler
        · show state.generation + 1 = _
          rw [show state.generation = _ from hgeneration]
          simp [UInt64.add_assoc]
        · rw [if_neg (Nat.succ_ne_zero _)]
          rfl
      | _ => cases hcode
  · exact hs

lemma Sound.dispatch (hs : Sound t) (event : E) : Sound (t.dispatch event) := by
  unfold Nested.dispatch
  split_ifs with hcode
  · obtain ⟨state, stack, installed, dispatched, delivered, sets⟩ := t
    have hmore : ∀ {queued}, (delivered.map (·.event) ++ queued).Sublist dispatched →
        (delivered.map (·.event) ++ (queued ++ [event])).Sublist (dispatched ++ [event]) := by
      intro queued h
      rw [← List.append_assoc]
      exact h.append_right [event]
    cases stack with
    | nil =>
      obtain ⟨hdispatching, hinstalled⟩ := hs.quiet rfl
      dsimp only
      cases hhandler : state.handler with
      | none =>
        rw [EventDispatch.enter_none hdispatching hhandler]
        exact sound_nil hdispatching hinstalled
          (hs.inOrder.trans (List.sublist_append_left _ _)) hs.handler
      | some handler =>
        rw [EventDispatch.enter_some hdispatching hhandler]
        refine sound_at ⟨rfl, ?_⟩ (hmore hs.inOrder) hs.handler
        rw [if_pos rfl]
        exact ⟨hhandler.symm.trans hinstalled, rfl⟩
    | cons place stack =>
      obtain ⟨rfl, hfits⟩ := hs.single place stack rfl
      cases place with
      | call active event' =>
        dsimp only
        rw [EventDispatch.enter_dispatching hfits.1]
        exact sound_at hfits (hmore hs.inOrder) hs.handler
      | _ => cases hcode
  · exact hs

lemma Sound.step (hs : Sound t) : Sound t.step := by
  obtain ⟨state, stack, installed, dispatched, delivered, sets⟩ := t
  cases stack with
  | nil => exact hs
  | cons place stack =>
    obtain ⟨rfl, hfits⟩ := hs.single place stack rfl
    unfold Nested.step
    cases place with
    | idle | call _ _ => exact hs
    | check active =>
      obtain ⟨hdispatching, hhandler⟩ := hfits
      dsimp only at hhandler ⊢
      by_cases hsame : state.generation = active.generation
      · rw [if_pos hsame] at hhandler
        rw [EventDispatch.check_same hsame]
        exact sound_at ⟨hdispatching, hsame, hhandler⟩ hs.inOrder hs.handler
      · rw [if_neg hsame] at hhandler
        rw [EventDispatch.check_changed hsame]
        refine sound_at ⟨hdispatching, ?_⟩ hs.inOrder hs.handler
        rw [if_pos rfl]
        exact ⟨hhandler, rfl⟩
    | next active =>
      obtain ⟨hdispatching, hsame, hinstalled, hnone⟩ := hfits
      dsimp only at hinstalled hnone ⊢
      cases hhandler : active.handler with
      | none =>
        rw [EventDispatch.next_none hhandler]
        refine sound_at ⟨rfl, hhandler, ?_⟩ ?_ hs.handler
        · exact hnone.trans (hhandler.symm.trans hinstalled)
        · rw [List.append_nil]
          exact (List.sublist_append_left _ _).trans hs.inOrder
      | some handler =>
        cases hqueued : state.queued with
        | nil =>
          rw [EventDispatch.next_nil hhandler hqueued]
          exact sound_at ⟨rfl, rfl, hhandler.symm.trans hinstalled⟩ hs.inOrder hs.handler
        | cons event queued =>
          rw [EventDispatch.next_cons hhandler hqueued]
          refine sound_at ⟨hdispatching, by simp [hhandler], ?_, ?_⟩ ?_ ?_
          · simpa using hsame
          · rw [if_pos rfl]
            exact ⟨hinstalled, hnone⟩
          · have hinOrder := hs.inOrder
            dsimp only at hinOrder
            rw [hqueued] at hinOrder
            simpa using hinOrder
          · intro x hx
            rcases List.mem_append.1 hx with hx | hx
            · exact hs.handler x hx
            · rw [List.mem_singleton.1 hx]
              exact hhandler.symm.trans hinstalled
    | leave active =>
      obtain ⟨-, hnone, hinstalled⟩ := hfits
      dsimp only at hinstalled ⊢
      rw [EventDispatch.leave_none hnone]
      exact sound_nil rfl hinstalled hs.inOrder hs.handler

lemma Sound.ret (hs : Sound t) (ht : t.Told) : Sound t.ret := by
  unfold Nested.ret
  split
  case h_1 active event stack hstack =>
    obtain ⟨rfl, hfits⟩ := hs.single _ _ hstack
    refine sound_at ⟨hfits.1, ?_⟩ hs.inOrder hs.handler
    have hended := hfits.ended ht
    by_cases hsame : t.state.generation = active.generation
    · rw [if_pos hsame] at hended ⊢
      exact hended.2
    · rw [if_neg hsame] at hended ⊢
      exact hended.2
  case h_2 => exact hs

lemma Sound.panic_eq (hs : Sound t) {active : ActiveHandler H} {event : E} {stack : List (Place H E)}
    (hstack : t.stack = .call active event :: stack) :
    t.panic = { t with state := t.state.leave active, stack := [] } := by
  obtain ⟨rfl, -⟩ := hs.single _ _ hstack
  unfold Nested.panic
  rw [hstack]
  rfl

lemma Sound.panic (hs : Sound t) (ht : t.Told) : Sound t.panic := by
  by_cases hcall : ∃ active event stack, t.stack = .call active event :: stack
  · obtain ⟨active, event, stack, hstack⟩ := hcall
    rw [hs.panic_eq hstack]
    obtain ⟨hdispatching, hqueued, hhandler, -⟩ := (hs.single _ _ hstack).2.leave ht
    refine sound_nil hdispatching hhandler ?_ hs.handler
    rw [hqueued]
    exact hs.inOrder
  · unfold Nested.panic
    split
    case h_1 active event stack hstack => exact absurd ⟨_, _, _, hstack⟩ hcall
    case h_2 => exact hs

lemma Sound.act (hs : Sound t) (a : Act H E) (ha : t.Counted a) : Sound (t.act a) := by
  cases a with
  | set handler => exact hs.setEventHandler handler
  | dispatch event => exact hs.dispatch event
  | step => exact hs.step
  | ret => exact hs.ret ha
  | panic => exact hs.panic ha

lemma Sound.cleared (hs : Sound t) {active : ActiveHandler H} {event : E} {stack : List (Place H E)}
    (hstack : t.stack = .call active event :: stack) (ht : t.Told) (hinstalled : t.installed = none) :
    after Nested.act [.ret, .step, .step, .step, .step] t =
      { t with stack := [], state := ⟨none, [], false, t.state.generation⟩ } := by
  obtain ⟨rfl, hfits⟩ := hs.single _ _ hstack
  have hended := hfits.ended ht
  have hchanged : t.state.generation ≠ active.generation := by
    intro hsame
    rw [if_pos hsame] at hended
    exact hfits.2.1 (hended.2.1.trans hinstalled)
  rw [if_neg hchanged] at hended
  have hnone : t.state.handler = none := hended.2.trans hinstalled
  obtain ⟨⟨handler, queued, dispatching, generation⟩, stack, installed, dispatched, delivered, sets⟩ := t
  dsimp only at hstack hnone hchanged
  subst hstack hnone
  simp [Nested.act, Nested.ret, Nested.step, EventDispatch.check, EventDispatch.next,
    EventDispatch.leave, hchanged]

lemma Sound.upholds (hs : Sound t) : Upholds t := by
  refine ⟨hs.inOrder, hs.handler, ?_, ?_, fun h => (hs.quiet h).1⟩
  · intro active event stack hstack ht hinstalled
    rw [hs.cleared hstack ht hinstalled]
    exact ⟨rfl, rfl, rfl⟩
  · intro active event stack hstack ht
    rw [hs.panic_eq hstack]
    exact ((hs.single _ _ hstack).2.leave ht).2

/-- **Calls from inside handlers.** What is asked of the events and the handlers holds after every
run in which no handler comes to its end after setting handlers a multiple of `2 ^ 64` times. -/
theorem upholds_of_counted (acts : List (Act H E)) (h : Admits act Counted acts start) :
    Upholds (after act acts start) :=
  (h.keeps (fun _ a ha hs => Sound.act hs a ha) sound_start).upholds

theorem upholds_replaced_then_panic :
    Upholds (after act [.set (some 1), .dispatch 10, .step, .step, .dispatch 11, .set (some 2), .ret,
      .step, .step, .step, .dispatch 12, .panic] (start : Nested ℕ ℕ)) :=
  upholds_of_counted _ (by decide +kernel)

/-! ### A generation that comes round -/

lemma after_sets (hcode : t.atCode = true) (handler : Option H) (k : ℕ) :
    after act (List.replicate (k + 1) (.set handler)) t =
      { t with
        state := { t.state with generation := t.state.generation + UInt64.ofNat (k + 1), handler }
        installed := handler
        sets := t.sets + (k + 1) } := by
  induction k generalizing t with
  | zero =>
    show t.setEventHandler handler = _
    unfold Nested.setEventHandler EventDispatch.setEventHandler
    rw [if_pos hcode]
    rfl
  | succ k ih =>
    have hset : t.act (.set handler) =
        { t with state := t.state.setEventHandler handler, installed := handler, sets := t.sets + 1 } :=
      if_pos hcode
    have hcode' : (t.act (.set handler)).atCode = true := by
      rw [hset]
      exact hcode
    rw [List.replicate_succ, after_cons, ih hcode', hset]
    have hgeneration : t.state.generation + 1 + UInt64.ofNat (k + 1) =
        t.state.generation + UInt64.ofNat (k + 1 + 1) := by
      rw [UInt64.ofNat_add (k + 1) 1, UInt64.add_assoc, UInt64.add_comm 1]
      rfl
    simp only [EventDispatch.setEventHandler, hgeneration]
    congr 1
    omega

/-- A handler that sets another one `2 ^ 64` times, and then gets the event that is queued. -/
theorem not_upholds_round :
    ¬ Upholds (after act ([.set (some 1), .dispatch 10, .step, .step, .dispatch 11] ++
      (List.replicate (2 ^ 64 - 1 + 1) (.set (some 2)) ++ [.ret, .step, .step]))
      (start : Nested ℕ ℕ)) := by
  intro h
  rw [after_append, after_append, after_sets (by decide)] at h
  exact absurd (h.handler ⟨11, some 1, some 2⟩ (by decide)) (by decide)

end Nested

end PipewireNative.Proxy
