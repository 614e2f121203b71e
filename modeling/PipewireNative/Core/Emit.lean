import PipewireNative.Core.Hook
import PipewireNative.Lib.Run

/-!
Emissions on one list of hooks by any number of threads. The list is behind a mutex, which is held
for one section at a time: the sections of `emit_hook!` are those of `begin_dispatch`,
`dispatch_ids`, `dispatch` and the two guards that are dropped, and callbacks run between them. What a
callback does with the list is open; it may add and remove hooks and emit again.
-/

namespace PipewireNative.Core

open Lib

variable {ι α M : Type}

/-- The list with the thread that emits and how deeply its emissions are nested. -/
structure Emitter (ι α : Type) where
  list : HookList α
  owner : Option ι
  depth : ℕ

namespace Emitter

def new : Emitter ι α := ⟨.new, none, 0⟩

/-- Nothing comes of it while the thread waits for another one's emission. -/
def beginDispatch [DecidableEq ι] (e : Emitter ι α) (t : ι) : Option (Emitter ι α) :=
  match e.owner with
  | none => some { e with owner := some t, depth := 1 }
  | some owner => if owner = t then some { e with depth := e.depth + 1 } else none

/-- The drop of `HookEmission`. -/
def endDispatch (e : Emitter ι α) : Emitter ι α :=
  if e.depth - 1 = 0 then { e with owner := none, depth := 0 } else { e with depth := e.depth - 1 }

lemma list_beginDispatch [DecidableEq ι] {e e' : Emitter ι α} {t : ι} (h : e.beginDispatch t = some e') :
    e'.list = e.list := by
  unfold beginDispatch at h
  split at h
  · cases h
    rfl
  · split_ifs at h
    cases h
    rfl

lemma list_endDispatch (e : Emitter ι α) : e.endDispatch.list = e.list := by
  unfold endDispatch
  split_ifs <;> rfl

end Emitter

/-- The turn of a hook in an emission: whether it was removed before and whether it was being called
further up the stack, and the callbacks that were taken to be called. -/
structure Turn (α : Type) where
  id : ℕ
  removed : Bool
  active : Bool
  called : Option α
  deriving DecidableEq

/-- What became of an emission so far: the event it is of, the hooks there were when it began, how
many had been added up to then, and the turns. -/
structure Emission (α M : Type) where
  method : M
  begun : List ℕ
  start : ℕ
  turns : List (Turn α)
  deriving DecidableEq

/-- Where `emit_hook!` is. -/
inductive Stage (α : Type)
  /-- Behind `begin_dispatch`. -/
  | entered
  /-- Before the turn of the next id. -/
  | looping (todo : List ℕ)
  /-- With the `HookDispatch` of an id. -/
  | calling (todo : List ℕ) (id : ℕ) (callbacks : α)
  deriving DecidableEq

structure Frame (α M : Type) where
  emission : Emission α M
  stage : Stage α
  deriving DecidableEq

def Stage.active? : Stage α → Option ℕ
  | .calling _ id _ => some id
  | _ => none

/-- The hooks that are being called, the innermost first. -/
def active (stack : List (Frame α M)) : List ℕ := stack.filterMap (·.stage.active?)

/-- The list and the emissions of every thread, the innermost first, with what happened so far: the
hooks that were added and removed, and the emissions that ended. -/
structure Scene (ι α M : Type) where
  emitter : Emitter ι α
  stackOf : ι → List (Frame α M)
  added : List (ℕ × α)
  removed : List ℕ
  ended : List (Emission α M)

/-- What a thread does under the mutex. -/
inductive Section (α M : Type)
  | append (callbacks : α)
  | prepend (callbacks : α)
  | remove (id : ℕ)
  | enter (method : M)
  | ids
  | dispatch
  | restore
  | leave
  deriving DecidableEq

namespace Scene

def new : Scene ι α M := ⟨.new, fun _ => [], [], [], []⟩

abbrev list (w : Scene ι α M) : HookList α := w.emitter.list

abbrev owner (w : Scene ι α M) : Option ι := w.emitter.owner

abbrev depth (w : Scene ι α M) : ℕ := w.emitter.depth

variable [DecidableEq ι]

def setList (w : Scene ι α M) (list : HookList α) : Scene ι α M :=
  { w with emitter := { w.emitter with list } }

def setStack (w : Scene ι α M) (t : ι) (stack : List (Frame α M)) : Scene ι α M :=
  { w with stackOf := Function.update w.stackOf t stack }

/-- The turn of a hook, with the emissions `outer` around. -/
def turn (w : Scene ι α M) (outer : List (Frame α M)) (id : ℕ) : Turn α :=
  ⟨id, id ∈ w.removed, id ∈ active outer, w.list.callbacks id⟩

def step (w : Scene ι α M) : ι × Section α M → Scene ι α M
  | (_, .append callbacks) =>
    { w.setList (w.list.append callbacks) with added := w.added ++ [(w.list.nextId, callbacks)] }
  | (_, .prepend callbacks) =>
    { w.setList (w.list.prepend callbacks) with added := w.added ++ [(w.list.nextId, callbacks)] }
  | (_, .remove id) =>
    { w.setList (w.list.remove id) with
      removed := if id ∈ w.list.ids then id :: w.removed else w.removed }
  | (t, .enter method) =>
    match w.emitter.beginDispatch t with
    | none => w
    | some emitter =>
      { w.setStack t (⟨⟨method, w.list.ids, w.added.length, []⟩, .entered⟩ :: w.stackOf t) with emitter }
  | (t, .ids) =>
    match w.stackOf t with
    | ⟨e, .entered⟩ :: outer => w.setStack t (⟨e, .looping w.list.ids⟩ :: outer)
    | _ => w
  | (t, .dispatch) =>
    match w.stackOf t with
    | ⟨e, .looping (id :: todo)⟩ :: outer =>
      let e := { e with turns := e.turns ++ [w.turn outer id] }
      match w.list.callbacks id with
      | none => w.setStack t (⟨e, .looping todo⟩ :: outer)
      | some callbacks =>
        (w.setList (w.list.put id none)).setStack t (⟨e, .calling todo id callbacks⟩ :: outer)
    | _ => w
  | (t, .restore) =>
    match w.stackOf t with
    | ⟨e, .calling todo id callbacks⟩ :: outer =>
      (w.setList (w.list.put id (some callbacks))).setStack t (⟨e, .looping todo⟩ :: outer)
    | _ => w
  | (t, .leave) =>
    match w.stackOf t with
    | ⟨e, .looping _⟩ :: outer =>
      { w.setStack t outer with emitter := w.emitter.endDispatch, ended := e :: w.ended }
    | _ => w

/-- The ids are 32 bits wide: the addition that would give the next one panics. -/
def idBound : ℕ := 2 ^ 32

/-- A thread is not within `emit_hook!`, or in a callback of it: the event's, where the hook has one
for it. -/
def Outside (has : M → α → Bool) : List (Frame α M) → Prop
  | [] => True
  | ⟨e, .calling _ _ callbacks⟩ :: _ => has e.method callbacks = true
  | _ :: _ => False

/-- What a thread may do next. It leaves an emission when there is no turn left, and earlier when a
callback's panic goes through. -/
def Enabled (has : M → α → Bool) (w : Scene ι α M) : ι × Section α M → Prop
  | (t, .append _) | (t, .prepend _) => Outside has (w.stackOf t) ∧ w.list.nextId + 1 < idBound
  | (t, .remove _) => Outside has (w.stackOf t)
  | (t, .enter _) => Outside has (w.stackOf t) ∧ (w.emitter.beginDispatch t).isSome = true
  | (t, .ids) => ∃ e outer, w.stackOf t = ⟨e, .entered⟩ :: outer
  | (t, .dispatch) => ∃ e id todo outer, w.stackOf t = ⟨e, .looping (id :: todo)⟩ :: outer
  | (t, .restore) => ∃ e todo id callbacks outer, w.stackOf t = ⟨e, .calling todo id callbacks⟩ :: outer
  | (t, .leave) => ∃ e todo outer, w.stackOf t = ⟨e, .looping todo⟩ :: outer

/-! ### What a section does -/

variable {w : Scene ι α M} {t : ι} {e : Emission α M} {todo : List ℕ} {outer : List (Frame α M)}
  {i : ℕ} {callbacks : α}

lemma step_ids (h : w.stackOf t = ⟨e, .entered⟩ :: outer) :
    w.step (t, .ids) = w.setStack t (⟨e, .looping w.list.ids⟩ :: outer) := by
  simp only [step, h]

lemma step_skip (h : w.stackOf t = ⟨e, .looping (i :: todo)⟩ :: outer)
    (hcallbacks : w.list.callbacks i = none) : w.step (t, .dispatch) =
      w.setStack t (⟨{ e with turns := e.turns ++ [w.turn outer i] }, .looping todo⟩ :: outer) := by
  simp only [step, h, hcallbacks]

lemma step_take (h : w.stackOf t = ⟨e, .looping (i :: todo)⟩ :: outer)
    (hcallbacks : w.list.callbacks i = some callbacks) : w.step (t, .dispatch) =
      (w.setList (w.list.put i none)).setStack t
        (⟨{ e with turns := e.turns ++ [w.turn outer i] }, .calling todo i callbacks⟩ :: outer) := by
  simp only [step, h, hcallbacks]

lemma step_restore (h : w.stackOf t = ⟨e, .calling todo i callbacks⟩ :: outer) :
    w.step (t, .restore) = (w.setList (w.list.put i (some callbacks))).setStack t
      (⟨e, .looping todo⟩ :: outer) := by
  simp only [step, h]

lemma step_leave (h : w.stackOf t = ⟨e, .looping todo⟩ :: outer) : w.step (t, .leave) =
    { w.setStack t outer with emitter := w.emitter.endDispatch, ended := e :: w.ended } := by
  simp only [step, h]

/-! ### Who emits -/

/-- The owner is the one thread that has emissions, and the depth is how many. -/
structure Owned (w : Scene ι α M) : Prop where
  owner_iff : ∀ t, w.owner = some t ↔ w.stackOf t ≠ []
  depth_eq : ∀ t, w.owner = some t → w.depth = (w.stackOf t).length
  reset : w.owner = none → w.depth = 0

omit [DecidableEq ι] in
lemma owned_new : Owned (new : Scene ι α M) where
  owner_iff _ := by simp [new, Emitter.new]
  depth_eq _ h := nomatch h
  reset _ := rfl

omit [DecidableEq ι] in
lemma Owned.others (h : Owned w) (ht : w.stackOf t ≠ []) {u : ι} (hu : u ≠ t) : w.stackOf u = [] := by
  by_contra hne
  have hsame := ((h.owner_iff u).2 hne).symm.trans ((h.owner_iff t).2 ht)
  exact hu (Option.some.inj hsame)

omit [DecidableEq ι] in
lemma Owned.same {w' : Scene ι α M} (h : Owned w) (howner : w'.owner = w.owner)
    (hdepth : w'.depth = w.depth) (hstacks : w'.stackOf = w.stackOf) : Owned w' := by
  refine ⟨?_, ?_, ?_⟩
  · rw [howner, hstacks]
    exact h.owner_iff
  · rw [howner, hdepth, hstacks]
    exact h.depth_eq
  · rw [howner, hdepth]
    exact h.reset

lemma Owned.setStack {frame frame' : Frame α M} (h : Owned w) (ht : w.stackOf t = frame :: outer) :
    Owned (w.setStack t (frame' :: outer)) where
  owner_iff u := by
    change w.owner = some u ↔ Function.update w.stackOf t _ u ≠ []
    rw [h.owner_iff]
    by_cases hu : u = t
    · subst hu
      rw [Function.update_self, ht]
      exact iff_of_true (List.cons_ne_nil _ _) (List.cons_ne_nil _ _)
    · rw [Function.update_of_ne hu]
  depth_eq u hu := by
    change w.depth = (Function.update w.stackOf t _ u).length
    rw [h.depth_eq u hu]
    by_cases hut : u = t
    · subst hut
      rw [Function.update_self, ht, List.length_cons, List.length_cons]
    · rw [Function.update_of_ne hut]
  reset := h.reset

lemma Owned.enter {frame : Frame α M} {emitter : Emitter ι α} (h : Owned w)
    (hbegin : w.emitter.beginDispatch t = some emitter) :
    Owned { w.setStack t (frame :: w.stackOf t) with emitter } ∧
      ∀ u, u ≠ t → w.stackOf u = [] := by
  unfold Emitter.beginDispatch at hbegin
  have hfree : emitter.owner = some t ∧
      emitter.depth = (w.stackOf t).length + 1 ∧ ∀ u, u ≠ t → w.stackOf u = [] := by
    split at hbegin
    · next hnone =>
      cases hbegin
      have hnobody : ∀ u, w.stackOf u = [] := fun u => by
        by_contra hne
        cases hnone.symm.trans ((h.owner_iff u).2 hne)
      refine ⟨rfl, ?_, fun u _ => hnobody u⟩
      rw [hnobody t]
      rfl
    · next owner hsome =>
      split_ifs at hbegin with howner
      cases hbegin
      subst howner
      refine ⟨hsome, ?_, fun u hu => h.others ((h.owner_iff owner).1 hsome) hu⟩
      exact congrArg (· + 1) (h.depth_eq owner hsome)
  obtain ⟨howner, hdepth, hothers⟩ := hfree
  refine ⟨⟨fun u => ?_, fun u hu => ?_, fun hnone => ?_⟩, hothers⟩
  · change emitter.owner = some u ↔ Function.update w.stackOf t _ u ≠ []
    rw [howner]
    by_cases hu : u = t
    · subst hu
      rw [Function.update_self]
      exact iff_of_true rfl (List.cons_ne_nil _ _)
    · rw [Function.update_of_ne hu, hothers u hu]
      exact iff_of_false (fun heq => hu (Option.some.inj heq).symm) (fun hne => hne rfl)
  · change emitter.depth = (Function.update w.stackOf t _ u).length
    obtain rfl : t = u := Option.some.inj (howner.symm.trans hu)
    rw [hdepth, Function.update_self, List.length_cons]
  · cases howner.symm.trans hnone

lemma Owned.leave {frame : Frame α M} {ended : List (Emission α M)} (h : Owned w)
    (ht : w.stackOf t = frame :: outer) :
    Owned { w.setStack t outer with emitter := w.emitter.endDispatch, ended } := by
  have hne : w.stackOf t ≠ [] := ht ▸ List.cons_ne_nil _ _
  have howner := (h.owner_iff t).2 hne
  have hdepth : w.depth = outer.length + 1 := by
    rw [h.depth_eq t howner, ht, List.length_cons]
  have hend : w.emitter.endDispatch.owner = (if outer = [] then none else some t) ∧
      w.emitter.endDispatch.depth = outer.length := by
    unfold Emitter.endDispatch
    rw [show w.emitter.depth = outer.length + 1 from hdepth, Nat.add_sub_cancel]
    cases outer with
    | nil => exact ⟨rfl, rfl⟩
    | cons frame' outer => exact ⟨howner, rfl⟩
  refine ⟨fun u => ?_, fun u hu => ?_, fun hnone => ?_⟩
  · change w.emitter.endDispatch.owner = some u ↔ Function.update w.stackOf t _ u ≠ []
    rw [hend.1]
    by_cases hu : u = t
    · subst hu
      rw [Function.update_self]
      cases outer <;> simp
    · rw [Function.update_of_ne hu, h.others hne hu]
      refine iff_of_false (fun heq => ?_) fun hne => hne rfl
      split_ifs at heq
      exact hu (Option.some.inj heq).symm
  · change w.emitter.endDispatch.owner = some u at hu
    change w.emitter.endDispatch.depth = (Function.update w.stackOf t _ u).length
    rw [hend.1] at hu
    split_ifs at hu
    obtain rfl : t = u := Option.some.inj hu
    rw [hend.2, Function.update_self]
  · change w.emitter.endDispatch.owner = none at hnone
    change w.emitter.endDispatch.depth = 0
    rw [hend.1] at hnone
    split_ifs at hnone with hnil
    rw [hend.2, hnil]
    rfl

/-! ### Where the callbacks are -/

/-- The hooks whose callbacks are out are those that are being called, each of them once. -/
structure Placed (list : HookList α) (stack : List (Frame α M)) : Prop where
  absent_iff : ∀ hook ∈ list.hooks, hook.callbacks = none ↔ hook.id ∈ active stack
  nodup : (active stack).Nodup
  bound : ∀ i ∈ active stack, i < list.nextId

section Placed

variable {list : HookList α} {stack stack' : List (Frame α M)}

lemma placed_new : Placed (.new : HookList α) ([] : List (Frame α M)) := ⟨nofun, .nil, nofun⟩

lemma Placed.same (h : Placed list stack) (hactive : active stack' = active stack) :
    Placed list stack' :=
  ⟨hactive ▸ h.absent_iff, hactive ▸ h.nodup, hactive ▸ h.bound⟩

lemma Placed.add {list' : HookList α} (h : Placed list stack) (hnext : list'.nextId = list.nextId + 1)
    (hhooks : ∀ hook ∈ list'.hooks, hook ∈ list.hooks ∨ hook = ⟨list.nextId, some callbacks⟩) :
    Placed list' stack where
  absent_iff hook hmem := by
    obtain hold | rfl := hhooks hook hmem
    · exact h.absent_iff hook hold
    · refine iff_of_false (fun hnone => nomatch hnone) fun hactive => ?_
      exact Nat.lt_irrefl _ (h.bound _ hactive)
  nodup := h.nodup
  bound i hi := hnext ▸ Nat.lt_succ_of_lt (h.bound i hi)

lemma Placed.append (h : Placed list stack) (callbacks : α) : Placed (list.append callbacks) stack :=
  h.add rfl fun _ hmem => by
    obtain hold | hnew := List.mem_append.1 hmem
    · exact .inl hold
    · exact .inr (List.mem_singleton.1 hnew)

lemma Placed.prepend (h : Placed list stack) (callbacks : α) : Placed (list.prepend callbacks) stack :=
  h.add rfl fun _ hmem => (List.mem_cons.1 hmem).symm

lemma Placed.remove (h : Placed list stack) (i : ℕ) : Placed (list.remove i) stack :=
  ⟨fun hook hmem => h.absent_iff hook (HookList.mem_remove.1 hmem).1, h.nodup, h.bound⟩

/-- Callbacks are there exactly for the hooks of the list that are not being called. -/
lemma Placed.callbacks_isSome (h : Placed list stack) :
    (list.callbacks i).isSome = true ↔ i ∈ list.ids ∧ i ∉ active stack := by
  by_cases hi : i ∈ list.ids
  · obtain ⟨hook, hmem, rfl⟩ := HookList.mem_ids.1 hi
    rw [HookList.callbacks_of_mem hmem, ← h.absent_iff hook hmem, ← ne_eq, Option.isSome_iff_ne_none]
    exact (and_iff_right hi).symm
  · have hnone : list.callbacks i = none := by
      unfold HookList.callbacks
      rw [List.find?_eq_none.2 fun hook hmem heq => hi (HookList.mem_ids.2 ⟨hook, hmem, by simpa using heq⟩)]
      rfl
    rw [hnone]
    exact iff_of_false (fun h => nomatch h) fun h => hi h.1

lemma Placed.take (h : Placed list stack) (hcallbacks : list.callbacks i = some callbacks)
    (hactive : active stack' = i :: active stack) : Placed (list.put i none) stack' := by
  obtain ⟨hmem, hfree⟩ := h.callbacks_isSome.1 (Option.isSome_iff_exists.2 ⟨_, hcallbacks⟩)
  refine ⟨fun hook hhook => ?_, ?_, fun j hj => ?_⟩
  · obtain ⟨other, hother, rfl⟩ := HookList.mem_put.1 hhook
    rw [hactive, List.mem_cons]
    split_ifs with hid
    · exact iff_of_true rfl (.inl rfl)
    · rw [h.absent_iff other hother]
      exact (or_iff_right hid).symm
  · rw [hactive]
    exact List.nodup_cons.2 ⟨hfree, h.nodup⟩
  · rw [hactive, List.mem_cons] at hj
    obtain rfl | hj := hj
    · obtain ⟨hook, hhook, rfl⟩ := HookList.mem_ids.1 hmem
      exact list.fresh hook hhook
    · exact h.bound j hj

lemma Placed.restore (h : Placed list stack) (hactive : active stack = i :: active stack') :
    Placed (list.put i (some callbacks)) stack' := by
  have hnodup := h.nodup
  rw [hactive, List.nodup_cons] at hnodup
  refine ⟨fun hook hhook => ?_, hnodup.2, fun j hj => h.bound j ?_⟩
  · obtain ⟨other, hother, rfl⟩ := HookList.mem_put.1 hhook
    split_ifs with hid
    · exact iff_of_false (fun hnone => nomatch hnone) hnodup.1
    · rw [h.absent_iff other hother, hactive, List.mem_cons]
      exact or_iff_right hid
  · rw [hactive]
    exact List.mem_cons_of_mem _ hj

end Placed

/-! ### Every interleaving -/

def stack (w : Scene ι α M) : List (Frame α M) := w.owner.elim [] w.stackOf

omit [DecidableEq ι] in
lemma Owned.stack_eq (h : Owned w) (ht : ∀ u, u ≠ t → w.stackOf u = []) : w.stack = w.stackOf t := by
  unfold stack
  cases howner : w.owner with
  | none =>
    by_contra hne
    cases howner.symm.trans ((h.owner_iff t).2 (Ne.symm hne))
  | some u =>
    by_cases hu : u = t
    · rw [hu]
      rfl
    · exact absurd (ht u hu) ((h.owner_iff u).1 howner)

/-- What holds between any two sections. -/
structure Sound (w : Scene ι α M) : Prop where
  owned : Owned w
  placed : Placed w.list w.stack

omit [DecidableEq ι] in
lemma sound_new : Sound (new : Scene ι α M) := ⟨owned_new, placed_new⟩

lemma Sound.alone {w' : Scene ι α M} (h : Sound w) (hothers : ∀ u, u ≠ t → w.stackOf u = [])
    (howned : Owned w') (hstack : w'.stackOf = Function.update w.stackOf t outer) {list : HookList α}
    (hlist : w'.list = list) (hplaced : Placed w.list (w.stackOf t) → Placed list outer) :
    Sound w' := by
  refine ⟨howned, ?_⟩
  rw [hlist, howned.stack_eq (t := t), hstack, Function.update_self]
  · exact hplaced (h.owned.stack_eq hothers ▸ h.placed)
  · intro u hu
    rw [hstack, Function.update_of_ne hu, hothers u hu]

lemma Sound.within {w' : Scene ι α M} {frame : Frame α M} {inner : List (Frame α M)} (h : Sound w)
    (ht : w.stackOf t = frame :: outer) (howned : Owned w')
    (hstack : w'.stackOf = Function.update w.stackOf t inner) {list : HookList α}
    (hlist : w'.list = list) (hplaced : Placed w.list (frame :: outer) → Placed list inner) :
    Sound w' :=
  h.alone (fun _ hu => h.owned.others (ht ▸ List.cons_ne_nil _ _) hu) howned hstack hlist (ht ▸ hplaced)

theorem Sound.step {has : M → α → Bool} {act : ι × Section α M} (h : Sound w) (hact : Enabled has w act) :
    Sound (w.step act) := by
  obtain ⟨t, act⟩ := act
  cases act with
  | append callbacks => exact ⟨h.owned.same rfl rfl rfl, h.placed.append callbacks⟩
  | prepend callbacks => exact ⟨h.owned.same rfl rfl rfl, h.placed.prepend callbacks⟩
  | remove i => exact ⟨h.owned.same rfl rfl rfl, h.placed.remove i⟩
  | enter method =>
    obtain ⟨emitter, hbegin⟩ := Option.isSome_iff_exists.1 hact.2
    obtain ⟨howned, hothers⟩ := h.owned.enter hbegin
    simp only [Scene.step, hbegin]
    exact h.alone hothers howned rfl (Emitter.list_beginDispatch hbegin) fun hplaced => hplaced.same rfl
  | ids =>
    obtain ⟨e, outer, ht⟩ := hact
    rw [step_ids ht]
    exact h.within ht (h.owned.setStack ht) rfl rfl fun hplaced => hplaced.same rfl
  | dispatch =>
    obtain ⟨e, i, todo, outer, ht⟩ := hact
    cases hcallbacks : w.list.callbacks i with
    | none =>
      rw [step_skip ht hcallbacks]
      exact h.within ht (h.owned.setStack ht) rfl rfl fun hplaced => hplaced.same rfl
    | some callbacks =>
      rw [step_take ht hcallbacks]
      exact h.within ht ((h.owned.setStack ht).same rfl rfl rfl) rfl rfl fun hplaced => hplaced.take hcallbacks rfl
  | restore =>
    obtain ⟨e, todo, i, callbacks, outer, ht⟩ := hact
    rw [step_restore ht]
    exact h.within ht ((h.owned.setStack ht).same rfl rfl rfl) rfl rfl fun hplaced => hplaced.restore rfl
  | leave =>
    obtain ⟨e, todo, outer, ht⟩ := hact
    rw [step_leave ht]
    exact h.within ht (h.owned.leave ht) rfl w.emitter.list_endDispatch fun hplaced => hplaced.same rfl

theorem sound_after {has : M → α → Bool} {acts : List (ι × Section α M)}
    (hacts : Admits step (Enabled has) acts new) : Sound (after step acts new) :=
  hacts.keeps (fun _ _ hact h => h.step hact) sound_new

/-- **Emissions of several threads.** In every interleaving at most one thread has emissions, it is the
owner exactly while the depth is how deeply it is in them, a hook's callbacks are out only while the
owner calls the hook, and a turn is skipped only of a hook that was removed or that the thread itself is
calling. -/
theorem emissions_apart {has : M → α → Bool} {acts : List (ι × Section α M)}
    (hacts : Admits step (Enabled has) acts new) : let w := after step acts (new : Scene ι α M)
    (∀ t u, w.stackOf t ≠ [] → w.stackOf u ≠ [] → t = u) ∧
    (∀ t, w.owner = some t ↔ w.depth = (w.stackOf t).length ∧ 0 < w.depth) ∧
    (∀ hook ∈ w.list.hooks, hook.callbacks = none →
      ∃ t, w.owner = some t ∧ hook.id ∈ active (w.stackOf t)) ∧
    ∀ t e i todo outer, w.stackOf t = ⟨e, .looping (i :: todo)⟩ :: outer → i ∈ w.list.ids →
      w.list.callbacks i = none → i ∈ active outer ∧ ∀ u, u ≠ t → i ∉ active (w.stackOf u) := by
  intro w
  obtain ⟨howned, hplaced⟩ : Sound w := sound_after hacts
  refine ⟨fun t u ht hu => ?_, fun t => ⟨fun ht => ?_, fun ht => ?_⟩, fun hook hmem hnone => ?_, ?_⟩
  · by_contra hne
    exact hu (howned.others ht (Ne.symm hne))
  · have hdepth := howned.depth_eq t ht
    exact ⟨hdepth, hdepth ▸ List.length_pos_iff.2 ((howned.owner_iff t).1 ht)⟩
  · exact (howned.owner_iff t).2 (List.length_pos_iff.1 (ht.1 ▸ ht.2))
  · have hactive := (hplaced.absent_iff hook hmem).1 hnone
    unfold stack at hactive
    cases howner : w.owner with
    | none =>
      rw [howner] at hactive
      cases hactive
    | some t =>
      rw [howner] at hactive
      exact ⟨t, rfl, hactive⟩
  · intro t e i todo outer ht hi hnone
    have hne : w.stackOf t ≠ [] := ht ▸ List.cons_ne_nil _ _
    have hothers := fun u (hu : u ≠ t) => howned.others hne hu
    rw [howned.stack_eq hothers, ht] at hplaced
    refine ⟨?_, fun u hu => ?_⟩
    · by_contra hactive
      have hsome := hplaced.callbacks_isSome.2 ⟨hi, hactive⟩
      rw [hnone] at hsome
      cases hsome
    · rw [hothers u hu]
      exact List.not_mem_nil

/-- A callback emits again, and another thread, which has added a hook, emits behind it. -/
def nestedRun : List (Bool × Section Unit Unit) :=
  [(false, .append ()), (false, .enter ()), (false, .ids), (false, .dispatch), (true, .append ()),
    (false, .enter ()), (false, .ids), (false, .dispatch), (false, .dispatch), (false, .restore),
    (false, .leave), (false, .restore), (false, .leave), (true, .enter ()), (true, .ids),
    (true, .dispatch)]

theorem emissions_apart_nestedRun :
    Admits step (Enabled fun _ _ => true) nestedRun new ∧
      (after step nestedRun new).ended.length = 2 ∧ (after step nestedRun new).owner = some true ∧
      ∀ t u, (after step nestedRun new).stackOf t ≠ [] → (after step nestedRun new).stackOf u ≠ [] →
        t = u := by
  have hacts : Admits step (Enabled fun _ _ => true) nestedRun new :=
    ⟨⟨trivial, by decide⟩, ⟨trivial, rfl⟩, ⟨_, _, rfl⟩, ⟨_, _, _, _, rfl⟩, ⟨trivial, by decide⟩,
      ⟨rfl, rfl⟩, ⟨_, _, rfl⟩, ⟨_, _, _, _, rfl⟩, ⟨_, _, _, _, rfl⟩, ⟨_, _, _, _, _, rfl⟩,
      ⟨_, _, _, rfl⟩, ⟨_, _, _, _, _, rfl⟩, ⟨_, _, _, rfl⟩, ⟨trivial, rfl⟩, ⟨_, _, rfl⟩,
      ⟨_, _, _, _, rfl⟩, trivial⟩
  exact ⟨hacts, rfl, rfl, (emissions_apart hacts).1⟩

end Scene

end PipewireNative.Core
