import PipewireNative.Core.Emit

/-!
Emissions of one thread whose callbacks return. Every emission takes the turns of the hooks there were
when it began, one after the other, and calls those that are still there and not being called further
up the stack.
-/

namespace PipewireNative.Core

open Lib

variable {ι α M : Type}

def Frame.left (frame : Frame α M) : List ℕ :=
  match frame.stage with
  | .entered => frame.emission.begun
  | .looping todo | .calling todo _ _ => todo

namespace Emission

variable {e : Emission α M} {added : List (ℕ × α)}

/-- What the turns of an emission are to be, with the hooks that were added so far. -/
structure Fair (added : List (ℕ × α)) (e : Emission α M) : Prop where
  nodup : e.begun.Nodup
  start_le : e.start ≤ added.length
  bound : ∀ i ∈ e.begun, i < e.start
  called_iff : ∀ turn ∈ e.turns, turn.called.isSome = true ↔ turn.removed = false ∧ turn.active = false
  own : ∀ turn ∈ e.turns, ∀ callbacks, turn.called = some callbacks → (turn.id, callbacks) ∈ added

lemma Fair.mono (h : e.Fair added) (more : List (ℕ × α)) : e.Fair (added ++ more) where
  nodup := h.nodup
  start_le := by
    rw [List.length_append]
    exact Nat.le_add_right_of_le h.start_le
  bound := h.bound
  called_iff := h.called_iff
  own turn hturn callbacks hcalled := List.mem_append_left _ (h.own turn hturn callbacks hcalled)

lemma Fair.turn (h : e.Fair added) {turn : Turn α}
    (hcalled : turn.called.isSome = true ↔ turn.removed = false ∧ turn.active = false)
    (hown : ∀ callbacks, turn.called = some callbacks → (turn.id, callbacks) ∈ added) :
    Fair added { e with turns := e.turns ++ [turn] } where
  nodup := h.nodup
  start_le := h.start_le
  bound := h.bound
  called_iff other hmem := by
    obtain hold | hnew := List.mem_append.1 hmem
    · exact h.called_iff other hold
    · rwa [List.mem_singleton.1 hnew]
  own other hmem := by
    obtain hold | hnew := List.mem_append.1 hmem
    · exact h.own other hold
    · rwa [List.mem_singleton.1 hnew]

end Emission

namespace Frame

/-- An emission is as it is to be, and the hooks whose turn was and is to come are those there were. -/
structure Due (added : List (ℕ × α)) (frame : Frame α M) : Prop where
  fair : frame.emission.Fair added
  turns : frame.emission.turns.map Turn.id ++ frame.left = frame.emission.begun
  held : ∀ todo i callbacks, frame.stage = .calling todo i callbacks → (i, callbacks) ∈ added

lemma Due.mono {added : List (ℕ × α)} {frame : Frame α M} (h : frame.Due added)
    (more : List (ℕ × α)) : frame.Due (added ++ more) :=
  ⟨h.fair.mono more, h.turns, fun todo i callbacks hstage =>
    List.mem_append_left _ (h.held todo i callbacks hstage)⟩

end Frame

namespace Scene

/-! ### What was added and removed -/

section Told

variable {list list' : HookList α} {added : List (ℕ × α)} {removed : List ℕ} {i : ℕ} {callbacks : α}

/-- The ids were given in order, a hook is in the list as long as it was not removed, and callbacks are
those the hook was added with. -/
structure Told (list : HookList α) (added : List (ℕ × α)) (removed : List ℕ) : Prop where
  added_ids : added.map Prod.fst = List.range list.nextId
  removed_lt : ∀ i ∈ removed, i < list.nextId
  mem_iff : ∀ i < list.nextId, i ∈ list.ids ↔ i ∉ removed
  own : ∀ hook ∈ list.hooks, ∀ callbacks, hook.callbacks = some callbacks → (hook.id, callbacks) ∈ added

lemma told_new : Told (.new : HookList α) [] [] := ⟨rfl, nofun, nofun, nofun⟩

lemma Told.length_added (h : Told list added removed) : added.length = list.nextId := by
  have hlen := congrArg List.length h.added_ids
  rwa [List.length_map, List.length_range] at hlen

lemma Told.not_mem_drop (h : Told list added removed) {start : ℕ} (hi : i < start) :
    i ∉ (added.drop start).map Prod.fst := by
  rw [List.map_drop, h.added_ids, List.range_eq_range', List.drop_range', List.mem_range'_1]
  omega

lemma Told.add (h : Told list added removed) (hnext : list'.nextId = list.nextId + 1)
    (hhooks : ∀ hook, hook ∈ list'.hooks ↔ hook ∈ list.hooks ∨ hook = ⟨list.nextId, some callbacks⟩) :
    Told list' (added ++ [(list.nextId, callbacks)]) removed where
  added_ids := by
    rw [List.map_append, h.added_ids, hnext, List.range_succ]
    rfl
  removed_lt i hi := hnext ▸ Nat.lt_succ_of_lt (h.removed_lt i hi)
  mem_iff i hi := by
    have hids : i ∈ list'.ids ↔ i ∈ list.ids ∨ i = list.nextId := by
      simp only [HookList.mem_ids, hhooks, or_and_right, exists_or, exists_eq_left, @eq_comm _ i]
    rw [hids]
    rw [hnext, Nat.lt_succ_iff_lt_or_eq] at hi
    obtain hi | rfl := hi
    · rw [← h.mem_iff i hi]
      exact or_iff_left (Nat.ne_of_lt hi)
    · exact iff_of_true (.inr rfl) fun hmem => Nat.lt_irrefl _ (h.removed_lt _ hmem)
  own hook hmem callbacks' hcallbacks := by
    rw [List.mem_append]
    obtain hold | rfl := (hhooks hook).1 hmem
    · exact .inl (h.own hook hold callbacks' hcallbacks)
    · cases hcallbacks
      exact .inr (List.mem_singleton_self _)

lemma Told.remove (h : Told list added removed) (i : ℕ) :
    Told (list.remove i) added (if i ∈ list.ids then i :: removed else removed) where
  added_ids := h.added_ids
  removed_lt j hj := by
    split_ifs at hj with hi
    · obtain rfl | hj := List.mem_cons.1 hj
      · obtain ⟨hook, hmem, rfl⟩ := HookList.mem_ids.1 hi
        exact list.fresh hook hmem
      · exact h.removed_lt j hj
    · exact h.removed_lt j hj
  mem_iff j hj := by
    have hids : j ∈ (list.remove i).ids ↔ j ∈ list.ids ∧ j ≠ i := by
      simp only [HookList.mem_ids, HookList.mem_remove]
      constructor
      · rintro ⟨hook, ⟨hmem, hne⟩, rfl⟩
        exact ⟨⟨hook, hmem, rfl⟩, hne⟩
      · rintro ⟨⟨hook, hmem, rfl⟩, hne⟩
        exact ⟨hook, ⟨hmem, hne⟩, rfl⟩
    rw [hids, h.mem_iff j hj]
    split_ifs with hi
    · rw [List.mem_cons, not_or]
      exact and_comm
    · refine and_iff_left_of_imp fun hleft heq => hi ?_
      exact heq ▸ (h.mem_iff j hj).2 hleft
  own hook hmem := h.own hook (HookList.mem_remove.1 hmem).1

lemma Told.put (h : Told list added removed) {value : Option α}
    (hown : ∀ callbacks, value = some callbacks → (i, callbacks) ∈ added) :
    Told (list.put i value) added removed where
  added_ids := h.added_ids
  removed_lt := h.removed_lt
  mem_iff j hj := by
    rw [HookList.ids_put]
    exact h.mem_iff j hj
  own hook hmem := by
    obtain ⟨other, hother, rfl⟩ := HookList.mem_put.1 hmem
    split_ifs
    · exact hown
    · exact h.own other hother

lemma Told.callbacks_mem (h : Told list added removed) (hcallbacks : list.callbacks i = some callbacks) :
    (i, callbacks) ∈ added := by
  unfold HookList.callbacks at hcallbacks
  obtain ⟨hook, hfind, hhook⟩ := Option.bind_eq_some_iff.1 hcallbacks
  have hid : hook.id = i := by simpa using List.find?_some hfind
  exact hid ▸ h.own hook (List.mem_of_find?_eq_some hfind) callbacks hhook

end Told

/-! ### The emissions of one thread -/

/-- The emissions of a thread that is alone with the list. -/
structure Nested (ids : List ℕ) (added : List (ℕ × α)) (stack : List (Frame α M)) : Prop where
  due : ∀ frame ∈ stack, frame.Due added
  begun : ∀ frame ∈ stack.head?, frame.stage = .entered → frame.emission.begun = ids
  inside : ∀ frame ∈ stack.tail, frame.stage ≠ .entered

section Nested

variable {ids ids' : List ℕ} {added : List (ℕ × α)} {stack outer : List (Frame α M)}
  {frame frame' : Frame α M}

lemma Nested.change {has : M → α → Bool} (h : Nested ids added stack) (houtside : Outside has stack)
    (ids' : List ℕ) (more : List (ℕ × α)) : Nested ids' (added ++ more) stack where
  due frame hframe := (h.due frame hframe).mono more
  begun frame hframe hstage := by
    obtain ⟨outer, rfl⟩ := List.head?_eq_some_iff.1 hframe
    obtain ⟨e, stage⟩ := frame
    cases hstage
    exact houtside.elim
  inside := h.inside

lemma Nested.enter {has : M → α → Bool} (h : Nested ids added stack) (houtside : Outside has stack)
    (hdue : frame.Due added) (hbegun : frame.emission.begun = ids) :
    Nested ids added (frame :: stack) where
  due other hother := by
    obtain rfl | hother := List.mem_cons.1 hother
    · exact hdue
    · exact h.due other hother
  begun other hother _ := by
    cases hother
    exact hbegun
  inside other hother := by
    cases stack with
    | nil => cases hother
    | cons top outer =>
      obtain rfl | hother := List.mem_cons.1 hother
      · rintro hstage
        obtain ⟨e, stage⟩ := other
        cases hstage
        exact houtside.elim
      · exact h.inside other hother

lemma Nested.next (h : Nested ids added (frame :: outer)) (hdue : frame'.Due added)
    (hstage : frame'.stage ≠ .entered) : Nested ids' added (frame' :: outer) where
  due other hother := by
    obtain rfl | hother := List.mem_cons.1 hother
    · exact hdue
    · exact h.due other (List.mem_cons_of_mem _ hother)
  begun other hother hentered := by
    cases hother
    exact absurd hentered hstage
  inside := h.inside

lemma Nested.leave (h : Nested ids added (frame :: outer)) : Nested ids added outer where
  due other hother := h.due other (List.mem_cons_of_mem _ hother)
  begun other hother hentered :=
    absurd hentered (h.inside other (List.mem_of_mem_head? hother))
  inside other hother := h.inside other (List.mem_of_mem_tail hother)

end Nested

variable [DecidableEq ι] {w : Scene ι α M} {t : ι}

/-- A thread leaves an emission when there is no turn left, since no callback panics. -/
def Returns (w : Scene ι α M) : ι × Section α M → Prop
  | (t, .leave) => ∃ e outer, w.stackOf t = ⟨e, .looping []⟩ :: outer
  | _ => True

/-- What holds while one thread does everything. -/
structure Alone (t : ι) (w : Scene ι α M) : Prop where
  sound : Sound w
  told : Told w.list w.added w.removed
  nested : Nested w.list.ids w.added (w.stackOf t)
  ended : ∀ e ∈ w.ended, e.Fair w.added ∧ e.turns.map Turn.id = e.begun
  others : ∀ u, u ≠ t → w.stackOf u = []

omit [DecidableEq ι] in
lemma alone_new (t : ι) : Alone t (new : Scene ι α M) :=
  ⟨sound_new, told_new, ⟨nofun, nofun, nofun⟩, nofun, fun _ _ => rfl⟩

omit [DecidableEq ι] in
/-- A hook is called at its turn exactly if it was not removed before and is not being called. -/
lemma Alone.called_iff {e : Emission α M} {i : ℕ} {todo : List ℕ} {outer : List (Frame α M)}
    (h : Alone t w) (ht : w.stackOf t = ⟨e, .looping (i :: todo)⟩ :: outer) :
    (w.turn outer i).called.isSome = true ↔
      (w.turn outer i).removed = false ∧ (w.turn outer i).active = false := by
  have hdue := h.nested.due ⟨e, .looping (i :: todo)⟩ (ht ▸ List.mem_cons_self)
  have hbegun : i ∈ e.begun := hdue.turns ▸ List.mem_append_right _ List.mem_cons_self
  have hlt : i < w.list.nextId := by
    rw [← h.told.length_added]
    exact Nat.lt_of_lt_of_le (hdue.fair.bound i hbegun) hdue.fair.start_le
  have hplaced := h.sound.placed
  rw [h.sound.owned.stack_eq h.others, ht] at hplaced
  change (w.list.callbacks i).isSome = true ↔ decide (i ∈ w.removed) = false ∧
    decide (i ∈ active outer) = false
  rw [hplaced.callbacks_isSome, h.told.mem_iff i hlt, decide_eq_false_iff_not, decide_eq_false_iff_not]
  exact Iff.rfl

omit [DecidableEq ι] in
lemma Alone.ended_mono (h : Alone t w) (more : List (ℕ × α)) :
    ∀ e ∈ w.ended, e.Fair (w.added ++ more) ∧ e.turns.map Turn.id = e.begun :=
  fun e he => ⟨(h.ended e he).1.mono more, (h.ended e he).2⟩

lemma Alone.next {w' : Scene ι α M} {inner : List (Frame α M)} {list : HookList α} (h : Alone t w)
    (hsound : Sound w') (hstacks : w'.stackOf = Function.update w.stackOf t inner)
    (hlist : w'.list = list) (hadded : w'.added = w.added) (htold : Told list w.added w'.removed)
    (hnested : Nested list.ids w.added inner)
    (hended : ∀ e ∈ w'.ended, e.Fair w.added ∧ e.turns.map Turn.id = e.begun) : Alone t w' := by
  subst hlist
  refine ⟨hsound, hadded ▸ htold, ?_, hadded ▸ hended, fun u hu => ?_⟩
  · rw [hadded, hstacks, Function.update_self]
    exact hnested
  · rw [hstacks, Function.update_of_ne hu, h.others u hu]

omit [DecidableEq ι] in
lemma Alone.due_turn {e : Emission α M} {i : ℕ} {todo : List ℕ} {outer : List (Frame α M)}
    {stage : Stage α} (h : Alone t w) (ht : w.stackOf t = ⟨e, .looping (i :: todo)⟩ :: outer)
    (hleft : ∀ e' : Emission α M, Frame.left ⟨e', stage⟩ = todo)
    (hheld : ∀ todo j callbacks, stage = .calling todo j callbacks → (j, callbacks) ∈ w.added) :
    Frame.Due w.added ⟨{ e with turns := e.turns ++ [w.turn outer i] }, stage⟩ := by
  have hdue := h.nested.due ⟨e, .looping (i :: todo)⟩ (ht ▸ List.mem_cons_self)
  refine ⟨hdue.fair.turn (h.called_iff ht) fun _ => h.told.callbacks_mem, ?_, hheld⟩
  have hturns : e.turns.map Turn.id ++ i :: todo = e.begun := hdue.turns
  rw [hleft, List.map_append, List.append_assoc]
  exact hturns

theorem Alone.step {has : M → α → Bool} {act : Section α M} (h : Alone t w)
    (hact : Enabled has w (t, act)) (hreturns : Returns w (t, act)) : Alone t (w.step (t, act)) := by
  have hsound := h.sound.step hact
  cases act with
  | append callbacks =>
    refine ⟨hsound, h.told.add rfl fun hook => ?_, h.nested.change hact.1 _ _, h.ended_mono _, h.others⟩
    exact List.mem_append.trans (or_congr_right List.mem_singleton)
  | prepend callbacks =>
    refine ⟨hsound, h.told.add rfl fun hook => ?_, h.nested.change hact.1 _ _, h.ended_mono _, h.others⟩
    exact List.mem_cons.trans or_comm
  | remove i =>
    have hnested := h.nested.change hact (w.list.remove i).ids []
    rw [List.append_nil] at hnested
    exact ⟨hsound, h.told.remove i, hnested, h.ended, h.others⟩
  | enter method =>
    obtain ⟨emitter, hbegin⟩ := Option.isSome_iff_exists.1 hact.2
    have hlist : emitter.list = w.list := Emitter.list_beginDispatch hbegin
    simp only [Scene.step, hbegin] at hsound ⊢
    have hbound : ∀ i ∈ w.list.ids, i < w.added.length := by
      intro i hi
      obtain ⟨hook, hmem, rfl⟩ := HookList.mem_ids.1 hi
      exact h.told.length_added ▸ w.list.fresh hook hmem
    exact h.next hsound rfl hlist rfl h.told (h.nested.enter hact.1
      ⟨⟨w.list.nodup, Nat.le_refl _, hbound, (by simp), (by simp)⟩, rfl, (by simp)⟩ rfl) h.ended
  | ids =>
    obtain ⟨e, outer, ht⟩ := hact
    rw [step_ids ht] at hsound ⊢
    have hnested := h.nested
    rw [ht] at hnested
    have hdue := hnested.due _ List.mem_cons_self
    have hbegun : e.begun = w.list.ids := hnested.begun _ rfl rfl
    have hturns : e.turns.map Turn.id ++ w.list.ids = e.begun := hbegun ▸ hdue.turns
    exact h.next hsound rfl rfl rfl h.told (hnested.next ⟨hdue.fair, hturns, (by simp)⟩ (by simp)) h.ended
  | dispatch =>
    obtain ⟨e, i, todo, outer, ht⟩ := hact
    have hnested := h.nested
    rw [ht] at hnested
    cases hcallbacks : w.list.callbacks i with
    | none =>
      rw [step_skip ht hcallbacks] at hsound ⊢
      exact h.next hsound rfl rfl rfl h.told
        (hnested.next (h.due_turn ht (fun _ => rfl) (by simp)) (by simp)) h.ended
    | some callbacks =>
      rw [step_take ht hcallbacks] at hsound ⊢
      have hheld : ∀ todo' j callbacks', Stage.calling todo i callbacks = .calling todo' j callbacks' →
          (j, callbacks') ∈ w.added := by
        rintro _ _ _ ⟨⟩
        exact h.told.callbacks_mem hcallbacks
      exact h.next hsound rfl rfl rfl (h.told.put (by simp))
        (hnested.next (h.due_turn ht (fun _ => rfl) hheld) (by simp)) h.ended
  | restore =>
    obtain ⟨e, todo, i, callbacks, outer, ht⟩ := hact
    rw [step_restore ht] at hsound ⊢
    have hnested := h.nested
    rw [ht] at hnested
    have hdue := hnested.due _ List.mem_cons_self
    have hheld := hdue.held todo i callbacks rfl
    exact h.next hsound rfl rfl rfl (h.told.put fun _ hsome => Option.some.inj hsome ▸ hheld)
      (hnested.next ⟨hdue.fair, hdue.turns, (by simp)⟩ (by simp)) h.ended
  | leave =>
    obtain ⟨e, outer, ht⟩ := hreturns
    rw [step_leave ht] at hsound ⊢
    have hnested := h.nested
    rw [ht] at hnested
    have hdue := hnested.due _ List.mem_cons_self
    have hturns : e.turns.map Turn.id ++ [] = e.begun := hdue.turns
    rw [List.append_nil] at hturns
    refine h.next hsound rfl (Emitter.list_endDispatch _) rfl h.told hnested.leave fun e' he' => ?_
    obtain rfl | he' := List.mem_cons.1 he'
    · exact ⟨hdue.fair, hturns⟩
    · exact h.ended e' he'

theorem alone_after {has : M → α → Bool} {acts : List (ι × Section α M)}
    (hacts : Admits step (fun w act => act.1 = t ∧ Enabled has w act ∧ Returns w act) acts new) :
    Alone t (after step acts new) := by
  refine hacts.keeps (fun w act hact h => ?_) (alone_new t)
  obtain ⟨u, act⟩ := act
  obtain ⟨rfl, henabled, hreturns⟩ := hact
  exact h.step henabled hreturns

/-- **Emissions within emissions.** Each one that ended took the turns of the hooks there were when it
began, in their order and once each, and called those that had not been removed before their turn and
were not being called further up the stack, with the callbacks they were added with; none of them was
added after it began. When no emission is left every hook has its callbacks, and nobody owns the list. -/
theorem emissions_nest {has : M → α → Bool} {acts : List (ι × Section α M)}
    (hacts : Admits step (fun w act => act.1 = t ∧ Enabled has w act ∧ Returns w act) acts new) :
    let w := after step acts (new : Scene ι α M)
    (∀ e ∈ w.ended, e.turns.map Turn.id = e.begun ∧ e.begun.Nodup ∧ ∀ turn ∈ e.turns,
      (turn.called.isSome = true ↔ turn.removed = false ∧ turn.active = false) ∧
        (∀ callbacks, turn.called = some callbacks → (turn.id, callbacks) ∈ w.added) ∧
          turn.id ∉ (w.added.drop e.start).map Prod.fst) ∧
    (w.stackOf t = [] → (∀ hook ∈ w.list.hooks, ∃ callbacks, hook.callbacks = some callbacks ∧
      (hook.id, callbacks) ∈ w.added) ∧ w.owner = none ∧ w.depth = 0) := by
  intro w
  have h : Alone t w := alone_after hacts
  refine ⟨fun e he => ?_, fun ht => ?_⟩
  · obtain ⟨hfair, hturns⟩ := h.ended e he
    refine ⟨hturns, hfair.nodup, fun turn hturn => ⟨hfair.called_iff turn hturn, hfair.own turn hturn, ?_⟩⟩
    have hbegun : turn.id ∈ e.begun := hturns ▸ List.mem_map_of_mem hturn
    exact h.told.not_mem_drop (hfair.bound _ hbegun)
  · have howner : w.owner = none := by
      cases hw : w.owner with
      | none => rfl
      | some u =>
        have hne := (h.sound.owned.owner_iff u).1 hw
        by_cases hu : u = t
        · exact absurd ht (hu ▸ hne)
        · exact absurd (h.others u hu) hne
    refine ⟨fun hook hmem => ?_, howner, h.sound.owned.reset howner⟩
    have hplaced := h.sound.placed
    rw [h.sound.owned.stack_eq h.others, ht] at hplaced
    cases hcallbacks : hook.callbacks with
    | none => exact absurd ((hplaced.absent_iff hook hmem).1 hcallbacks) List.not_mem_nil
    | some callbacks => exact ⟨callbacks, rfl, h.told.own hook hmem callbacks hcallbacks⟩

/-- Two hooks; the callback of the first one emits again, which skips it, and removes the second. -/
def removingRun : List (Unit × Section Unit Unit) :=
  [.append (), .append (), .enter (), .ids, .dispatch, .enter (), .ids, .dispatch, .dispatch, .restore,
    .leave, .remove 1, .restore, .dispatch, .leave].map ((), ·)

theorem emissions_nest_removingRun :
    Admits step (fun w act => act.1 = () ∧ Enabled (fun _ _ => true) w act ∧ Returns w act) removingRun new ∧
      (after step removingRun new).owner = none ∧ (after step removingRun new).depth = 0 := by
  have hacts : Admits step (fun w act => act.1 = () ∧ Enabled (fun _ _ => true) w act ∧ Returns w act)
      removingRun new :=
    ⟨⟨rfl, ⟨trivial, by decide⟩, trivial⟩, ⟨rfl, ⟨trivial, by decide⟩, trivial⟩,
      ⟨rfl, ⟨trivial, rfl⟩, trivial⟩, ⟨rfl, ⟨_, _, rfl⟩, trivial⟩, ⟨rfl, ⟨_, _, _, _, rfl⟩, trivial⟩,
      ⟨rfl, ⟨rfl, rfl⟩, trivial⟩, ⟨rfl, ⟨_, _, rfl⟩, trivial⟩, ⟨rfl, ⟨_, _, _, _, rfl⟩, trivial⟩,
      ⟨rfl, ⟨_, _, _, _, rfl⟩, trivial⟩, ⟨rfl, ⟨_, _, _, _, _, rfl⟩, trivial⟩,
      ⟨rfl, ⟨_, _, _, rfl⟩, ⟨_, _, rfl⟩⟩, ⟨rfl, rfl, trivial⟩, ⟨rfl, ⟨_, _, _, _, _, rfl⟩, trivial⟩,
      ⟨rfl, ⟨_, _, _, _, rfl⟩, trivial⟩, ⟨rfl, ⟨_, _, _, rfl⟩, ⟨_, _, rfl⟩⟩, trivial⟩
  exact ⟨hacts, ((emissions_nest hacts).2 rfl).2⟩

end Scene

end PipewireNative.Core
