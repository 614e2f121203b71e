import PipewireNative.Core.Locks

/-!
The end of a connection after proxies were made and removed: which proxies are told that they are
removed, and which that they are destroyed.
-/

namespace PipewireNative.Core

open Lib Prog
open Marshal (Family)

/-! ### Runs -/

/-- What happens before the end: the client makes proxies, and the server removes ids. -/
inductive Op where
  | create (family : Family)
  | removeId (id : UInt32)
  deriving DecidableEq, Repr

/-- Before anything is made. -/
def blank : Shared := ⟨[], .new, false, true, false⟩

section Runs

variable (env : Callbacks)

def Op.run : Op → Act
  | .create family => Core.create family
  | .removeId id => Core.removeId env id

/-- A core is made, and all that comes after. -/
def prepare (ops : List Op) : Act := do
  newCore
  forEach (Op.run env) ops

/-- The events that were given to a proxy from one moment to another. -/
def eventsOf (k : Key) (w w' : World) : List Notice :=
  ((w'.given.drop w.given.length).filter fun entry => entry.1 = k).map Prod.snd

/-- The run comes to an end; a client that then disconnects gives each proxy that is registered, other
than the core, `removed` and then `destroy`; and disconnecting again gives them nothing. -/
def EndsWell (ops : List Op) : Prop :=
  ∃ w w' w'', prepare env ops (.idle blank) = (.ok (), w) ∧ disconnect env w = (.ok (), w') ∧
    disconnect env w' = (.ok (), w'') ∧
    ∀ k ∈ w.shared.objects.values, k ≠ core →
      eventsOf k w w' = [.removed, .destroy] ∧ eventsOf k w' w'' = []

end Runs

/-! ### The slots -/

/-- The map and the types of the proxies that were made. -/
structure Slots where
  objects : IdMap Key
  families : List Family

namespace Slots

/-- After `Core::new`. -/
def start : Slots := ⟨⟨[.occupied 0, .occupied 1]⟩, [.core, .client]⟩

/-- A proxy is registered under the id that is free; it is a panic if the id is too large. -/
def create (s : Slots) (family : Family) : Option Slots :=
  (s.objects.reserve.2.insertAt s.objects.reserve.1 s.families.length).map fun objects =>
    ⟨objects, s.families ++ [family]⟩

def removeId (s : Slots) (id : UInt32) : Slots :=
  if (s.objects.get id).isSome then { s with objects := s.objects.remove id } else s

def step (s : Slots) : Op → Option Slots
  | .create family => s.create family
  | .removeId id => some (s.removeId id)

def after (ops : List Op) : Option Slots := ops.foldlM step start

/-- Nobody is registered but the core and, under the id 1, a client. -/
def Alone (s : Slots) : Prop :=
  ∃ client, s.objects.values = [core, client] ∧ s.objects.get 1 = some client ∧
    s.families[client]? = some .client

/-- The proxies that were made when nobody listens but the core to itself. -/
def proxies : List Family → List Proxy
  | [] => []
  | family :: families => (Proxy.new family).addListener coreEvents :: families.map .new

/-- What is shared when the slots are these. -/
def shared (s : Slots) : Shared where
  proxies := proxies s.families
  objects := s.objects
  destroyed := false
  connected := true
  importer := false

/-- The core is in the first slot and in no other. -/
structure Sound (s : Slots) : Prop where
  first : s.objects.objects[0]? = some (.occupied core)
  others : ∀ i k, s.objects.objects[i + 1]? = some (.occupied k) → k ≠ core
  made : s.families ≠ []

lemma start_sound : start.Sound where
  first := rfl
  others i k h := by
    cases i with
    | zero =>
      cases h
      decide
    | succ i => simp [start] at h
  made := by simp [start]

variable {s s' : Slots}

lemma Sound.create (h : s.Sound) {family : Family} (hcreate : s.create family = some s') :
    s'.Sound := by
  obtain ⟨objects, hinsert, rfl⟩ := Option.map_eq_some_iff.1 hcreate
  obtain ⟨hreserved, hobjects⟩ := IdMap.insertAt_occupied hinsert
  have hfirst := IdMap.reserve_occupied.2 h.first
  refine ⟨?_, fun i k hk => ?_, by simp⟩
  · change objects.objects[0]? = _
    rw [hobjects, List.getElem?_set_ne, hfirst]
    rintro hzero
    rw [hzero, hfirst] at hreserved
    cases hreserved
  · change objects.objects[i + 1]? = _ at hk
    rw [hobjects, List.getElem?_set] at hk
    split_ifs at hk with hi
    · cases hk
      exact fun hlen => h.made (List.eq_nil_of_length_eq_zero hlen)
    · exact h.others i k (IdMap.reserve_occupied.1 hk)

lemma Sound.removeId (h : s.Sound) {id : UInt32} (hid : id ≠ 0) : (s.removeId id).Sound := by
  have hne : id.toNat ≠ 0 := fun hzero => hid (UInt32.toNat_inj.1 hzero)
  unfold Slots.removeId
  split_ifs
  · refine ⟨?_, fun i k hk => ?_, h.made⟩
    · exact (List.getElem?_set_ne hne).trans h.first
    · change (s.objects.objects.set id.toNat .empty)[i + 1]? = _ at hk
      rw [List.getElem?_set] at hk
      split_ifs at hk
      · cases hk
      · exact h.others i k hk
  · exact h

lemma Sound.values (h : s.Sound) :
    ∃ others, s.objects.values = core :: others ∧ ∀ k ∈ others, k ≠ core := by
  obtain ⟨items, hitems⟩ : ∃ items, s.objects.objects = .occupied core :: items := by
    have hfirst := h.first
    cases hobjects : s.objects.objects with
    | nil => simp [hobjects] at hfirst
    | cons item items =>
      rw [hobjects, List.getElem?_cons_zero, Option.some_inj] at hfirst
      exact ⟨items, by rw [hfirst]⟩
  refine ⟨items.filterMap Item.object?, by rw [IdMap.values, hitems]; rfl, fun k hk => ?_⟩
  obtain ⟨item, hitem, hobject⟩ := List.mem_filterMap.1 hk
  obtain ⟨i, hi, rfl⟩ := List.mem_iff_getElem.1 hitem
  refine h.others i k ?_
  rw [hitems, List.getElem?_cons_succ, List.getElem?_eq_getElem hi]
  cases hcase : items[i] <;> simp [hcase, Item.object?] at hobject
  rw [hobject]

end Slots

/-! ### Nobody listens -/

lemma Shared.hooks_put (s : Shared) (k : Key) (id : ℕ) (events : Option ProxyEvents) :
    (s.put k id events).hooks k = (s.hooks k).put id events := by
  unfold hooks
  change ((s.proxies.modify k _)[k]?).elim _ _ = _
  rw [List.getElem?_modify_eq]
  cases s.proxies[k]? <;> rfl

lemma Shared.hooks_put_of_ne {s : Shared} {k j : Key} (h : j ≠ k) {id : ℕ}
    {events : Option ProxyEvents} : (s.put k id events).hooks j = s.hooks j := by
  unfold hooks
  change ((s.proxies.modify k _)[j]?).elim _ _ = _
  rw [List.getElem?_modify]
  simp [Ne.symm h]

/-- The core listens to itself, and nobody else does to anything. -/
structure Silent (s : Shared) : Prop where
  own : (s.hooks core).hooks = [⟨coreHook, some coreEvents⟩]
  others : ∀ k ≠ core, (s.hooks k).hooks = []

lemma Silent.not_hears {s : Shared} (h : Silent s) {k : Key} (hk : k ≠ core) (notice : Notice) :
    ¬ Hears s k notice := by
  rintro ⟨hook, hmem, -⟩
  rw [h.others k hk] at hmem
  cases hmem

lemma Silent.callbacks {s : Shared} (h : Silent s) :
    (s.hooks core).callbacks coreHook = some coreEvents := by
  unfold HookList.callbacks
  rw [h.own]
  rfl

/-- Nobody listens at all. -/
def Deaf (s : Shared) : Prop := ∀ k notice, ¬ Hears s k notice

lemma Silent.deaf {s : Shared} (h : Silent s) : Deaf (s.put core coreHook none) := by
  rintro k notice ⟨hook, hmem, events, hevents, -⟩
  by_cases hk : k = core
  · subst hk
    rw [Shared.hooks_put] at hmem
    obtain ⟨other, hother, rfl⟩ := HookList.mem_put.1 hmem
    rw [h.own] at hother
    rw [List.mem_singleton.1 hother] at hevents
    cases hevents
  · rw [Shared.hooks_put_of_ne hk, h.others k hk] at hmem
    cases hmem

lemma Slots.silent {s : Slots} (h : s.families ≠ []) : Silent s.shared := by
  unfold Slots.shared
  cases hfamilies : s.families with
  | nil => exact absurd hfamilies h
  | cons family families =>
    refine ⟨rfl, fun k hk => ?_⟩
    obtain ⟨i, rfl⟩ := Nat.exists_eq_succ_of_ne_zero hk
    change ((((families.map Proxy.new)[i]?).elim .new Proxy.hooks).hooks = [])
    rw [List.getElem?_map]
    cases families[i]? <;> rfl

/-- The world of a run in which nobody listens. -/
def Slots.world (s : Slots) (given : List (Key × Notice)) : World := ⟨s.shared, none, [], given⟩

variable {env : Callbacks}

lemma newCore_eq : newCore (.idle blank) = (.ok (), Slots.start.world []) := by
  rfl

lemma create_eq {s : Slots} (hs : s.Sound) (family : Family) (given : List (Key × Notice)) :
    (∃ s', s.create family = some s' ∧ create family (s.world given) = (.ok (), s'.world given)) ∨
      s.create family = none ∧ ∃ w, create family (s.world given) = (.error .panic, w) := by
  have hproxies : Slots.proxies s.families ++ [.new family] = Slots.proxies (s.families ++ [family]) := by
    cases hfamilies : s.families with
    | nil => exact absurd hfamilies hs.made
    | cons first families => simp [Slots.proxies]
  have hlen : s.shared.proxies.length = s.families.length := by
    change (Slots.proxies s.families).length = _
    cases s.families <;> simp [Slots.proxies]
  let w : World := ⟨{ s.shared with
    proxies := Slots.proxies (s.families ++ [family]), objects := s.objects.reserve.2 },
    none, [], given⟩
  have hrun : create family (s.world given) =
      addProxy s.objects.reserve.1 s.shared.proxies.length w := by
    simp only [w, ← hproxies]
    rfl
  rw [hrun, hlen]
  unfold addProxy Slots.create
  rw [bind_ok (acquire_eq rfl .write), get_bind]
  cases hinsert : s.objects.reserve.2.insertAt s.objects.reserve.1 s.families.length with
  | none =>
    refine .inr ⟨rfl, { w with held := some .write }, ?_⟩
    simp only [w]
    rfl
  | some objects =>
    refine .inl ⟨⟨objects, s.families ++ [family]⟩, rfl, ?_⟩
    simp only [w]
    rfl

/-- Only the hook of the core is called. -/
lemma notifyCore_run (env : Callbacks) {w : World} {notice : Notice} (h : Silent w.shared)
    (hselect : (coreEvents.select notice).isSome) : proxyNotify env core notice w =
      (coreCallbacks env notice >>= fun _ => putCallbacks core coreHook (some coreEvents))
        ((w.give core notice).entered notice) := by
  obtain ⟨events, hevents, hdispatch⟩ := dispatch_core env (coreCallbacks env)
    (w := w.give core notice) ⟨coreEvents, h.callbacks, hselect⟩
  obtain rfl : coreEvents = events := Option.some_inj.1 (h.callbacks.symm.trans hevents)
  have hids : (w.shared.hooks core).ids = [coreHook] := by
    unfold HookList.ids
    rw [h.own]
    rfl
  have hemit : proxyNotify env core notice w = forEach (dispatch env (coreCallbacks env) core notice)
      (w.shared.hooks core).ids (w.give core notice) := rfl
  rw [hemit, hids, ← hdispatch]
  unfold forEach
  rcases hrun : dispatch env (coreCallbacks env) core notice coreHook (w.give core notice) with
    ⟨_ | ⟨⟩, w'⟩
  · exact bind_error hrun
  · exact bind_ok hrun

/-- The server removes an id: that of the core is waited for without end. -/
lemma removeId_eq (env : Callbacks) {s : Slots} (hs : s.Sound) (id : UInt32) (given : List (Key × Notice)) :
    (id ≠ 0 ∧ ∃ given', removeId env id (s.world given) = (.ok (), (s.removeId id).world given')) ∨
      id = 0 ∧ ∃ w, removeId env id (s.world given) = (.error .deadlock, w) := by
  let w : World := { s.world given with held := some .write }
  have hrun : removeId env id (s.world given) = (ifSome (fun k => do
      proxyNotify env k .removed
      share fun s => { s with objects := s.objects.remove id }) (s.objects.get id) >>=
      fun _ => release) w := rfl
  by_cases hid : id = 0
  · subst hid
    have hget : s.objects.get 0 = some core := IdMap.get_eq_some.2 hs.first
    have hnotify : proxyNotify env core .removed w = (.error .deadlock, _) :=
      (notifyCore_run env (w := w) (Slots.silent hs.made) rfl).trans (bind_error rfl)
    rw [hrun, hget]
    exact .inr ⟨rfl, _, bind_error (bind_error hnotify)⟩
  · refine .inl ⟨hid, ?_⟩
    rw [hrun]
    unfold Slots.removeId
    cases hget : s.objects.get id with
    | none => exact ⟨given, rfl⟩
    | some k =>
      have hk : k ≠ core := by
        obtain ⟨i, hi⟩ := Nat.exists_eq_succ_of_ne_zero fun hzero => hid (UInt32.toNat_inj.1 hzero)
        refine hs.others i k ?_
        rw [← IdMap.get_eq_some.1 hget, hi]
      have hnotify : proxyNotify env k .removed w = (.ok (), w.give k .removed) :=
        emitHook_silent (w := w.give k .removed) ((Slots.silent hs.made).not_hears hk .removed)
      refine ⟨given ++ [(k, .removed)], ?_⟩
      unfold ifSome
      simp only []
      rw [Prog.bind_assoc, bind_ok hnotify]
      rfl

lemma op_run (env : Callbacks) {s : Slots} (hs : s.Sound) (op : Op) (given : List (Key × Notice)) :
    (op ≠ .removeId 0 ∧ ∃ s' given', s.step op = some s' ∧ s'.Sound ∧
        op.run env (s.world given) = (.ok (), s'.world given')) ∨
      (op = .removeId 0 ∨ s.step op = none) ∧ ∃ e w, op.run env (s.world given) = (.error e, w) := by
  cases op with
  | create family =>
    obtain ⟨s', hs', hrun⟩ | ⟨hnone, w, hrun⟩ := create_eq hs family given
    · exact .inl ⟨by simp, s', given, hs', hs.create hs', hrun⟩
    · exact .inr ⟨.inr hnone, _, w, hrun⟩
  | removeId id =>
    obtain ⟨hid, given', hrun⟩ | ⟨rfl, w, hrun⟩ := removeId_eq env hs id given
    · exact .inl ⟨by simpa using hid, _, given', rfl, hs.removeId hid, hrun⟩
    · exact .inr ⟨.inl rfl, _, w, hrun⟩

lemma ops_run {s : Slots} (hs : s.Sound) (ops : List Op) (given : List (Key × Notice)) :
    (.removeId 0 ∉ ops ∧ ∃ s' given', ops.foldlM Slots.step s = some s' ∧ s'.Sound ∧
        forEach (Op.run env) ops (s.world given) = (.ok (), s'.world given')) ∨
      (.removeId 0 ∈ ops ∨ ops.foldlM Slots.step s = none) ∧
        ∃ e w, forEach (Op.run env) ops (s.world given) = (.error e, w) := by
  induction ops generalizing s given with
  | nil => exact .inl ⟨List.not_mem_nil, s, given, rfl, hs, rfl⟩
  | cons op ops ih =>
    unfold forEach
    rw [List.foldlM_cons]
    obtain ⟨hop, s', given', hstep, hs', hrun⟩ | ⟨hop, e, w, hrun⟩ := op_run env hs op given
    · rw [bind_ok hrun, hstep]
      obtain ⟨hops, h⟩ | ⟨hops, h⟩ := ih hs' given'
      · exact .inl ⟨by simp [hops, Ne.symm hop], h⟩
      · exact .inr ⟨hops.imp_left (List.mem_cons_of_mem op), h⟩
    · refine .inr ⟨?_, e, w, bind_error hrun⟩
      obtain rfl | hstep := hop
      · exact .inl List.mem_cons_self
      · exact .inr (by rw [hstep]; rfl)

lemma prepare_run (env : Callbacks) (ops : List Op) :
    (.removeId 0 ∉ ops ∧ ∃ s given, Slots.after ops = some s ∧ s.Sound ∧
        prepare env ops (.idle blank) = (.ok (), s.world given)) ∨
      (.removeId 0 ∈ ops ∨ Slots.after ops = none) ∧
        ∃ e w, prepare env ops (.idle blank) = (.error e, w) := by
  unfold prepare
  rw [bind_ok newCore_eq]
  exact ops_run Slots.start_sound ops []

/-! ### Disconnecting -/

/-- Nobody listens but the core to itself, and nothing is going on. -/
structure Still (w : World) : Prop where
  silent : Silent w.shared
  held : w.held = none

variable (env)

lemma notifyAll_eq {w : World} (h : Deaf w.shared) (ks : List Key) :
    forEach (fun k => notifyOther env k .removed) ks w =
      (.ok (), { w with given := w.given ++ ks.map (·, .removed) }) := by
  induction ks generalizing w with
  | nil => simp [forEach, pure]
  | cons k ks ih =>
    unfold forEach
    rw [bind_ok (notifyOther_silent (h k .removed))]
    refine (ih (w := w.give k .removed) h).trans ?_
    simp [World.give]

lemma handleRemoved_still {w : World} (h : Deaf w.shared) (hheld : w.held = none) :
    handleRemoved env w = (.ok (), { w with
      given := w.given ++ (w.shared.objects.values.drop 1).map (·, .removed) }) := by
  have hall := notifyAll_eq env (w := { w with held := some .read }) h
    (w.shared.objects.values.drop 1)
  rw [handleRemoved_eq hheld, bind_ok hall]
  simp only [release, hheld]
  rfl

/-- What is left when the core is destroyed. -/
def Shared.ended (s : Shared) : Shared :=
  { s with destroyed := true, objects := .new, connected := false, importer := false }

lemma handleDestroy_again {w : World} (h : w.shared.destroyed = true) :
    handleDestroy env w = (.ok (), w) := by
  unfold handleDestroy
  rw [get_bind, if_pos h]
  rfl

lemma handleDestroy_step {w : World} (hheld : w.held = none) (h : w.shared.destroyed = false) :
    handleDestroy env w = giveUp env w.shared.coreClient
      { w with shared := { w.shared with destroyed := true }, held := some .write } := by
  have hacquire := acquire_eq (w := { w with shared := { w.shared with destroyed := true } }) hheld
    .write
  unfold handleDestroy
  rw [get_bind, if_neg (by simp [h])]
  exact bind_ok hacquire

lemma handleDestroy_eq {w : World} (hdeaf : Deaf w.shared) (hheld : w.held = none)
    (h : w.shared.destroyed = false) {client : Key} (hclient : w.shared.coreClient = some client) :
    handleDestroy env w = (.ok (), { w with
      shared := w.shared.ended, given := w.given ++ [(client, .destroy)] }) := by
  have hnotify : notifyOther env client .destroy { w with
      shared := { w.shared with destroyed := true, objects := .new }, held := none } = (.ok (), _) :=
    notifyOther_silent (hdeaf client .destroy)
  rw [handleDestroy_step env hheld h, hclient]
  refine (bind_ok hnotify).trans ?_
  rw [← hheld]
  rfl

lemma handleDestroy_panics {w : World} (hheld : w.held = none) (h : w.shared.destroyed = false)
    (hclient : w.shared.coreClient = none) : ∃ w', handleDestroy env w = (.error .panic, w') := by
  rw [handleDestroy_step env hheld h, hclient]
  exact ⟨_, rfl⟩

/-! ### The hook of the core -/

lemma coreClient_put (s : Shared) (k : Key) (id : ℕ) (events : Option ProxyEvents) :
    (s.put k id events).coreClient = s.coreClient := by
  have hclient : (s.put k id events).isClient = s.isClient := by
    funext j
    unfold Shared.isClient Shared.put
    rw [List.getElem?_modify]
    cases s.proxies[j]? with
    | none => rfl
    | some proxy => by_cases hj : k = j <;> simp [hj, Proxy.put]
  unfold Shared.coreClient
  rw [hclient]
  rfl

lemma notifyCore_eq {w : World} (notice : Notice) (h : Silent w.shared)
    (hselect : (coreEvents.select notice).isSome) {s : Shared} {given : List (Key × Notice)}
    (hrun : coreCallbacks env notice ((w.give core notice).entered notice) = (.ok (),
      { (w.give core notice).entered notice with shared := s.put core coreHook none, given }))
    (hs : (s.hooks core).callbacks coreHook = some coreEvents) :
    ∃ trace, proxyNotify env core notice w = (.ok (), { w with shared := s, trace, given }) := by
  refine ⟨((w.give core notice).entered notice).trace,
    (notifyCore_run env h hselect).trans ((bind_ok hrun).trans ?_)⟩
  exact congrArg (fun shared => (Except.ok (), { (w.give core notice).entered notice with
    shared, given })) (Shared.put_put hs)

lemma notifyRemoved_eq {w : World} (h : Still w) : ∃ trace, proxyNotify env core .removed w =
    (.ok (), { w with
      trace
      given := w.given ++ [(core, .removed)] ++
        (w.shared.objects.values.drop 1).map (·, .removed) }) :=
  notifyCore_eq env .removed h.silent rfl (handleRemoved_still env h.silent.deaf h.held) h.silent.callbacks

lemma notifyDestroy_eq {w : World} (h : Still w) (hdestroyed : w.shared.destroyed = false)
    {client : Key} (hclient : w.shared.coreClient = some client) :
    ∃ trace, proxyNotify env core .destroy w = (.ok (), { w with
      shared := w.shared.ended, trace, given := w.given ++ [(core, .destroy)] ++ [(client, .destroy)] }) :=
  notifyCore_eq env .destroy h.silent rfl (handleDestroy_eq env
    (w := (w.give core .destroy).entered .destroy) h.silent.deaf h.held hdestroyed
    ((coreClient_put w.shared ..).trans hclient)) h.silent.callbacks

/-! ### The first time and the second -/

/-- The first time, the objects that are registered are told that they are removed, and the client
that it is destroyed. -/
lemma disconnect_eq {w : World} (h : Still w) (hdestroyed : w.shared.destroyed = false) {client : Key}
    (hclient : w.shared.coreClient = some client) :
    ∃ w', disconnect env w = (.ok (), w') ∧ Still w' ∧ w'.shared.destroyed = true ∧
      w'.shared.objects = .new ∧
      w'.given = w.given ++ ([(core, .removed)] ++
        (w.shared.objects.values.drop 1).map (·, .removed) ++ [(core, .destroy), (client, .destroy)]) := by
  obtain ⟨trace, hremoved⟩ := notifyRemoved_eq env h
  obtain ⟨trace', hdestroy⟩ := notifyDestroy_eq env (w := { w with trace, given := _ })
    ⟨h.silent, h.held⟩ hdestroyed hclient
  refine ⟨_, (bind_ok hremoved).trans hdestroy, ⟨⟨h.silent.own, h.silent.others⟩, h.held⟩, rfl, rfl, ?_⟩
  simp

lemma disconnect_panics {w : World} (h : Still w) (hdestroyed : w.shared.destroyed = false)
    (hclient : w.shared.coreClient = none) : ∃ w', disconnect env w = (.error .panic, w') := by
  obtain ⟨trace, hremoved⟩ := notifyRemoved_eq env h
  obtain ⟨w', hpanic⟩ := handleDestroy_panics env
    (w := World.entered (.give { w with trace, given := _ } core .destroy) .destroy)
    h.held hdestroyed ((coreClient_put w.shared ..).trans hclient)
  exact ⟨w', (bind_ok hremoved).trans ((notifyCore_run env (w := { w with trace, given := _ })
    h.silent rfl).trans (bind_error hpanic))⟩

/-- The second time, the map is empty and nobody but the core is told. -/
lemma disconnect_again {w : World} (h : Still w) (hdestroyed : w.shared.destroyed = true)
    (hobjects : w.shared.objects = .new) :
    ∃ w', disconnect env w = (.ok (), w') ∧
      w'.given = w.given ++ [(core, .removed), (core, .destroy)] := by
  obtain ⟨trace, hremoved⟩ := notifyRemoved_eq env h
  obtain ⟨trace', hdestroy⟩ := notifyCore_eq env .destroy
    (w := { w with trace, given := _ }) h.silent rfl
    (handleDestroy_again env (w := World.entered (.give _ core .destroy) .destroy) hdestroyed)
    h.silent.callbacks
  refine ⟨_, (bind_ok hremoved).trans hdestroy, ?_⟩
  simp [World.give, hobjects, IdMap.values, IdMap.new]

/-! ### Which runs end well -/

lemma Slots.Sound.still {s : Slots} (h : s.Sound) (given : List (Key × Notice)) :
    Still (s.world given) :=
  ⟨Slots.silent h.made, rfl⟩

lemma Slots.coreClient_eq_some {s : Slots} {client : Key} : s.shared.coreClient = some client ↔
    s.objects.get 1 = some client ∧ s.families[client]? = some .client := by
  have hclient (k : Key) : s.shared.isClient k = true ↔ s.families[k]? = some .client := by
    unfold Shared.isClient Slots.shared
    cases hfamilies : s.families with
    | nil => simp [Slots.proxies]
    | cons family families =>
      cases k with
      | zero => simp [Slots.proxies, Proxy.addListener, Proxy.new]
      | succ k =>
        simp only [Slots.proxies, List.getElem?_cons_succ, List.getElem?_map]
        cases families[k]? <;> simp [Proxy.new]
  unfold Shared.coreClient
  rw [Option.filter_eq_some_iff, hclient]
  rfl

lemma eventsOf_eq {k : Key} {w w' : World} {new : List (Key × Notice)}
    (h : w'.given = w.given ++ new) :
    eventsOf k w w' = (new.filter fun entry => entry.1 = k).map Prod.snd := by
  unfold eventsOf
  rw [h, List.drop_left]

lemma eventsOf_disconnect {k client : Key} {others : List Key} (hk : k ≠ core) :
    ((([(core, .removed)] ++ others.map (·, .removed) ++ [(core, .destroy), (client, .destroy)] :
      List (Key × Notice)).filter fun entry => entry.1 = k).map Prod.snd) =
      List.replicate (others.count k) .removed ++ if client = k then [.destroy] else [] := by
  have hmiddle : ((others.map fun k => (k, Notice.removed)).filter fun entry => entry.1 = k).map
      Prod.snd = List.replicate (others.count k) .removed := by
    induction others with
    | nil => rfl
    | cons other others ih =>
      by_cases hother : other = k
      · simpa [hother, List.replicate_succ] using ih
      · simpa [hother] using ih
  rw [List.filter_append, List.filter_append, List.map_append, List.map_append, hmiddle]
  by_cases hclient : client = k <;> simp [Ne.symm hk, hclient]

lemma eq_client {n : ℕ} {k client : Key} (h : List.replicate n Notice.removed ++
    (if client = k then [.destroy] else []) = [.removed, .destroy]) : client = k ∧ n = 1 := by
  by_cases hclient : client = k
  · have hlen := congrArg List.length h
    simp [hclient] at hlen
    exact ⟨hclient, hlen⟩
  · rw [if_neg hclient, List.append_nil] at h
    have hmem : Notice.destroy ∈ List.replicate n Notice.removed := by simp [h]
    cases List.eq_of_mem_replicate hmem

/-- **Disconnecting.** A client that disconnects after proxies were made and ids were removed comes to
an end, gives every proxy that is registered other than the core one `removed` and then one
`destroy`, and nothing when it disconnects again, exactly when the server has not removed the id 0
and nobody is registered but the core and, under the id 1, a client. -/
theorem endsWell_iff (env : Callbacks) (ops : List Op) :
    EndsWell env ops ↔ .removeId 0 ∉ ops ∧ ∃ s, Slots.after ops = some s ∧ s.Alone := by
  obtain ⟨hops, s, given, hafter, hsound, hprepare⟩ | ⟨hops, e, w, hprepare⟩ := prepare_run env ops
  · obtain ⟨others, hvalues, hothers⟩ := hsound.values
    have hdrop : (s.world given).shared.objects.values.drop 1 = others := by
      change s.objects.values.drop 1 = others
      rw [hvalues]
      rfl
    constructor
    · rintro ⟨w, w', w'', hprepare', hfirst, -, hevents⟩
      obtain rfl : s.world given = w := by
        rw [hprepare] at hprepare'
        exact congrArg Prod.snd hprepare'
      refine ⟨hops, s, hafter, ?_⟩
      cases hclient : s.shared.coreClient with
      | none =>
        obtain ⟨_, hpanic⟩ := disconnect_panics env (hsound.still given) rfl hclient
        rw [hpanic] at hfirst
        cases hfirst
      | some client =>
        obtain ⟨_, hfirst', -, -, -, hgiven⟩ := disconnect_eq env (hsound.still given) rfl hclient
        obtain rfl := congrArg Prod.snd (hfirst.symm.trans hfirst')
        rw [hdrop] at hgiven
        have hboth : ∀ k ∈ others, client = k ∧ others.count k = 1 := by
          intro k hk
          have hk' : k ∈ s.objects.values := hvalues ▸ List.mem_cons_of_mem core hk
          have hevent := (hevents k hk' (hothers k hk)).1
          rw [eventsOf_eq hgiven, eventsOf_disconnect (hothers k hk)] at hevent
          exact eq_client hevent
        obtain ⟨hget, hfamily⟩ := Slots.coreClient_eq_some.1 hclient
        have hmem : client ∈ others := by
          have hclient' := IdMap.mem_values hget
          rw [hvalues] at hclient'
          refine (List.mem_cons.1 hclient').resolve_left (hsound.others 0 client ?_)
          exact IdMap.get_eq_some.1 hget
        have hreplicate : others = List.replicate others.length client :=
          List.eq_replicate_iff.2 ⟨rfl, fun k hk => (hboth k hk).1.symm⟩
        have hone : others.length = 1 := by
          rw [← (hboth client hmem).2, hreplicate]
          simp
        rw [hone] at hreplicate
        exact ⟨client, by rw [hvalues, hreplicate]; rfl, hget, hfamily⟩
    · rintro ⟨-, s', hafter', client, hvalues', hget, hfamily⟩
      obtain rfl : s = s' := Option.some_inj.1 (hafter.symm.trans hafter')
      obtain rfl : others = [client] := by
        rw [hvalues] at hvalues'
        exact List.tail_eq_of_cons_eq hvalues'
      have hclient := Slots.coreClient_eq_some.2 ⟨hget, hfamily⟩
      obtain ⟨w', hfirst, hstill, hdestroyed, hobjects, hgiven⟩ :=
        disconnect_eq env (hsound.still given) rfl hclient
      obtain ⟨w'', hsecond, hgiven'⟩ := disconnect_again env hstill hdestroyed hobjects
      refine ⟨_, w', w'', hprepare, hfirst, hsecond, fun k hk hcore => ?_⟩
      rw [hdrop] at hgiven
      change k ∈ s.objects.values at hk
      obtain rfl : k = client := by simpa [hvalues', hcore] using hk
      rw [eventsOf_eq hgiven, eventsOf_disconnect hcore, eventsOf_eq hgiven']
      simp [Ne.symm hcore]
  · refine iff_of_false ?_ ?_
    · rintro ⟨w, w', w'', hprepare', -⟩
      rw [hprepare] at hprepare'
      cases hprepare'
    · rintro ⟨hmem, s, hafter, -⟩
      obtain hmem' | hnone := hops
      · exact hmem hmem'
      · rw [hnone] at hafter
        cases hafter

/-- The server removes the client of the core. -/
theorem disconnect_removedClient :
    ((do
      prepare (fun _ _ s => s) [.removeId 1]
      disconnect (fun _ _ s => s)) (World.idle blank)).1 = .error .panic := by
  rfl

end PipewireNative.Core
