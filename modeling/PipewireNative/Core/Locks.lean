import PipewireNative.Core.Objects

/-!
Which listeners are called while the calling thread holds the lock of the map: those of the object
that an event is for, and when the client disconnects those of all objects but the first.
-/

namespace PipewireNative.Core

open Lib Prog

/-! ### Listeners are called -/

/-- Listeners were called, with the lock held as it was. -/
structure Calls (w w' : World) : Prop where
  held : w'.held = w.held
  trace : ∃ new, w'.trace = w.trace ++ new ∧ ∀ i ∈ new, i.held = w.held

instance : Std.Refl Calls := ⟨fun _ => ⟨rfl, [], (List.append_nil _).symm, nofun⟩⟩

instance : IsTrans World Calls where
  trans := by
    rintro u v w ⟨hv, new, htrace, hnew⟩ ⟨hw, new', htrace', hnew'⟩
    refine ⟨hw.trans hv, new ++ new', by rw [htrace', htrace, List.append_assoc], fun i hi => ?_⟩
    obtain hi | hi := List.mem_append.1 hi
    · exact hnew i hi
    · exact (hnew' i hi).trans hv

/-- No call is forgotten. -/
def Longer (w w' : World) : Prop := w.trace <+: w'.trace

instance : Std.Refl Longer := ⟨fun _ => List.prefix_rfl⟩

instance : IsTrans World Longer := ⟨fun _ _ _ h h' => List.IsPrefix.trans h h'⟩

lemma Calls.longer {w w' : World} (h : Calls w w') : Longer w w' := by
  obtain ⟨-, new, htrace, -⟩ := h
  exact ⟨new, htrace.symm⟩

lemma share_calls (f : Shared → Shared) : Along Calls (share f) :=
  along_modify fun _ => ⟨rfl, [], (List.append_nil _).symm, nofun⟩

lemma give_calls (k : Key) (notice : Notice) : Along Calls (give k notice) :=
  along_modify fun _ => ⟨rfl, [], (List.append_nil _).symm, nofun⟩

lemma record_calls (k : Key) (hook : ℕ) (notice : Notice) :
    Along Calls (record k hook notice) :=
  along_modify fun _ => ⟨rfl, _, rfl, fun _ hi => by rw [List.mem_singleton.1 hi]⟩

variable {env : Callbacks} {own : Notice → Act}

/-- A kind of acts that all parts of an emission are of, but for the callbacks of the core's own
hook. -/
structure Closed (env : Callbacks) (P : Act → Prop) : Prop where
  done : P (pure ())
  bind : ∀ {p q : Act}, P p → P q → P (p >>= fun _ => q)
  get : ∀ {f : World → Act}, (∀ w, P (f w)) → P (.get >>= f)
  put : ∀ k id events, P (putCallbacks k id events)
  record : ∀ k id notice, P (record k id notice)
  effect : ∀ name notice, P (share (env name notice))

namespace Closed

variable {P : Act → Prop}

lemma forEach {β : Type} (h : Closed env P) {f : β → Act} {bs : List β} (hf : ∀ b ∈ bs, P (f b)) :
    P (Prog.forEach f bs) := by
  induction bs with
  | nil => exact h.done
  | cons b bs ih =>
    exact h.bind (hf b List.mem_cons_self) (ih fun c hc => hf c (List.mem_cons_of_mem b hc))

lemma dispatch (h : Closed env P) {k : Key} {notice : Notice} {id : ℕ}
    (hown : k = core ∧ id = coreHook → P (own notice)) : P (dispatch env own k notice id) := by
  refine h.get fun w => ?_
  cases (w.shared.hooks k).callbacks id with
  | none => exact h.done
  | some events =>
    refine h.bind (h.put k id none) (h.bind ?_ (h.put k id _))
    cases events.select notice with
    | none => exact h.done
    | some name =>
      refine h.bind (h.record k id notice) ?_
      split_ifs with hcore
      · exact hown hcore
      · exact h.effect name notice

lemma emitHook (h : Closed env P) {k : Key} {notice : Notice} (hown : k = core → P (own notice)) :
    P (emitHook env own k notice) :=
  h.get fun _ => h.forEach fun _ _ => h.dispatch fun hcore => hown hcore.1

end Closed

lemma Along.of_calls {R : World → World → Prop} (hR : ∀ w w', Calls w w' → R w w') {act : Act}
    (h : Along Calls act) : Along R act :=
  fun w => (h w).mono (fun _ _ => hR _ _) fun _ _ => hR _ _

lemma along_closed {R : World → World → Prop} [Std.Refl R] [IsTrans World R]
    (hR : ∀ w w', Calls w w' → R w w') : Closed env (Along R) where
  done := along_pure ()
  bind hp hq := hp.bind fun _ => hq
  get := along_get_bind
  put _ _ _ := Along.of_calls hR (share_calls _)
  record k id notice := Along.of_calls hR (record_calls k id notice)
  effect _ _ := Along.of_calls hR (share_calls _)

lemma notifyOther_calls (k : Key) (notice : Notice) : Along Calls (notifyOther env k notice) :=
  (give_calls k notice).bind fun _ => (along_closed fun _ _ => id).emitHook fun _ => along_pure ()

/-! ### Nobody listens -/

/-- A hook that is there and not dispatched has a callback for the event. -/
def Listens (s : Shared) (k : Key) (notice : Notice) (id : ℕ) : Prop :=
  ∃ events, (s.hooks k).callbacks id = some events ∧ (events.select notice).isSome

/-- A listener is called by the event. -/
def Hears (s : Shared) (k : Key) (notice : Notice) : Prop :=
  ∃ hook ∈ (s.hooks k).hooks, ∃ events, hook.callbacks = some events ∧ (events.select notice).isSome

lemma hears_iff {s : Shared} {k : Key} {notice : Notice} :
    Hears s k notice ↔ ∃ id ∈ (s.hooks k).ids, Listens s k notice id := by
  constructor
  · rintro ⟨hook, hmem, events, hevents, hselect⟩
    refine ⟨hook.id, List.mem_map_of_mem hmem, events, ?_, hselect⟩
    rw [HookList.callbacks_of_mem hmem, hevents]
  · rintro ⟨id, hid, events, hevents, hselect⟩
    obtain ⟨hook, hmem, rfl⟩ := List.mem_map.1 hid
    rw [HookList.callbacks_of_mem hmem] at hevents
    exact ⟨hook, hmem, events, hevents, hselect⟩

lemma Proxy.put_put {proxy : Proxy} {id : ℕ} {events : ProxyEvents}
    (h : proxy.hooks.callbacks id = some events) :
    (proxy.put id none).put id (some events) = proxy := by
  cases proxy
  simp only [put, HookList.put_put h]

lemma Shared.put_put {s : Shared} {k : Key} {id : ℕ} {events : ProxyEvents}
    (h : (s.hooks k).callbacks id = some events) : (s.put k id none).put k id (some events) = s := by
  have hproxies : (s.proxies.modify k fun proxy => proxy.put id none).modify k
      (fun proxy => proxy.put id (some events)) = s.proxies := by
    refine List.ext_getElem? fun j => ?_
    rw [List.getElem?_modify, List.getElem?_modify]
    by_cases hj : k = j
    · subst hj
      unfold hooks at h
      cases hproxy : s.proxies[k]? with
      | none => simp
      | some proxy =>
        rw [hproxy] at h
        simpa using Proxy.put_put h
    · simp [hj]
  unfold put
  rw [hproxies]

/-- A hook without a callback for the event: its callbacks are taken out and put back. -/
lemma dispatch_silent {w : World} {k : Key} {notice : Notice} {id : ℕ}
    (h : ¬ Listens w.shared k notice id) : dispatch env own k notice id w = (.ok (), w) := by
  unfold dispatch
  rw [get_bind]
  cases hevents : (w.shared.hooks k).callbacks id with
  | none => rfl
  | some events =>
    have hselect : events.select notice = none := by
      by_contra hne
      exact h ⟨events, hevents, Option.isSome_iff_ne_none.2 hne⟩
    simp only [hselect]
    exact congrArg (fun shared => (Except.ok (), { w with shared })) (Shared.put_put hevents)

lemma emitHook_silent {w : World} {k : Key} {notice : Notice} (h : ¬ Hears w.shared k notice) :
    emitHook env own k notice w = (.ok (), w) := by
  obtain ⟨w', hrun, rfl⟩ : ∃ w', emitHook env own k notice w = (.ok (), w') ∧ w' = w := by
    refine forEach_run (fun id hid w' hw' => ⟨w, ?_, rfl⟩) rfl
    rw [hw']
    exact dispatch_silent fun hl => h (hears_iff.2 ⟨id, hid, hl⟩)
  exact hrun

/-! ### Somebody listens -/

lemma Along.longer {act : Act} (h : Along Calls act) : Along Longer act :=
  Along.of_calls (fun _ _ => Calls.longer) h

lemma share_longer (f : Shared → Shared) : Along Longer (share f) := Along.longer (share_calls f)

def CalledUnder (held : Option Mode) (w : World) : Prop := ∃ i ∈ w.trace, i.held = held

lemma Longer.calledUnder {held : Option Mode} {w w' : World} (h : Longer w w')
    (hw : CalledUnder held w) : CalledUnder held w' := by
  obtain ⟨i, hi, hheld⟩ := hw
  exact ⟨i, h.subset hi, hheld⟩

lemma bind_heard {α : Type} {p : Prog World Halt α} {q : α → Act} {w : World} {held : Option Mode}
    (h : CalledUnder held (p w).2) (hq : ∀ a, Along Longer (q a)) :
    CalledUnder held ((p >>= q) w).2 := by
  cases hrun : p w with
  | mk r w' =>
    rw [hrun] at h
    cases r with
    | error e => rwa [bind_error hrun]
    | ok a =>
      rw [bind_ok hrun]
      exact ((hq a).run w').calledUnder h

lemma dispatch_heard (hown : ∀ notice, Along Longer (own notice)) {w : World} {k : Key}
    {notice : Notice} {id : ℕ} (h : Listens w.shared k notice id) :
    CalledUnder w.held (dispatch env own k notice id w).2 := by
  obtain ⟨events, hevents, hselect⟩ := h
  obtain ⟨name, hname⟩ := Option.isSome_iff_exists.1 hselect
  have hrest : Along Longer (if k = core ∧ id = coreHook then own notice
      else share (env name notice)) := by
    split_ifs
    · exact hown notice
    · exact share_longer _
  unfold dispatch
  rw [get_bind, hevents]
  simp only [hname]
  refine bind_heard (p := callback env own k id notice (some name)) (bind_heard ?_ fun _ => hrest)
    fun _ => share_longer _
  exact ⟨⟨k, id, notice, w.held⟩, List.mem_append_right _ List.mem_cons_self, rfl⟩

lemma forEach_heard {β : Type} {f : β → Act} {bs : List β} {w : World} {held : Option Mode}
    {I : World → Prop} (P : β → Prop) (hlonger : ∀ b, Along Longer (f b))
    (hsilent : ∀ b w, I w → ¬ P b → ∃ w', f b w = (.ok (), w') ∧ I w')
    (hheard : ∀ b w, I w → P b → CalledUnder held (f b w).2) (hw : I w) (h : ∃ b ∈ bs, P b) :
    CalledUnder held (forEach f bs w).2 := by
  induction bs generalizing w with
  | nil => simp at h
  | cons b bs ih =>
    unfold forEach
    by_cases hb : P b
    · exact bind_heard (hheard b w hw hb) fun _ => along_forEach hlonger bs
    · obtain ⟨w', hrun, hw'⟩ := hsilent b w hw hb
      rw [bind_ok hrun]
      refine ih hw' ?_
      obtain ⟨c, hc, hPc⟩ := h
      exact ⟨c, (List.mem_cons.1 hc).resolve_left fun heq => hb (heq ▸ hPc), hPc⟩

lemma emitHook_heard (hown : ∀ notice, Along Longer (own notice)) {w : World} {k : Key}
    {notice : Notice} (h : Hears w.shared k notice) :
    CalledUnder w.held (emitHook env own k notice w).2 := by
  unfold emitHook
  rw [get_bind]
  refine forEach_heard (I := fun w' => w' = w) (Listens w.shared k notice)
    (fun id => (along_closed fun _ _ => Calls.longer).dispatch fun _ => hown notice) ?_ ?_ rfl
    (hears_iff.1 h)
  · rintro id _ rfl hid
    exact ⟨_, dispatch_silent hid, rfl⟩
  · rintro id _ rfl hid
    exact dispatch_heard hown hid

/-! ### The listener of the core -/

lemma acquire_longer (mode : Mode) : Along Longer (acquire mode) :=
  along_get_bind fun _ => (along_failIf _ _).bind fun _ => along_modify fun _ => List.prefix_rfl

lemma release_longer : Along Longer release := along_modify fun _ => List.prefix_rfl

lemma handleRemoved_longer : Along Longer (handleRemoved env) :=
  (acquire_longer _).bind fun _ => along_get_bind fun _ =>
    (along_forEach (fun k => Along.longer (notifyOther_calls k _)) _).bind fun _ => release_longer

lemma handleDestroy_longer : Along Longer (handleDestroy env) := by
  refine along_get_bind fun w => ?_
  split_ifs
  · exact along_pure ()
  · refine (share_longer _).bind fun _ => (acquire_longer _).bind fun _ => along_get_bind fun w => ?_
    cases w.shared.coreClient with
    | none => exact along_fail _
    | some client =>
      exact (share_longer _).bind fun _ => release_longer.bind fun _ =>
        (Along.longer (notifyOther_calls client _)).bind fun _ => share_longer _

lemma coreCallbacks_longer (notice : Notice) : Along Longer (coreCallbacks env notice) := by
  cases notice with
  | removed => exact handleRemoved_longer
  | destroy => exact handleDestroy_longer
  | _ => exact along_pure ()

lemma proxyNotify_longer (k : Key) (notice : Notice) : Along Longer (proxyNotify env k notice) :=
  (Along.longer (give_calls k notice)).bind fun _ =>
    (along_closed fun _ _ => Calls.longer).emitHook fun _ => coreCallbacks_longer notice

/-! ### Events -/

/-- Something is done that tells the listeners of a proxy of an event, and no others. -/
def Tells (act : Act) (k : Key) (notice : Notice) : Prop :=
  ∀ w, (¬ Hears w.shared k notice → (act w).2.trace = w.trace) ∧
    (Hears w.shared k notice → CalledUnder w.held (act w).2)

lemma proxyNotify_tells (k : Key) (notice : Notice) : Tells (proxyNotify env k notice) k notice := by
  refine fun w => ⟨fun h => ?_, emitHook_heard coreCallbacks_longer (w := w.give k notice)⟩
  exact congrArg (·.2.trace) (emitHook_silent (w := w.give k notice) h)

lemma bind_silent {p q : Act} {w : World} (hp : (p w).2.trace = w.trace)
    (hq : ∀ w, (q w).2.trace = w.trace) : ((p >>= fun _ => q) w).2.trace = w.trace := by
  cases hrun : p w with
  | mk r w' =>
    rw [hrun] at hp
    cases r with
    | error e =>
      rw [bind_error hrun]
      exact hp
    | ok u =>
      rw [bind_ok hrun]
      exact (hq w').trans hp

lemma Tells.share_after {act : Act} {k : Key} {notice : Notice} (h : Tells act k notice)
    (f : Shared → Shared) : Tells (act >>= fun _ => share f) k notice := fun w =>
  ⟨fun hsilent => bind_silent ((h w).1 hsilent) fun _ => rfl,
    fun hears => bind_heard ((h w).2 hears) fun _ => share_longer f⟩

lemma hears_setBound {s : Shared} {k : Key} (id : UInt32) {notice : Notice} :
    Hears (s.setBound k id) k notice ↔ Hears s k notice := by
  have hhooks : (s.setBound k id).hooks k = s.hooks k := by
    unfold Shared.hooks Shared.setBound
    rw [List.getElem?_modify]
    cases s.proxies[k]? <;> simp
  unfold Hears
  rw [hhooks]

lemma setBound_tells (k : Key) (id : UInt32) (notice : Notice) :
    Tells (do
      share fun s => s.setBound k id
      proxyNotify env k notice) k notice := by
  intro w
  rw [← hears_setBound id]
  exact proxyNotify_tells k notice { w with shared := w.shared.setBound k id }

/-- No listener is called while the lock is held, in a thread that begins. -/
def Free (act : Act) (s : Shared) : Prop := ∀ i ∈ (act (.idle s)).2.trace, i.held = none

lemma CalledUnder.not_free {act : Act} {s : Shared} {mode : Mode}
    (h : CalledUnder (some mode) (act (.idle s)).2) : ¬ Free act s := by
  obtain ⟨i, hi, hheld⟩ := h
  exact fun hfree => by simp [hfree i hi] at hheld

lemma withObject_free {mode : Mode} {id : UInt32} {act : Key → Act} {s : Shared}
    {notice : Notice} (h : ∀ k, Tells (act k) k notice) :
    Free (withObject mode id act) s ↔ ¬ ∃ k, s.objects.get id = some k ∧ Hears s k notice := by
  let w : World := { World.idle s with held := some mode }
  have hrun : withObject mode id act (.idle s) =
      (ifSome act (s.objects.get id) >>= fun _ => release) w := rfl
  cases hget : s.objects.get id with
  | none =>
    refine ⟨fun _ => by simp, fun _ i hi => ?_⟩
    rw [hrun, hget] at hi
    cases hi
  | some k =>
    rw [hget] at hrun
    by_cases hears : Hears s k notice
    · have hheard : CalledUnder (some mode) (withObject mode id act (.idle s)).2 := by
        rw [hrun]
        exact bind_heard ((h k w).2 hears) fun _ => release_longer
      exact iff_of_false hheard.not_free (not_not.2 ⟨k, rfl, hears⟩)
    · refine iff_of_true (fun i hi => ?_) ?_
      · have htrace : ((act k >>= fun _ => release) w).2.trace = [] :=
          bind_silent ((h k w).1 hears) fun _ => rfl
        rw [hrun] at hi
        exact absurd (htrace ▸ hi) List.not_mem_nil
      · rintro ⟨_, ⟨⟩, h⟩
        exact hears h

/-! ### The end of a connection -/

/-- The thread does not hold the lock, and has called no listener while it did. -/
def Clear (w : World) : Prop := w.held = none ∧ ∀ i ∈ w.trace, i.held = none

/-- From there, what is done calls none. -/
def Clears (act : Act) : Prop :=
  ∀ w, Clear w → act.Ends w (fun _ w' => Clear w') (fun _ w' => ∀ i ∈ w'.trace, i.held = none)

lemma Calls.clear {w w' : World} (h : Calls w w') (hw : Clear w) : Clear w' := by
  obtain ⟨hheld, new, htrace, hnew⟩ := h
  refine ⟨hheld.trans hw.1, fun i hi => ?_⟩
  rw [htrace] at hi
  obtain hi | hi := List.mem_append.1 hi
  · exact hw.2 i hi
  · exact (hnew i hi).trans hw.1

lemma Along.clears {act : Act} (h : Along Calls act) : Clears act :=
  fun w hw => (h w).mono (fun _ _ h => h.clear hw) fun _ _ h => (h.clear hw).2

lemma Clears.bind {p q : Act} (hp : Clears p) (hq : Clears q) : Clears (p >>= fun _ => q) :=
  fun w hw => ends_bind.2 ((hp w hw).mono (fun _ w' hw' => hq w' hw') fun _ _ h => h)

lemma clears_closed : Closed env Clears where
  done := Along.clears (along_pure ())
  bind := Clears.bind
  get h := fun w => h w w
  put _ _ _ := Along.clears (share_calls _)
  record k id notice := Along.clears (record_calls k id notice)
  effect _ _ := Along.clears (share_calls _)

lemma acquire_eq {w : World} (h : w.held = none) (mode : Mode) :
    acquire mode w = (.ok (), { w with held := some mode }) := by
  unfold acquire
  rw [get_bind, failIf_bind (by simp [h])]
  rfl

lemma acquire_ends {w : World} {mode : Mode} {Q : Unit → World → Prop} {E : Halt → World → Prop}
    (h : w.held = none) (hQ : Q () { w with held := some mode }) : (acquire mode).Ends w Q E :=
  (ends_of_run (acquire_eq h mode)).2 hQ

lemma handleDestroy_clears : Clears (handleDestroy env) := by
  intro w hw
  unfold handleDestroy
  rw [ends_bind, ends_get]
  split_ifs
  · exact hw
  · rw [ends_bind, share, ends_modify, ends_bind]
    refine acquire_ends hw.1 ?_
    rw [ends_bind, ends_get]
    unfold giveUp
    split
    · exact hw.2
    · rw [ends_bind, share, ends_modify, ends_bind, release, ends_modify]
      exact ((Along.clears (notifyOther_calls _ _)).bind (Along.clears (share_calls _))) _ ⟨rfl, hw.2⟩

lemma notifyDestroy_clears : Clears (proxyNotify env core .destroy) :=
  (Along.clears (give_calls _ _)).bind (clears_closed.emitHook fun _ => handleDestroy_clears)

lemma handleRemoved_eq {w : World} (h : w.held = none) : handleRemoved env w =
    (forEach (fun k => notifyOther env k .removed) (w.shared.objects.values.drop 1) >>=
      fun _ => release) { w with held := some .read } := by
  unfold handleRemoved
  rw [bind_ok (acquire_eq h .read)]
  rfl

lemma notifyOther_silent {w : World} {k : Key} {notice : Notice} (h : ¬ Hears w.shared k notice) :
    notifyOther env k notice w = (.ok (), w.give k notice) :=
  emitHook_silent (w := w.give k notice) h

lemma handleRemoved_silent (env : Callbacks) {w : World} (h : w.held = none)
    (hears : ∀ k ∈ w.shared.objects.values.drop 1, ¬ Hears w.shared k .removed) :
    ∃ w', handleRemoved env w = (.ok (), w') ∧ w'.held = none ∧ w'.trace = w.trace := by
  obtain ⟨w', hrun, -, htrace⟩ : ∃ w', forEach (fun k => notifyOther env k .removed)
      (w.shared.objects.values.drop 1) { w with held := some .read } = (.ok (), w') ∧
      w'.shared = w.shared ∧ w'.trace = w.trace := by
    refine forEach_run (fun k hk w' hw' => ?_) ⟨rfl, rfl⟩
    refine ⟨w'.give k .removed, notifyOther_silent ?_, hw'⟩
    rw [hw'.1]
    exact hears k hk
  rw [handleRemoved_eq h, bind_ok hrun]
  exact ⟨_, rfl, rfl, htrace⟩

lemma handleRemoved_heard {w : World} (h : w.held = none)
    (hears : ∃ k ∈ w.shared.objects.values.drop 1, Hears w.shared k .removed) :
    CalledUnder (some .read) (handleRemoved env w).2 := by
  rw [handleRemoved_eq h]
  refine bind_heard (forEach_heard (I := fun w' => w'.shared = w.shared ∧ w'.held = some .read)
    (fun k => Hears w.shared k .removed) (fun k => Along.longer (notifyOther_calls k _))
    ?_ ?_ ⟨rfl, rfl⟩ hears) fun _ => release_longer
  · intro k w' hw' hk
    refine ⟨w'.give k .removed, notifyOther_silent ?_, hw'⟩
    rw [hw'.1]
    exact hk
  · intro k w' hw' hk
    rw [← hw'.2]
    refine emitHook_heard (fun _ => along_pure ()) (w := w'.give k .removed) ?_
    change Hears w'.shared k .removed
    rw [hw'.1]
    exact hk

/-- The hook of the core comes before all others of its list. -/
lemma ids_core (s : Shared) : ∃ others, coreHook ∉ others ∧
    ((s.hooks core).ids = others ∨ (s.hooks core).ids = coreHook :: others) := by
  have hascending : (s.hooks core).ids.Pairwise (· < ·) := by
    unfold Shared.hooks
    cases s.proxies[core]? with
    | none => exact .nil
    | some proxy => exact proxy.ascending
  cases hids : (s.hooks core).ids with
  | nil => exact ⟨[], List.not_mem_nil, .inl rfl⟩
  | cons id ids =>
    rw [hids, List.pairwise_cons] at hascending
    have hnotin : coreHook ∉ ids := fun hmem => Nat.not_lt_zero id (hascending.1 coreHook hmem)
    by_cases hid : id = coreHook
    · exact ⟨ids, hnotin, .inr (by rw [hid])⟩
    · exact ⟨id :: ids, List.not_mem_cons_of_ne_of_not_mem (Ne.symm hid) hnotin, .inl rfl⟩

lemma Listens.ids_core {s : Shared} {notice : Notice} (h : Listens s core notice coreHook) :
    ∃ others, coreHook ∉ others ∧ (s.hooks core).ids = coreHook :: others := by
  obtain ⟨others, hothers, hids⟩ := Core.ids_core s
  refine ⟨others, hothers, hids.resolve_left fun hids => hothers ?_⟩
  obtain ⟨events, hevents, -⟩ := h
  obtain ⟨hook, hfind, -⟩ := Option.bind_eq_some_iff.1 hevents
  exact hids ▸ HookList.mem_ids.2 ⟨hook, List.mem_of_find?_eq_some hfind,
    by simpa using List.find?_some hfind⟩

/-- The world in which the core's own hook is called. -/
def World.entered (w : World) (notice : Notice) : World :=
  { w with
    shared := w.shared.put core coreHook none
    trace := w.trace ++ [⟨core, coreHook, notice, w.held⟩] }

lemma dispatch_core (env : Callbacks) (own : Notice → Act) {w : World} {notice : Notice}
    (h : Listens w.shared core notice coreHook) :
    ∃ events, (w.shared.hooks core).callbacks coreHook = some events ∧
      dispatch env own core notice coreHook w =
        (own notice >>= fun _ => putCallbacks core coreHook (some events)) (w.entered notice) := by
  obtain ⟨events, hevents, hselect⟩ := h
  obtain ⟨name, hname⟩ := Option.isSome_iff_exists.1 hselect
  refine ⟨events, hevents, ?_⟩
  unfold dispatch
  rw [get_bind, hevents]
  simp only [hname, callback, and_self, if_true]
  rfl

/-- When a client disconnects, the listeners of all registered objects but the first are called while
the lock is held, unless the core's own hook was removed or is being called already. -/
lemma disconnect_free {s : Shared} : Free (disconnect env) s ↔
    ¬ (Listens s core .removed coreHook ∧
      ∃ k ∈ s.objects.values.drop 1, Hears (s.put core coreHook none) k .removed) := by
  let w : World := (World.idle s).give core .removed
  have hemit : emitHook env (coreCallbacks env) core .removed w =
      forEach (dispatch env (coreCallbacks env) core .removed) (s.hooks core).ids w := rfl
  have hothers {others : List ℕ} (h : coreHook ∉ others) :
      Clears (forEach (dispatch env (coreCallbacks env) core .removed) others) :=
    have hclosed : Closed env Clears := clears_closed
    hclosed.forEach fun id hid => hclosed.dispatch fun hcore => absurd (hcore.2 ▸ hid) h
  constructor
  · rintro hfree ⟨hlistens, hears⟩
    obtain ⟨others, -, hids⟩ := hlistens.ids_core
    obtain ⟨events, -, hdispatch⟩ := dispatch_core env (coreCallbacks env) (w := w) hlistens
    have hremoved : CalledUnder (some .read)
        (dispatch env (coreCallbacks env) core .removed coreHook w).2 := by
      rw [hdispatch]
      exact bind_heard (handleRemoved_heard (w := w.entered .removed) rfl hears) fun _ =>
        share_longer _
    have hheard : CalledUnder (some .read) (disconnect env (.idle s)).2 := by
      refine bind_heard (p := proxyNotify env core .removed) ?_ fun _ => proxyNotify_longer _ _
      change CalledUnder _ (emitHook env (coreCallbacks env) core .removed w).2
      rw [hemit, hids]
      exact bind_heard hremoved fun _ => along_forEach (fun id =>
        (along_closed fun _ _ => Calls.longer).dispatch fun _ => coreCallbacks_longer _) _
    exact hheard.not_free hfree
  · intro hno
    have hdispatch : (dispatch env (coreCallbacks env) core .removed coreHook).Ends w
        (fun _ w' => Clear w') (fun _ w' => ∀ i ∈ w'.trace, i.held = none) := by
      by_cases hlistens : Listens s core .removed coreHook
      · obtain ⟨events, -, hrun⟩ := dispatch_core env (coreCallbacks env) (w := w) hlistens
        obtain ⟨w', hremoved, hheld, htrace⟩ := handleRemoved_silent env
          (w := w.entered .removed) rfl fun k hk h => hno ⟨hlistens, k, hk, h⟩
        refine (ends_of_run (hrun.trans (bind_ok hremoved))).2 ⟨hheld, fun i hi => ?_⟩
        change i ∈ w'.trace at hi
        rw [htrace] at hi
        rw [List.mem_singleton.1 hi]
        rfl
      · exact (ends_of_run (dispatch_silent hlistens)).2 ⟨rfl, nofun⟩
    have hremoved : (emitHook env (coreCallbacks env) core .removed).Ends w (fun _ w' => Clear w')
        (fun _ w' => ∀ i ∈ w'.trace, i.held = none) := by
      rw [ends_of_run hemit]
      obtain ⟨others, hnotin, hids | hids⟩ := ids_core s
      · rw [hids]
        exact hothers hnotin w ⟨rfl, nofun⟩
      · rw [hids]
        exact ends_bind.2 (hdispatch.mono (fun _ w' hw' => hothers hnotin w' hw') fun _ _ h => h)
    have hends : (disconnect env).Ends (.idle s) (fun _ w' => Clear w')
        (fun _ w' => ∀ i ∈ w'.trace, i.held = none) :=
      ends_bind.2 (Ends.mono (p := proxyNotify env core .removed) hremoved
        (fun _ w' hw' => notifyDestroy_clears w' hw') fun _ _ h => h)
    exact ends_state.1 (hends.mono (fun _ _ h => h.2) fun _ _ h => h)

/-! ### All calls -/

/-- A listener is called while the lock is held: one of the object that an event is for, or when the
client disconnects one of a registered object other than the first. -/
def Call.Listened (s : Shared) : Call → Prop
  | .done id seq => ∃ k, s.objects.get id = some k ∧ Hears s k (.done seq)
  | .error id seq res message => ∃ k, s.objects.get id = some k ∧ Hears s k (.error seq res message)
  | .removeId id => ∃ k, s.objects.get id = some k ∧ Hears s k .removed
  | .boundId id globalId => ∃ k, s.objects.get id = some k ∧ Hears s k (.bound globalId)
  | .boundProps id globalId props =>
    ∃ k, s.objects.get id = some k ∧ Hears s k (.boundProps globalId props)
  | .disconnect => Listens s core .removed coreHook ∧
    ∃ k ∈ s.objects.values.drop 1, Hears (s.put core coreHook none) k .removed

/-- **Listeners and the lock.** No listener of a proxy is called while the calling thread holds the
lock of the map, exactly when nobody listens to the event at the object that it is for, and, when the
client disconnects, at the objects other than the first. -/
theorem run_free_iff (env : Callbacks) (call : Call) (s : Shared) :
    (∀ i ∈ (call.run env (.idle s)).2.trace, i.held = none) ↔ ¬ call.Listened s := by
  cases call with
  | done _ _ | error _ _ _ _ => exact withObject_free fun k => proxyNotify_tells k _
  | removeId id => exact withObject_free fun k => (proxyNotify_tells k _).share_after _
  | boundId _ _ | boundProps _ _ _ => exact withObject_free fun k => setBound_tells k _ _
  | disconnect => exact disconnect_free

/-- A core and its client, to which somebody listens for `done`. -/
def listening : Shared where
  proxies := [(Proxy.new .core).addListener coreEvents,
    (Proxy.new .client).addListener { done := some 0 }]
  objects := ⟨[.occupied 0, .occupied 1]⟩
  destroyed := false
  connected := true
  importer := false

theorem done_listening : ((Call.done 1 7).run (fun _ _ s => s) (.idle listening)).2.trace =
    [⟨1, 0, .done 7, some .read⟩] := by
  rfl

end PipewireNative.Core
