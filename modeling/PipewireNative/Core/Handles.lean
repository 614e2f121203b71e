import Mathlib.Data.Set.Insert
import PipewireNative.Core.Disconnect
import PipewireNative.Protocol.Connection

/-!
Objects are made by a call that registers a proxy first and then sends a message, and their handles
stay with the application when the server removes their ids: what the map is like when such a call
fails, and which object a call through a handle is for.
-/

namespace PipewireNative.Core

open Lib Prog Protocol Marshal
open PipewireNative.Frame (OwnedFd)

/-! ### Sessions -/

/-- A proxy that the application holds, with its id. -/
structure Handle where
  key : Key
  id : UInt32
  deriving DecidableEq, Repr

/-- A core and its connection, and the handles that were given to the application. -/
structure Session where
  world : World
  connection : Connection
  handles : List Handle

/-- A call does not come back with a value: the thread stops, or the call fails. -/
inductive CallFault where
  | halt (halt : Halt)
  | client (fault : ClientFault)
  deriving DecidableEq

def CallFault.Returned : CallFault → Prop
  | .halt _ => False
  | .client fault => fault ≠ .panic

namespace Session

def objects (s : Session) : IdMap Key := s.world.shared.objects

/-- `new` of a proxy: the id is the one that is reserved. -/
def newProxy (family : Family) : Prog Session CallFault Handle := do
  let s ← .get
  ((create family).mapErr .halt).zoom world fun world s => { s with world }
  pure ⟨s.world.shared.proxies.length, s.objects.reserve.1⟩

/-- The types that `new_object` knows. -/
def interface : String → Option Family
  | "PipeWire:Interface:Client" => some .client
  | "PipeWire:Interface:ClientNode" => some .clientNode
  | "PipeWire:Interface:Device" => some .device
  | "PipeWire:Interface:Factory" => some .factory
  | "PipeWire:Interface:Link" => some .link
  | "PipeWire:Interface:Metadata" => some .metadata
  | "PipeWire:Interface:Module" => some .module
  | "PipeWire:Interface:Node" => some .node
  | "PipeWire:Interface:Port" => some .port
  | "PipeWire:Interface:Profiler" => some .profiler
  | _ => none

def newObject (type : String) : Prog Session CallFault Handle :=
  match interface type with
  | some family => newProxy family
  | none => .fail (.client (.message .unsupported s!"Unsupported proxy type {type}"))

def push (id : UInt32) (object : Marshallable) : Prog Session CallFault Unit :=
  ((Connection.push id object []).mapErr .client).zoom connection fun connection s =>
    { s with connection }

/-- A proxy is made, and then the server is asked for its object. -/
def request (make : Prog Session CallFault Handle) (id : UInt32) (message : Handle → Marshallable) :
    Prog Session CallFault Handle := do
  let object ← make
  push id (message object)
  pure object

def getRegistry (core : Handle) : Prog Session CallFault Handle :=
  request (newProxy .registry) core.id fun registry => .core (.getRegistry 3 registry.id.toInt32)

def createObject (core : Handle) (factoryName type : String) (version : UInt32)
    (props : List (String × String)) : Prog Session CallFault Handle :=
  request (newObject type) core.id fun object =>
    .core (.createObject factoryName type version.toInt32 props object.id.toInt32)

def bind (registry : Handle) (id : UInt32) (type : String) (version : UInt32) :
    Prog Session CallFault Handle :=
  request (newObject type) registry.id fun object =>
    .registry (.bind id.toInt32 type version.toInt32 object.id.toInt32)

end Session

/-- The calls that make an object. -/
inductive Creation where
  | getRegistry (core : Handle)
  | createObject (core : Handle) (factoryName type : String) (version : UInt32)
      (props : List (String × String))
  | bind (registry : Handle) (id : UInt32) (type : String) (version : UInt32)

namespace Creation

def run : Creation → Prog Session CallFault Handle
  | .getRegistry core => Session.getRegistry core
  | .createObject core factoryName type version props =>
    Session.createObject core factoryName type version props
  | .bind registry id type version => Session.bind registry id type version

/-- The handle through which the call is made. -/
def handle : Creation → Handle
  | .getRegistry core => core
  | .createObject core _ _ _ _ => core
  | .bind registry _ _ _ => registry

/-- What is sent for the object that was made. -/
def message (object : Handle) : Creation → Marshallable
  | .getRegistry _ => .core (.getRegistry 3 object.id.toInt32)
  | .createObject _ factoryName type version props =>
    .core (.createObject factoryName type version.toInt32 props object.id.toInt32)
  | .bind _ id type version => .registry (.bind id.toInt32 type version.toInt32 object.id.toInt32)

/-- The call names a type that `new_object` does not know. -/
def Unsupported : Creation → Prop
  | .getRegistry _ => False
  | .createObject _ _ type _ _ => Session.interface type = none
  | .bind _ _ type _ => Session.interface type = none

end Creation

/-! ### The map when an object is made -/

namespace IdMap

variable {α : Type} {m m' : IdMap α}

/-- The ids that are registered or reserved. -/
def taken (m : IdMap α) : Set ℕ := { i | ∃ item, m.objects[i]? = some item ∧ item.isEmpty = false }

lemma reserve_taken (m : IdMap α) : ∃ i ∉ m.taken, m.reserve.2.taken = insert i m.taken := by
  unfold reserve
  split
  · next i hi =>
    obtain ⟨hlt, hempty, -⟩ := List.findIdx?_eq_some_iff_getElem.1 hi
    refine ⟨i, ?_, Set.ext fun j => ?_⟩
    · rintro ⟨item, hitem, hfull⟩
      rw [List.getElem?_eq_getElem hlt, Option.some_inj] at hitem
      rw [hitem, hfull] at hempty
      cases hempty
    · simp only [taken, Set.mem_ofPred_eq, Set.mem_insert_iff, List.getElem?_set]
      split_ifs with hij
      · subst hij
        exact ⟨fun _ => .inl rfl, fun _ => ⟨.reserved, rfl, rfl⟩⟩
      · exact ⟨.inr, fun h => h.resolve_left (Ne.symm hij)⟩
  · refine ⟨m.objects.length, ?_, Set.ext fun j => ?_⟩
    · rintro ⟨item, hitem, -⟩
      exact absurd (List.getElem?_eq_some_iff.1 hitem).1 (Nat.lt_irrefl _)
    · simp only [taken, Set.mem_ofPred_eq, Set.mem_insert_iff]
      obtain hlt | rfl | hgt := Nat.lt_trichotomy j m.objects.length
      · rw [List.getElem?_append_left hlt]
        exact ⟨.inr, fun h => h.resolve_left (Nat.ne_of_lt hlt)⟩
      · exact ⟨fun _ => .inl rfl, fun _ => ⟨.reserved, List.getElem?_concat_length, rfl⟩⟩
      · rw [List.getElem?_eq_none (by simpa using Nat.succ_le_of_lt hgt), List.getElem?_eq_none (Nat.le_of_lt hgt)]
        exact ⟨.inr, fun h => h.resolve_left (Nat.ne_of_gt hgt)⟩

lemma insertAt_taken {id : UInt32} {k : α} (h : m.insertAt id k = some m') : m'.taken = m.taken := by
  obtain ⟨hslot, hobjects⟩ := insertAt_occupied h
  refine Set.ext fun j => ?_
  simp only [taken, Set.mem_ofPred_eq, hobjects, List.getElem?_set]
  split_ifs with hid hlt
  · subst hid
    rw [hslot]
    exact ⟨fun _ => ⟨_, rfl, rfl⟩, fun _ => ⟨_, rfl, rfl⟩⟩
  · subst hid
    exact absurd (List.getElem?_eq_some_iff.1 hslot).1 hlt
  · rfl

/-- An object is registered in this slot. -/
def Holds (m : IdMap α) (i : ℕ) (k : α) : Prop := m.objects[i]? = some (.occupied k)

lemma occupied_insertAt {id : UInt32} {k : α} (h : m.reserve.2.insertAt id k = some m') {i : ℕ}
    {k' : α} : m'.Holds i k' ↔
      m.Holds i k' ∨ i = id.toNat ∧ k' = k := by
  obtain ⟨hslot, hobjects⟩ := insertAt_occupied h
  unfold Holds
  rw [hobjects, List.getElem?_set, ← reserve_occupied (m := m)]
  split_ifs with hid hlt
  · subst hid
    simp [hslot, eq_comm]
  · subst hid
    exact absurd (List.getElem?_eq_some_iff.1 hslot).1 hlt
  · simp [Ne.symm hid]

end IdMap

/-- A proxy was made in a world. -/
structure Made (h : Handle) (w w' : World) : Prop where
  held : w'.held = none
  key : h.key = w.shared.proxies.length
  length : w'.shared.proxies.length = w.shared.proxies.length + 1
  given : w'.given = w.given
  occupied : ∀ {i : ℕ} {k : Key}, w'.shared.objects.Holds i k ↔
    w.shared.objects.Holds i k ∨ i = h.id.toNat ∧ k = h.key
  taken : ∃ i ∉ w.shared.objects.taken, w'.shared.objects.taken = insert i w.shared.objects.taken

lemma create_made (family : Family) (w : World) :
    (create family).Ends w
      (fun _ w' => Made ⟨w.shared.proxies.length, w.shared.objects.reserve.1⟩ w w')
      (fun _ _ => True) := by
  by_cases hheld : w.held = none
  · unfold create nextProxyId addProxy
    simp only [ends_bind, ends_get, ends_pure, share, release, ends_modify]
    refine acquire_ends hheld (acquire_ends rfl ?_)
    split
    · trivial
    · next objects hinsert =>
      refine ⟨rfl, rfl, List.length_append, rfl, IdMap.occupied_insertAt hinsert, ?_⟩
      obtain ⟨i, hi, htaken⟩ := w.shared.objects.reserve_taken
      exact ⟨i, hi, (IdMap.insertAt_taken hinsert).trans htaken⟩
  · have hrun : create family w = (.error .deadlock, w) := by
      refine bind_error (bind_error ?_)
      unfold acquire
      rw [get_bind, failIf_bind_of (Option.isSome_iff_ne_none.2 hheld)]
    rw [ends_of_run hrun]
    trivial

namespace Session

/-- A proxy was made, and nothing else has happened. -/
structure Makes (h : Handle) (s s' : Session) : Prop where
  handles : s'.handles = s.handles
  made : Made h s.world s'.world

/-- A call that makes an object fails: before anything is done, for the type is not known, or with a
proxy that was made; and nothing was sent. -/
def Fails (unsupported : Prop) (s : Session) (f : CallFault) (s' : Session) : Prop :=
  s'.connection = s.connection ∧
    (f.Returned → unsupported ∧ s' = s ∨ ¬ unsupported ∧ ∃ h, Makes h s s')

lemma newProxy_ends (family : Family) (s : Session) : (newProxy family).Ends s
    (fun h s' => s'.connection = s.connection ∧ Makes h s s')
    (fun f s' => s'.connection = s.connection ∧ ¬ f.Returned) := by
  unfold newProxy
  simp only [ends_bind, ends_get, ends_zoom, ends_mapErr, ends_pure]
  exact (create_made family s.world).mono (fun _ w' h => ⟨trivial, rfl, h⟩) fun _ _ _ => ⟨trivial, id⟩

lemma request_ends {unsupported : Prop} {make : Prog Session CallFault Handle} {s : Session}
    (h : make.Ends s (fun h s' => ¬ unsupported ∧ s'.connection = s.connection ∧ Makes h s s')
      (Fails unsupported s)) (id : UInt32) (message : Handle → Marshallable) :
    (request make id message).Ends s
      (fun h s' => Makes h s s' ∧ ∃ body, Pushed id (message h) [] s.connection s'.connection body)
      (Fails unsupported s) := by
  unfold request push
  simp only [ends_bind, ends_zoom, ends_mapErr, ends_pure]
  refine h.mono (fun h s' hmade => ?_) fun _ _ hf => hf
  obtain ⟨hsupported, hconnection, hmakes⟩ := hmade
  have hpush := push_ends id (message h) [] s'.connection
  rw [hconnection] at hpush ⊢
  refine hpush.mono (fun _ c hc => ⟨⟨hmakes.handles, hmakes.made⟩, hc⟩) fun f c hc => ?_
  exact ⟨hc.1, fun _ => .inr ⟨hsupported, h, hmakes.handles, hmakes.made⟩⟩

lemma newObject_ends (type : String) (s : Session) : (newObject type).Ends s
    (fun h s' => ¬ interface type = none ∧ s'.connection = s.connection ∧ Makes h s s')
    (Fails (interface type = none) s) := by
  unfold newObject
  cases htype : interface type with
  | none => exact ⟨rfl, fun _ => .inl ⟨rfl, rfl⟩⟩
  | some family =>
    exact (newProxy_ends family s).mono (fun _ _ h => ⟨nofun, h⟩) fun _ _ h =>
      ⟨h.1, fun hreturned => absurd hreturned h.2⟩

end Session

namespace Creation

lemma run_ends (c : Creation) (s : Session) : c.run.Ends s
    (fun h s' => Session.Makes h s s' ∧
      ∃ body, Pushed c.handle.id (c.message h) [] s.connection s'.connection body)
    (Session.Fails c.Unsupported s) := by
  cases c with
  | getRegistry core =>
    exact Session.request_ends ((Session.newProxy_ends .registry s).mono
      (fun _ _ h => ⟨not_false, h⟩) fun _ _ h => ⟨h.1, fun hreturned => absurd hreturned h.2⟩) _ _
  | createObject core factoryName type version props =>
    exact Session.request_ends (Session.newObject_ends type s) _ _
  | bind registry id type version => exact Session.request_ends (Session.newObject_ends type s) _ _

/-- **Making an object.** When the call comes back with an error, the ids that are registered or
reserved are the same as before exactly if the type is not known; otherwise there is one more. -/
theorem taken_iff_unsupported (c : Creation) (s : Session) : c.run.Ends s (fun _ _ => True)
    (fun f s' => f.Returned → (s'.objects.taken = s.objects.taken ↔ c.Unsupported) ∧
      (¬ c.Unsupported → ∃ i ∉ s.objects.taken, s'.objects.taken = insert i s.objects.taken)) := by
  refine (c.run_ends s).mono (fun _ _ _ => trivial) fun f s' h hreturned => ?_
  obtain ⟨hun, rfl⟩ | ⟨hsup, h, hmakes⟩ := h.2 hreturned
  · exact ⟨⟨fun _ => hun, fun _ => rfl⟩, fun h => absurd hun h⟩
  · obtain ⟨i, hi, htaken⟩ := hmakes.made.taken
    refine ⟨⟨fun hsame => absurd ?_ hi, fun h => absurd h hsup⟩, fun _ => ⟨i, hi, htaken⟩⟩
    exact hsame ▸ htaken ▸ Set.mem_insert i _

def poisoned : Connection := { Connection.new with sender := { Connection.new.sender with failed := true } }

/-- A registry whose message cannot be sent stays in the map. -/
theorem taken_ne_getRegistry :
    ∃ s s' f, (Creation.getRegistry ⟨0, 0⟩).run s = (.error f, s') ∧ f.Returned ∧
      s'.objects.taken ≠ s.objects.taken := by
  let s : Session := ⟨Slots.start.world [], poisoned, [⟨0, 0⟩, ⟨1, 1⟩]⟩
  have hrun : ((Creation.getRegistry ⟨0, 0⟩).run s).1 = .error (.client (.frame .poisoned)) := by
    decide +kernel
  have hobjects : ((Creation.getRegistry ⟨0, 0⟩).run s).2.objects =
      ⟨[.occupied 0, .occupied 1, .occupied 2]⟩ := by decide +kernel
  cases hs : (Creation.getRegistry ⟨0, 0⟩).run s with
  | mk r s' =>
    rw [hs] at hrun hobjects
    cases hrun
    refine ⟨s, s', _, hs, nofun, fun htaken => ?_⟩
    have hmem : 2 ∈ s.objects.taken := by
      rw [← htaken, hobjects]
      exact ⟨.occupied 2, rfl, rfl⟩
    obtain ⟨item, hitem, -⟩ := hmem
    cases hitem

end Creation

/-! ### Histories -/

/-- Something that is done beside the map, such as a listener that is added: the lock of the map is
not asked for. -/
structure Aside where
  act : Shared → Shared
  objects : ∀ s, (act s).objects = s.objects
  length : ∀ s, (act s).proxies.length = s.proxies.length

/-- What happens in a session: objects are made, the server removes ids, other things are done, and
the connection sends and receives. -/
inductive Happening where
  | create (c : Creation)
  | removeId (id : UInt32)
  | aside (a : Aside)
  | connection (f : Connection → Connection)

namespace Session

/-- After `Core::new`: the core and its client are there. -/
def start (connection : Connection) : Session :=
  ⟨(newCore (.idle blank)).2, connection, [⟨0, 0⟩, ⟨1, 1⟩]⟩

/-- The application keeps the handle of a call that succeeds, and goes on after an error. -/
def keep : Except CallFault Handle → Prog Session CallFault Unit
  | .ok h => .modify fun s => { s with handles := s.handles ++ [h] }
  | .error (.client .panic) => .fail (.client .panic)
  | .error (.client _) => pure ()
  | .error (.halt h) => .fail (.halt h)

end Session

section Histories

variable (env : ℕ → Notice → Aside)

/-- What the callbacks of the application do. -/
def callbacks : Callbacks := fun name notice => (env name notice).act

def Happening.run : Happening → Prog Session CallFault Unit
  | .create c => do Session.keep (← c.run.attempt)
  | .removeId id =>
    ((Core.removeId (callbacks env) id).mapErr .halt).zoom Session.world fun world s =>
      { s with world }
  | .aside a => .modify fun s => { s with world := { s.world with shared := a.act s.world.shared } }
  | .connection f => .modify fun s => { s with connection := f s.connection }

def history (happenings : List Happening) : Prog Session CallFault Unit :=
  forEach (Happening.run env) happenings

end Histories

/-! ### Listeners leave the map alone -/

/-- The thread has done nothing with the map. -/
structure Beside (w w' : World) : Prop where
  held : w'.held = w.held
  objects : w'.shared.objects = w.shared.objects
  length : w'.shared.proxies.length = w.shared.proxies.length
  given : w'.given = w.given

instance : Std.Refl Beside := ⟨fun _ => ⟨rfl, rfl, rfl, rfl⟩⟩

instance : IsTrans World Beside where
  trans _ _ _ h h' := ⟨h'.held.trans h.held, h'.objects.trans h.objects, h'.length.trans h.length,
    h'.given.trans h.given⟩

section Beside

variable {env : ℕ → Notice → Aside}

lemma putCallbacks_beside (k : Key) (id : ℕ) (events : Option ProxyEvents) :
    Along Beside (putCallbacks k id events) :=
  along_modify fun _ => ⟨rfl, rfl, List.length_modify .., rfl⟩

/-- With the lock held nothing is done with the map, or the thread waits without end. -/
def Waits (mode : Mode) (act : Act) : Prop :=
  ∀ w, w.held = some mode → act.Ends w (fun _ w' => Beside w w') (fun _ _ => True)

lemma Along.waits {mode : Mode} {act : Act} (h : Along Beside act) : Waits mode act :=
  fun w _ => (h w).mono (fun _ _ h => h) fun _ _ _ => trivial

lemma waits_closed (mode : Mode) : Closed (callbacks env) (Waits mode) where
  done := Along.waits (along_pure ())
  bind hp hq := fun w hw => ends_bind.2 ((hp w hw).mono (fun _ w' h =>
    (hq w' (h.held.trans hw)).mono (fun _ _ h' => trans_of Beside h h') fun _ _ _ => trivial)
      fun _ _ _ => trivial)
  get h := fun w => h w w
  put k id events := Along.waits (putCallbacks_beside k id events)
  record _ _ _ := Along.waits (along_modify fun _ => ⟨rfl, rfl, rfl, rfl⟩)
  effect name notice := Along.waits (along_modify fun _ =>
    ⟨rfl, (env name notice).objects _, (env name notice).length _, rfl⟩)

lemma proxyNotify_beside {w : World} {mode : Mode} (h : w.held = some mode) (k : Key) :
    (proxyNotify (callbacks env) k .removed).Ends w
      (fun _ w' => Beside (w.give k .removed) w') (fun _ _ => True) := by
  refine (waits_closed mode).emitHook (fun _ w' hw' => ?_) (w.give k .removed) h
  unfold coreCallbacks handleRemoved acquire
  simp only [ends_bind, ends_get, ends_failIf]
  exact ⟨fun _ => trivial, fun hfree => absurd (by simp [hw']) hfree⟩

lemma removeId_ends {w : World} (hheld : w.held = none) (id : UInt32) :
    (removeId (callbacks env) id).Ends w
      (fun _ w' => w'.held = none ∧ w'.shared.proxies.length = w.shared.proxies.length ∧
        (w'.shared.objects = w.shared.objects ∧ w'.given = w.given ∨
          ∃ k, w.shared.objects.get id = some k ∧
            w'.shared.objects = w.shared.objects.remove id ∧
            w'.given = w.given ++ [(k, .removed)]))
      (fun _ _ => True) := by
  unfold removeId withObject
  simp only [ends_bind, ends_get, release, ends_modify]
  refine acquire_ends hheld ?_
  cases hget : w.shared.objects.get id with
  | none => exact ⟨trivial, rfl, .inl ⟨rfl, rfl⟩⟩
  | some k =>
    simp only [ifSome, ends_bind, share, ends_modify]
    refine (proxyNotify_beside rfl k).mono (fun _ w' h => ?_) fun _ _ _ => trivial
    exact ⟨trivial, h.length, .inr ⟨k, rfl, congrArg (·.remove id) h.objects, h.given⟩⟩

end Beside

/-! ### Handles -/

namespace Session

/-- What holds of every history: a proxy that has a handle is registered nowhere but under its id,
and there as long as it was not told that it is removed. -/
structure Sound (s : Session) : Prop where
  held : s.world.held = none
  made : ∀ i k, s.objects.Holds i k → k < s.world.shared.proxies.length
  told : ∀ e ∈ s.world.given, e.1 < s.world.shared.proxies.length
  key : ∀ h ∈ s.handles, h.key < s.world.shared.proxies.length
  place : ∀ h ∈ s.handles, ∀ i, s.objects.Holds i h.key → i = h.id.toNat
  registered : ∀ h ∈ s.handles, s.objects.Holds h.id.toNat h.key ↔
    (h.key, Notice.removed) ∉ s.world.given

lemma start_sound (connection : Connection) : (start connection).Sound := by
  have hslots (i : ℕ) (k : Key) (h : (start connection).objects.Holds i k) : k = i ∧ i < 2 := by
    match i, h with
    | 0, h => cases h; exact ⟨rfl, Nat.two_pos⟩
    | 1, h => cases h; exact ⟨rfl, Nat.one_lt_two⟩
  refine ⟨rfl, fun i k h => ?_, nofun, fun h hh => ?_, fun h hh i hi => ?_, fun h hh => ?_⟩
  · exact (hslots i k h).1 ▸ (hslots i k h).2
  · obtain rfl | rfl := List.mem_pair.1 hh
    exacts [Nat.two_pos, Nat.one_lt_two]
  · obtain rfl | rfl := List.mem_pair.1 hh <;> exact (hslots i _ hi).1.symm
  · obtain rfl | rfl := List.mem_pair.1 hh <;> exact iff_of_true rfl nofun

variable {s s' : Session}

lemma Sound.congr (hs : s.Sound) (hheld : s'.world.held = none) (hobjects : s'.objects = s.objects)
    (hlen : s'.world.shared.proxies.length = s.world.shared.proxies.length)
    (hgiven : s'.world.given = s.world.given) (hhandles : s'.handles = s.handles) : s'.Sound := by
  obtain ⟨-, hmade, htold, hkey, hplace, hregistered⟩ := hs
  rw [← hobjects, ← hlen] at hmade
  rw [← hgiven, ← hlen] at htold
  rw [← hhandles, ← hlen] at hkey
  rw [← hhandles, ← hobjects] at hplace
  rw [← hhandles, ← hobjects, ← hgiven] at hregistered
  exact ⟨hheld, hmade, htold, hkey, hplace, hregistered⟩

lemma Sound.made_proxy (hs : s.Sound) {h : Handle} (hmade : Made h s.world s'.world)
    (hhandles : s'.handles = s.handles ∨ s'.handles = s.handles ++ [h]) : s'.Sound := by
  have hlt : ∀ {k : Key}, k < s.world.shared.proxies.length →
      k < s'.world.shared.proxies.length ∧ k ≠ h.key := fun hk =>
    ⟨hmade.length ▸ Nat.lt_succ_of_lt hk, Nat.ne_of_lt (hmade.key ▸ hk)⟩
  have hkey : h.key < s'.world.shared.proxies.length :=
    hmade.length ▸ hmade.key ▸ Nat.lt_succ_self _
  have hmem : ∀ h' ∈ s'.handles, h' ∈ s.handles ∨ h' = h := by
    obtain heq | heq := hhandles <;> rw [heq]
    · exact fun _ => .inl
    · simp
  have hocc : ∀ {i k}, s'.objects.Holds i k ↔ s.objects.Holds i k ∨ i = h.id.toNat ∧ k = h.key :=
    hmade.occupied
  refine ⟨hmade.held, fun i k hi => ?_, fun e he => ?_, fun h' hh' => ?_, fun h' hh' i hi => ?_,
    fun h' hh' => ?_⟩
  · obtain hi | ⟨-, rfl⟩ := hocc.1 hi
    · exact (hlt (hs.made i k hi)).1
    · exact hkey
  · exact (hlt (hs.told e (hmade.given ▸ he))).1
  · obtain hh' | rfl := hmem h' hh'
    · exact (hlt (hs.key h' hh')).1
    · exact hkey
  · obtain hi | ⟨rfl, hk⟩ := hocc.1 hi
    · obtain hh' | rfl := hmem h' hh'
      · exact hs.place h' hh' i hi
      · exact absurd rfl (hlt (hs.made i _ hi)).2
    · obtain hh' | rfl := hmem h' hh'
      · exact absurd hk (hlt (hs.key h' hh')).2
      · rfl
  · rw [hocc, hmade.given]
    obtain hh' | rfl := hmem h' hh'
    · rw [← hs.registered h' hh']
      exact or_iff_left fun hk => (hlt (hs.key h' hh')).2 hk.2
    · exact iff_of_true (.inr ⟨rfl, rfl⟩) fun hmem => (hlt (hs.told _ hmem)).2 rfl

lemma Sound.removed (hs : s.Sound) {id : UInt32} {k : Key} (hslot : s.objects.Holds id.toNat k)
    (hheld : s'.world.held = none)
    (hlen : s'.world.shared.proxies.length = s.world.shared.proxies.length)
    (hobjects : s'.objects = s.objects.remove id)
    (hgiven : s'.world.given = s.world.given ++ [(k, .removed)])
    (hhandles : s'.handles = s.handles) : s'.Sound := by
  have hocc : ∀ {i k'}, s'.objects.Holds i k' ↔ id.toNat ≠ i ∧ s.objects.Holds i k' := by
    intro i k'
    rw [hobjects]
    simp only [IdMap.Holds, IdMap.remove, List.getElem?_set]
    split_ifs with hid hlt <;> simp [hid]
  refine ⟨hheld, fun i k' hi => hlen ▸ hs.made i k' (hocc.1 hi).2, fun e he => ?_, fun h hh => ?_,
    fun h hh i hi => ?_, fun h hh => ?_⟩
  · rw [hgiven, List.mem_append, List.mem_singleton] at he
    rw [hlen]
    obtain he | rfl := he
    · exact hs.told e he
    · exact hs.made _ k hslot
  · rw [hlen]
    exact hs.key h (hhandles ▸ hh)
  · exact hs.place h (hhandles ▸ hh) i (hocc.1 hi).2
  · rw [hhandles] at hh
    rw [hocc, hs.registered h hh, hgiven, List.mem_append, List.mem_singleton, not_or, and_comm,
      Prod.mk.injEq, and_iff_left rfl]
    refine and_congr_right fun hreg => not_congr ⟨fun hid => ?_, fun hk => ?_⟩
    · have hholds : s.objects.Holds id.toNat h.key := hid ▸ (hs.registered h hh).2 hreg
      simpa using hholds.symm.trans hslot
    · exact hs.place h hh _ (hk ▸ hslot)

lemma Sound.happens {env : ℕ → Notice → Aside} (hs : s.Sound) (x : Happening) :
    (x.run env).Ends s (fun _ s' => s'.Sound) (fun _ _ => True) := by
  cases x with
  | create c =>
    simp only [Happening.run, ends_bind, ends_attempt]
    refine (c.run_ends s).mono (fun h s' hmade => ?_) fun f s' hf => ?_
    · exact hs.made_proxy hmade.1.made (.inr (congrArg (· ++ [h]) hmade.1.handles))
    · have hreturned (hf' : f.Returned) : s'.Sound := by
        obtain ⟨-, rfl⟩ | ⟨-, h, hmakes⟩ := hf.2 hf'
        · exact hs
        · exact hs.made_proxy hmakes.made (.inl hmakes.handles)
      cases f with
      | halt h => trivial
      | client fault =>
        cases fault with
        | panic => trivial
        | _ => exact hreturned fun h => by cases h
  | removeId id =>
    simp only [Happening.run, ends_zoom, ends_mapErr]
    refine (removeId_ends hs.held id).mono (fun _ w' h => ?_) fun _ _ _ => trivial
    obtain ⟨hheld, hlen, ⟨hobjects, hgiven⟩ | ⟨k, hget, hobjects, hgiven⟩⟩ := h
    · exact hs.congr hheld hobjects hlen hgiven rfl
    · exact hs.removed (IdMap.get_eq_some.1 hget) hheld hlen hobjects hgiven rfl
  | aside a => exact hs.congr hs.held (a.objects _) (a.length _) rfl rfl
  | connection f => exact hs.congr hs.held rfl rfl rfl rfl

lemma history_sound (env : ℕ → Notice → Aside) (happenings : List Happening) (hs : s.Sound) :
    (history env happenings).Ends s (fun _ s' => s'.Sound) (fun _ _ => True) := by
  unfold history
  induction happenings generalizing s with
  | nil => exact hs
  | cons x happenings ih =>
    refine ends_bind.2 ((hs.happens x).mono (fun _ s' hs' => ih hs') fun _ _ _ => trivial)

/-- The id of a handle is registered to its proxy exactly as long as that was not told that it is
removed. -/
def Addresses (s : Session) (h : Handle) : Prop :=
  s.objects.get h.id = some h.key ↔ (h.key, Notice.removed) ∉ s.world.given

lemma Sound.addresses (hs : s.Sound) {h : Handle} (hh : h ∈ s.handles) : s.Addresses h := by
  unfold Addresses
  rw [IdMap.get_eq_some]
  exact hs.registered h hh

/-- **Calling.** After every history, a call through a handle fails and leaves the connection as it
is, or it sends a message for the id of the handle; and the id is registered to the proxy of the
handle exactly as long as that was not told that it is removed. A call that makes an object sends its
message when the object has an id, which may be the one of the handle. -/
theorem call_addresses (env : ℕ → Notice → Aside) (connection : Connection)
    (happenings : List Happening) :
    (history env happenings).Ends (start connection) (fun _ s =>
      (∀ h ∈ s.handles, ∀ object fds, (Connection.push h.id object fds).Ends s.connection
        (fun _ c => (∃ body, Pushed h.id object fds s.connection c body) ∧ s.Addresses h)
        (fun _ c => c = s.connection)) ∧
      ∀ c : Creation, c.handle ∈ s.handles → c.run.Ends s
        (fun object s' => (∃ body, Pushed c.handle.id (c.message object) [] s.connection
          s'.connection body) ∧ s'.Addresses c.handle)
        (fun _ s' => s'.connection = s.connection)) (fun _ _ => True) := by
  refine (history_sound env happenings (start_sound connection)).mono (fun _ s hs => ?_)
    fun _ _ _ => trivial
  refine ⟨fun h hh object fds => ?_, fun c hc => ?_⟩
  · exact (push_ends h.id object fds s.connection).mono (fun _ c hc => ⟨hc, hs.addresses hh⟩)
      fun _ _ hc => hc.1
  · refine (c.run_ends s).mono (fun object s' h => ⟨h.2, ?_⟩) fun _ _ h => h.1
    refine (hs.made_proxy h.1.made (.inl h.1.handles)).addresses ?_
    rw [h.1.handles]
    exact hc

/-- A registry is made, its id is removed, and another one is made. -/
def twoRegistries : List Happening :=
  [.create (.getRegistry ⟨0, 0⟩), .removeId 2, .create (.getRegistry ⟨0, 0⟩)]

/-- A call through the handle of the first registry is for the second one. -/
theorem call_addresses_other : ∃ env s c, history env twoRegistries (start .new) = (.ok (), s) ∧
    ⟨2, 2⟩ ∈ s.handles ∧ s.objects.get 2 = some 3 ∧
    Connection.push 2 (.registry (.destroy 7)) [] s.connection = (.ok (), c) := by
  let env : ℕ → Notice → Aside := fun _ _ => ⟨id, fun _ => rfl, fun _ => rfl⟩
  have hok : (history env twoRegistries (start .new)).1.isOk = true := by decide +kernel
  have hhandles : ⟨2, 2⟩ ∈ (history env twoRegistries (start .new)).2.handles := by decide +kernel
  have hget : (history env twoRegistries (start .new)).2.objects.get 2 = some 3 := by
    decide +kernel
  have hpush : (Connection.push 2 (.registry (.destroy 7)) []
      (history env twoRegistries (start .new)).2.connection).1.isOk = true := by decide +kernel
  cases hs : history env twoRegistries (start .new) with
  | mk r s =>
    rw [hs] at hok hhandles hget hpush
    obtain ⟨⟨⟩, rfl⟩ := except_isOk.1 hok
    cases hc : Connection.push 2 (.registry (.destroy 7)) [] s.connection with
    | mk r' c =>
      rw [hc] at hpush
      obtain ⟨⟨⟩, rfl⟩ := except_isOk.1 hpush
      exact ⟨env, s, c, hs, hhandles, hget, hc⟩

end Session

end PipewireNative.Core
