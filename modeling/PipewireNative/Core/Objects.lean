import PipewireNative.Core.Hook
import PipewireNative.Core.IdMap
import PipewireNative.Lib.Prog
import PipewireNative.Marshal.Types

/-!
The core of a client: the proxies it has made, the map of those that are registered, which is behind
a lock, and how their listeners are told of what the server says and of the end of the connection.
-/

namespace PipewireNative.Core

open Lib Prog
open Marshal (Family)

/-! ### Proxies -/

/-- An event of a proxy, with what its listeners are given. -/
inductive Notice where
  | destroy
  | bound (id : UInt32)
  | removed
  | done (seq : UInt32)
  | error (seq res : UInt32) (message : String)
  | boundProps (id : UInt32) (props : List (String × String))
  deriving DecidableEq, Repr

/-- The callbacks of a listener, by their names. -/
structure ProxyEvents where
  destroy : Option ℕ := none
  bound : Option ℕ := none
  removed : Option ℕ := none
  done : Option ℕ := none
  error : Option ℕ := none
  boundProps : Option ℕ := none
  deriving DecidableEq, Repr

def ProxyEvents.select (events : ProxyEvents) : Notice → Option ℕ
  | .destroy => events.destroy
  | .bound _ => events.bound
  | .removed => events.removed
  | .done _ => events.done
  | .error _ _ _ => events.error
  | .boundProps _ _ => events.boundProps

/-- A proxy, with its listeners: they are only ever appended. -/
structure Proxy where
  family : Family
  boundId : Option UInt32
  hooks : HookList ProxyEvents
  ascending : hooks.ids.Pairwise (· < ·)

namespace Proxy

def new (family : Family) : Proxy := ⟨family, none, .new, .nil⟩

def addListener (proxy : Proxy) (events : ProxyEvents) : Proxy :=
  { proxy with
    hooks := proxy.hooks.append events
    ascending := by
      have hids : (proxy.hooks.append events).ids = proxy.hooks.ids ++ [proxy.hooks.nextId] :=
        List.map_append
      rw [hids, List.pairwise_append]
      refine ⟨proxy.ascending, List.pairwise_singleton .., fun i hi j hj => ?_⟩
      obtain ⟨hook, hmem, rfl⟩ := HookList.mem_ids.1 hi
      exact List.mem_singleton.1 hj ▸ proxy.hooks.fresh hook hmem }

/-- The callbacks of a listener are taken out, or put back. -/
def put (proxy : Proxy) (id : ℕ) (events : Option ProxyEvents) : Proxy :=
  { proxy with
    hooks := proxy.hooks.put id events
    ascending := by
      rw [HookList.ids_put]
      exact proxy.ascending }

end Proxy

/-- The number of a proxy in the order in which they were made. -/
abbrev Key := ℕ

/-- What a core and its proxies share. -/
structure Shared where
  /-- All proxies that were made, the core itself first. -/
  proxies : List Proxy
  objects : IdMap Key
  destroyed : Bool
  connected : Bool
  importer : Bool

/-- The proxy of the core. -/
def core : Key := 0

/-- The hook that `Core::new` adds to the core. Ids are not used twice, so it stays the one of this
id, also when the application removes it. -/
def coreHook : ℕ := 0

/-- Its callbacks, which are not called by their names. -/
def coreEvents : ProxyEvents := { destroy := some 0, removed := some 0 }

namespace Shared

def hooks (s : Shared) (k : Key) : HookList ProxyEvents := s.proxies[k]?.elim .new Proxy.hooks

def put (s : Shared) (k : Key) (id : ℕ) (events : Option ProxyEvents) : Shared :=
  { s with proxies := s.proxies.modify k fun proxy => proxy.put id events }

def addListener (s : Shared) (k : Key) (events : ProxyEvents) : Shared :=
  { s with proxies := s.proxies.modify k fun proxy => proxy.addListener events }

def setBound (s : Shared) (k : Key) (id : UInt32) : Shared :=
  { s with proxies := s.proxies.modify k fun proxy => { proxy with boundId := some id } }

/-- `downcast::<Client>()` gives something. -/
def isClient (s : Shared) (k : Key) : Bool := s.proxies[k]?.any fun proxy => proxy.family = .client

/-- The client of the core, which is looked for under the id 1. -/
def coreClient (s : Shared) : Option Key := (s.objects.get 1).filter s.isClient

end Shared

/-- What the callbacks of the application do, by their names. -/
abbrev Callbacks := ℕ → Notice → Shared → Shared

/-! ### The lock -/

inductive Mode where
  | read
  | write
  deriving DecidableEq, Repr

/-- A call of a listener: of which proxy, by which hook, with what, and how the calling thread holds
the lock of the map. -/
structure Invocation where
  proxy : Key
  hook : ℕ
  notice : Notice
  held : Option Mode
  deriving DecidableEq, Repr

/-- Where a thread is: how it holds the lock, which listeners it has called, and which events it has
given to which proxies. -/
structure World where
  shared : Shared
  held : Option Mode
  trace : List Invocation
  given : List (Key × Notice)

def World.idle (shared : Shared) : World := ⟨shared, none, [], []⟩

inductive Halt where
  | panic
  | deadlock
  deriving DecidableEq, Repr

abbrev Act := Prog World Halt Unit

/-- A thread does not get a lock that it holds. -/
def acquire (mode : Mode) : Act := do
  let w ← .get
  .failIf (w.held.isSome = true) .deadlock
  .modify fun w => { w with held := some mode }

def release : Act := .modify fun w => { w with held := none }

def share (f : Shared → Shared) : Act := .modify fun w => { w with shared := f w.shared }

/-! ### Listeners -/

section Listeners

variable (env : Callbacks)

def record (k : Key) (hook : ℕ) (notice : Notice) : Act :=
  .modify fun w => { w with trace := w.trace ++ [⟨k, hook, notice, w.held⟩] }

def putCallbacks (k : Key) (id : ℕ) (events : Option ProxyEvents) : Act :=
  share fun s => s.put k id events

section Emission

-- what the callbacks of the core's own hook do
variable (own : Notice → Act)

def callback (k : Key) (id : ℕ) (notice : Notice) : Option ℕ → Act
  | some name => do
    record k id notice
    if k = core ∧ id = coreHook then own notice else share (env name notice)
  | none => pure ()

/-- `HookList::dispatch`, and the callback. -/
def dispatch (k : Key) (notice : Notice) (id : ℕ) : Act := do
  let w ← .get
  match (w.shared.hooks k).callbacks id with
  | none => pure ()
  | some events => do
    putCallbacks k id none
    callback env own k id notice (events.select notice)
    putCallbacks k id (some events)

def emitHook (k : Key) (notice : Notice) : Act := do
  let w ← .get
  forEach (dispatch env own k notice) (w.shared.hooks k).ids

end Emission

def World.give (w : World) (k : Key) (notice : Notice) : World :=
  { w with given := w.given ++ [(k, notice)] }

def give (k : Key) (notice : Notice) : Act := .modify fun w => w.give k notice

/-- `proxy_notify` from a callback of the core, whose hook is out of its list until that returns. -/
def notifyOther (k : Key) (notice : Notice) : Act := do
  give k notice
  emitHook env (fun _ => pure ()) k notice

/-- The `removed` callback of the core. The first object is not told, for it is the core. -/
def handleRemoved : Act := do
  acquire .read
  let w ← .get
  forEach (fun k => notifyOther env k .removed) (w.shared.objects.values.drop 1)
  release

/-- The map is given up, and then the client is told; it is a panic if there is none. -/
def giveUp : Option Key → Act
  | none => .fail .panic
  | some client => do
    share fun s => { s with objects := .new }
    release
    notifyOther env client .destroy
    share fun s => { s with connected := false, importer := false }

/-- `handle_destroy`. -/
def handleDestroy : Act := do
  let w ← .get
  if w.shared.destroyed then pure ()
  else do
    share fun s => { s with destroyed := true }
    acquire .write
    let w ← .get
    giveUp env w.shared.coreClient

def coreCallbacks : Notice → Act
  | .removed => handleRemoved env
  | .destroy => handleDestroy env
  | _ => pure ()

/-- `proxy_notify`. -/
def proxyNotify (k : Key) (notice : Notice) : Act := do
  give k notice
  emitHook env (coreCallbacks env) k notice

/-! ### Events -/

/-- What is done to an object, if there is one. -/
def ifSome (act : Key → Act) : Option Key → Act
  | some k => act k
  | none => pure ()

/-- What is done to the object with this id while the lock is held. -/
def withObject (mode : Mode) (id : UInt32) (act : Key → Act) : Act := do
  acquire mode
  let w ← .get
  ifSome act (w.shared.objects.get id)
  release

def setBoundId (k : Key) (id : UInt32) : Act := do
  share fun s => s.setBound k id
  proxyNotify env k (.bound id)

def setBoundProps (k : Key) (id : UInt32) (props : List (String × String)) : Act := do
  share fun s => s.setBound k id
  proxyNotify env k (.boundProps id props)

/-- What comes to a core: the events of the server, and the end. -/
inductive Call where
  | done (id seq : UInt32)
  | error (id seq res : UInt32) (message : String)
  | removeId (id : UInt32)
  | boundId (id globalId : UInt32)
  | boundProps (id globalId : UInt32) (props : List (String × String))
  | disconnect

def removeId (id : UInt32) : Act :=
  withObject .write id fun k => do
    proxyNotify env k .removed
    share fun s => { s with objects := s.objects.remove id }

def disconnect : Act := do
  proxyNotify env core .removed
  proxyNotify env core .destroy

def Call.run : Call → Act
  | .done id seq => withObject .read id fun k => proxyNotify env k (.done seq)
  | .error id seq res message =>
    withObject .read id fun k => proxyNotify env k (.error seq res message)
  | .removeId id => Core.removeId env id
  | .boundId id globalId => withObject .read id fun k => setBoundId env k globalId
  | .boundProps id globalId props => withObject .read id fun k => setBoundProps env k globalId props
  | .disconnect => Core.disconnect env

end Listeners

/-! ### Proxies are made -/

/-- `next_proxy_id`. -/
def nextProxyId : Prog World Halt UInt32 := do
  acquire .write
  let w ← .get
  share fun s => { s with objects := s.objects.reserve.2 }
  release
  pure w.shared.objects.reserve.1

/-- `add_proxy`. -/
def addProxy (id : UInt32) (k : Key) : Act := do
  acquire .write
  let w ← .get
  match w.shared.objects.insertAt id k with
  | none => .fail .panic
  | some objects => do
    share fun s => { s with objects }
    release

/-- A proxy is made, and registered under an id. -/
def create (family : Family) : Act := do
  let id ← nextProxyId
  let w ← .get
  share fun s => { s with proxies := s.proxies ++ [.new family] }
  addProxy id w.shared.proxies.length

/-- `Core::new`, as far as the proxies go: the core registers itself and then its client, and listens
to itself. -/
def newCore : Act := do
  create .core
  create .client
  share fun s => s.addListener core coreEvents

end PipewireNative.Core
