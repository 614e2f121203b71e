import PipewireNative.Node.Kernel

/-!
Imported memory: the exact generations the connection has announced, the leases on them, the
checked mappings made from a lease, and the lookup of the session among the leases it holds.
-/

namespace PipewireNative.Node

open Lib

/-- Connection-local identifier from `Core::AddMem`. -/
abbrev MemoryId := UInt32

structure MemoryKey where
  id : MemoryId
  generation : ℕ
  deriving DecidableEq, Repr

structure RegionRef where
  memory : MemoryId
  offset : ℕ
  len : ℕ
  deriving DecidableEq, Repr

structure MemoryEntry where
  key : MemoryKey
  backing : BackingIdentity
  fileLen : ℕ
  deriving DecidableEq, Repr

inductive MemoryError where
  | unknownMemory (id : MemoryId)
  | staleGeneration (requested : MemoryKey) (active : Option MemoryKey)
  | invalidRegion (key : MemoryKey) (offset len fileLen : ℕ)
  | map (key : MemoryKey) (source : IoError)
  deriving DecidableEq, Repr

/-- Owned checked mapping that pins its imported generation. Every byte of the region is a byte
of the backing object, the `i`-th one at `offset + i`. -/
structure MemoryMapping where
  mapped : MappedRegion
  entry : MemoryEntry
  offset : ℕ
  len_pos : 0 < mapped.len
  ptr_ne : mapped.ptr ≠ 0
  ptr_mod : mapped.ptr % 8 = offset % 8
  deriving DecidableEq, Repr

namespace MemoryMapping

/-- The exact imported generation retained by the mapping. -/
def key (m : MemoryMapping) : MemoryKey := m.entry.key

def len (m : MemoryMapping) : ℕ := m.mapped.len

def interval (m : MemoryMapping) : MemoryInterval :=
  ⟨m.entry.backing, m.offset, m.offset + m.mapped.len⟩

/-- The byte `i` of the region. -/
def at_ (m : MemoryMapping) (i : ℕ) : Addr := ⟨m.entry.backing, m.offset + i⟩

lemma covers (m : MemoryMapping) {i n : ℕ} (h : i + n ≤ m.len) : m.interval.Covers (m.at_ i) n := by
  refine ⟨rfl, by simp [interval, at_], ?_⟩
  simp only [interval, at_, len] at h ⊢
  omega

end MemoryMapping

/-- Maps a checked region of an imported memory. -/
def mapEntry (k : MapSyscalls) (entry : MemoryEntry) (policy : ShrinkPolicy) (offset len : ℕ) :
    Except MemoryError MemoryMapping :=
  if 0 < len ∧ len ≤ isizeMax ∧ offset + len < usizeBound ∧ offset + len ≤ entry.fileLen then
    match h : mapSharedWithPolicy k.toMapAnswers offset len policy with
    | .error source => .error (.map entry.key source)
    | .ok mapped => .ok ⟨mapped, entry, offset,
        by obtain ⟨h₁, h₂, -⟩ := mapSharedWithPolicy_ok h; omega,
        (mapSharedWithPolicy_ok h).2.2.2, (mapSharedWithPolicy_ok h).2.2.1⟩
  else .error (.invalidRegion entry.key offset len entry.fileLen)

theorem mapEntry_ok {k : MapSyscalls} {entry : MemoryEntry} {policy : ShrinkPolicy}
    {offset len : ℕ} {m : MemoryMapping} (h : mapEntry k entry policy offset len = .ok m) :
    m.entry = entry ∧ m.offset = offset ∧ m.len = len ∧ offset + len ≤ entry.fileLen ∧
      mapSharedWithPolicy k.toMapAnswers offset len policy = .ok m.mapped := by
  unfold mapEntry at h
  split_ifs at h with hv
  split at h
  · simp at h
  · rename_i mapped hm
    cases h
    exact ⟨rfl, rfl, (mapSharedWithPolicy_ok hm).1, hv.2.2.2, hm⟩

/-- Queue-safe ownership of one exact imported-memory generation. -/
structure MemoryLease where
  entry : MemoryEntry
  shrinkPolicy : ShrinkPolicy
  deriving DecidableEq, Repr

namespace MemoryLease

def key (l : MemoryLease) : MemoryKey := l.entry.key

def map (k : MapSyscalls) (l : MemoryLease) (offset len : ℕ) : Except MemoryError MemoryMapping :=
  mapEntry k l.entry l.shrinkPolicy offset len

end MemoryLease

/-! ### The leases a session holds -/

/-- The leases available to a session, by numeric ID: what its `HashMap` answers. -/
abbrev OrderedMemory := MemoryId → Option MemoryLease

namespace OrderedMemory

def resolve (m : OrderedMemory) (id : MemoryId) : Except MemoryError MemoryKey :=
  match m id with
  | some lease => .ok lease.key
  | none => .error (.unknownMemory id)

def map (k : MapSyscalls) (m : OrderedMemory) (key : MemoryKey) (offset len : ℕ) :
    Except MemoryError MemoryMapping :=
  match m key.id with
  | none => .error (.staleGeneration key none)
  | some lease =>
    if lease.key ≠ key then .error (.staleGeneration key (some lease.key))
    else lease.map k offset len

lemma map_entry {k : MapSyscalls} {m : OrderedMemory} {key : MemoryKey} {offset len : ℕ}
    {r : MemoryMapping} (h : m.map k key offset len = .ok r) :
    ∃ lease, m key.id = some lease ∧ lease.key = key ∧
      mapEntry k lease.entry lease.shrinkPolicy offset len = .ok r := by
  unfold map at h
  split at h
  · simp at h
  · rename_i lease hl
    split_ifs at h with hk
    exact ⟨lease, hl, not_not.mp hk, h⟩

theorem map_ok {k : MapSyscalls} {m : OrderedMemory} {key : MemoryKey} {offset len : ℕ}
    {r : MemoryMapping} (h : m.map k key offset len = .ok r) :
    (∃ lease, m key.id = some lease ∧ lease.entry = r.entry) ∧ r.key = key ∧ r.offset = offset ∧
      r.len = len := by
  obtain ⟨lease, hl, rfl, hentry⟩ := map_entry h
  obtain ⟨he, ho, hlen, -⟩ := mapEntry_ok hentry
  exact ⟨⟨lease, hl, he.symm⟩, congrArg MemoryEntry.key he, ho, hlen⟩

lemma map_len_lt {k : MapSyscalls} {m : OrderedMemory} {key : MemoryKey} {offset len : ℕ}
    {r : MemoryMapping} (h : m.map k key offset len = .ok r) : len < usizeBound := by
  obtain ⟨lease, -, -, hentry⟩ := map_entry h
  unfold mapEntry at hentry
  split_ifs at hentry with hv
  omega

def announce (m : OrderedMemory) (lease : MemoryLease) : OrderedMemory :=
  Function.update m lease.key.id (some lease)

/-- Only the lease of the exact generation is removed. -/
def retire (m : OrderedMemory) (key : MemoryKey) : OrderedMemory :=
  if (m key.id).any fun lease => decide (lease.key = key) then Function.update m key.id none else m

end OrderedMemory

end PipewireNative.Node
