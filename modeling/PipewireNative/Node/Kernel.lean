import PipewireNative.Node.World

/-!
What the kernel answers while one operation of the owner runs, and the two things the owner does
with it: mapping a region of an imported file and using an eventfd.
-/

namespace PipewireNative.Node

open Lib

/-! ### Errors of the operating system -/

inductive ErrorKind where
  | wouldBlock | invalidInput | invalidData | unexpectedEof | other
  deriving DecidableEq, Repr

/-- `std::io::Error`: an error number, or an error the code makes itself. -/
inductive IoError where
  | os (errno : ℕ)
  | custom (kind : ErrorKind) (message : String)
  deriving DecidableEq, Repr

/-- `EAGAIN`, which is also `EWOULDBLOCK`. -/
def eagain : ℕ := 11

/-- Whether the kind of an error is `WouldBlock`. -/
def IoError.isWouldBlock : IoError → Bool
  | .os errno => decide (errno = eagain)
  | .custom kind _ => decide (kind = .wouldBlock)

/-! ### Mapping -/

inductive SealStatus where
  | available (seals : ℕ)
  | unsupported
  deriving DecidableEq, Repr

/-- `F_SEAL_SHRINK` is the second bit. -/
def SealStatus.preventsShrink : SealStatus → Bool
  | .available seals => seals.testBit 1
  | .unsupported => false

/-- Policy for mappings whose backing file can shrink after `mmap`. -/
inductive ShrinkPolicy where
  | allow | requireSealed
  deriving DecidableEq, Repr

/-- What the system calls of one mapping answer: the size and the seals of the file, the page
size, and the address at which so many bytes from an offset on are mapped. -/
structure MapAnswers where
  fstat : Except IoError ℤ
  seals : ℤ
  pageSize : ℤ
  mmap : (len offset : ℕ) → Except IoError ℕ

/-- Pages are multiples of eight bytes and mappings start at pages. -/
structure MapSyscalls extends MapAnswers where
  page_dvd : 0 < pageSize → 8 ∣ pageSize
  mmap_dvd : ∀ len offset a, mmap len offset = .ok a → pageSize ∣ (a : ℤ)

def MapSyscalls.sample : MapSyscalls :=
  ⟨⟨.ok 65536, 0, 4096, fun _ _ => .ok 65536⟩, by decide, fun _ _ _ h => by cases h; decide⟩

/-- Shared memory mapping backed by an imported memfd: the mapping from a page boundary on, and
the logical region in it. -/
structure MappedRegion where
  mappingPtr : ℕ
  mappingLen : ℕ
  ptr : ℕ
  len : ℕ
  sealStatus : SealStatus
  deriving DecidableEq, Repr

/-- `usize::MAX + 1`. -/
def usizeBound : ℕ := 2 ^ 64

/-- `isize::MAX as usize`, which is also the largest `off_t`. -/
def isizeMax : ℕ := 2 ^ 63 - 1

def sealStatus (k : MapAnswers) : SealStatus :=
  if k.seals < 0 then .unsupported else .available k.seals.toNat

/-- Maps a region from an fd with `MAP_SHARED` and an explicit shrink policy. -/
def mapSharedWithPolicy (k : MapAnswers) (offset len : ℕ) (policy : ShrinkPolicy) :
    Except IoError MappedRegion := do
  rejectIf (len = 0)
    (.custom .invalidInput "mapped region length must be greater than zero")
  rejectIf (usizeBound ≤ offset + len)
    (.custom .invalidInput "mapped region offset and length overflow")
  rejectIf (isizeMax < len)
    (.custom .invalidInput "mapped region is too large for a Rust slice")
  let size ← k.fstat
  rejectIf (size < 0)
    (.custom .invalidData "mapped file has a negative or unsupported size")
  rejectIf (size < (offset + len : ℕ))
    (.custom .invalidInput "mapped region extends beyond the backing file")
  rejectIf (policy = .requireSealed ∧ (sealStatus k).preventsShrink = false)
    (.custom .invalidInput "mapping policy requires a backing file sealed against shrinking")
  rejectIf (k.pageSize < 0) (.custom .other "failed to determine system page size")
  rejectIf (k.pageSize = 0) (.custom .other "system page size is zero")
  let mappingOffset := offset / k.pageSize.toNat * k.pageSize.toNat
  let logicalOffset := offset - mappingOffset
  rejectIf (usizeBound ≤ logicalOffset + len)
    (.custom .invalidInput "physical mapping length overflow")
  rejectIf (isizeMax < logicalOffset + len)
    (.custom .invalidInput "physical mapping is too large for pointer arithmetic")
  rejectIf (isizeMax < mappingOffset)
    (.custom .invalidInput "mapping offset is larger than supported off_t")
  let ptr ← k.mmap (logicalOffset + len) mappingOffset
  rejectIf (ptr = 0) (.custom .other "mmap returned a null pointer")
  .ok ⟨ptr, logicalOffset + len, ptr + logicalOffset, len, sealStatus k⟩

/-- A mapped region has the length asked for and is not empty, and its pointer is as far from a
multiple of eight as the offset in the file. -/
theorem mapSharedWithPolicy_ok {k : MapSyscalls} {offset len : ℕ} {policy : ShrinkPolicy}
    {r : MappedRegion} (h : mapSharedWithPolicy k.toMapAnswers offset len policy = .ok r) :
    r.len = len ∧ 0 < len ∧ r.ptr % 8 = offset % 8 ∧ r.ptr ≠ 0 := by
  simp only [mapSharedWithPolicy, except_bind_eq_ok, rejectIf_eq_ok, exists_const,
    Except.ok.injEq] at h
  obtain ⟨hlen, -, -, size, -, -, -, -, hpage, hpage', -, -, -, ptr, hmm, hptr, rfl⟩ := h
  refine ⟨rfl, by omega, ?_, by simp; omega⟩
  obtain ⟨c, hc⟩ := k.page_dvd (by omega)
  obtain ⟨d, hd⟩ := k.mmap_dvd _ _ _ hmm
  obtain ⟨q, hq⟩ : ∃ q : ℕ, k.pageSize = (8 * q : ℕ) := ⟨c.toNat, by omega⟩
  have hp8 : 8 ∣ ptr := by
    have : (8 : ℤ) ∣ ptr := ⟨q * d, by rw [hd, hq]; push_cast; exact Int.mul_assoc 8 q d⟩
    omega
  have hle : offset / (8 * q) * (8 * q) ≤ offset := Nat.div_mul_le_self _ _
  have h8 : 8 ∣ offset / (8 * q) * (8 * q) := Nat.dvd_mul_left_of_dvd (Nat.dvd_mul_right 8 q) _
  simp only [hq, Int.toNat_natCast]
  omega

/-! ### The answers during one operation -/

/-- What a mapping is for. One operation of the owner maps each of these at most once. -/
inductive Site where
  | activation
  | peer (node : UInt32)
  | io
  | metadata (index : ℕ)
  | media (index : ℕ)
  deriving DecidableEq, Repr

/-- The answers of the kernel during one operation: of the system calls of every mapping, of
`fcntl` on a descriptor, and the failures of reading the trigger and of signalling a peer that do
not come from the counter itself. -/
structure Kernel where
  map : Site → MapSyscalls
  fcntl : Fd → Option IoError
  read : Option IoError
  write : Fd → Option IoError

/-! ### Eventfds -/

namespace EventFd

def fromOwnedFd (k : Kernel) (fd : Fd) : Except IoError Fd :=
  match k.fcntl fd with
  | some e => .error e
  | none => .ok fd

/-- Drains one counter value without waiting. -/
def drain (k : Kernel) (fd : Fd) : Prog World IoError ℕ := fun w =>
  match k.read with
  | some e => (.error e, w.interfere)
  | none =>
    if w.interfere.counter fd = 0 then (.error (.custom .wouldBlock ""), w.interfere)
    else World.access (fun w => .drain fd (w.counter fd)) (fun w => w.counter fd) w

/-- Writes a value to the eventfd counter, which holds at most `2 ^ 64 - 2`. -/
def signal (k : Kernel) (fd : Fd) (value : ℕ) : Prog World IoError Unit := fun w =>
  match k.write fd with
  | some e => (.error e, w.interfere.perform (.failedSignal fd value))
  | none =>
    if usizeBound - 2 < w.interfere.counter fd + value then
      (.error (.os eagain), w.interfere.perform (.failedSignal fd value))
    else World.access (fun _ => .signal fd value) (fun _ => ()) w

end EventFd

end PipewireNative.Node
