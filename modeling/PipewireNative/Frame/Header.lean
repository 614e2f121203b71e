import PipewireNative.Lib.Word
import PipewireNative.Lib.Prog

/-!
Native frames: the limits both ends agree on, what can go wrong, and the header of a frame. Words
are written least significant byte first, as on the machines this runs on.
-/

namespace PipewireNative.Frame

open Lib Lib.Word

/-- One more than the largest `usize`, and than the largest `u64`. -/
def usizeBound : ℕ := 2 ^ 64

def usizeMax : ℕ := usizeBound - 1

/-- One more than the largest `isize`: a vector of so many bytes cannot be allocated. -/
def isizeBound : ℕ := 2 ^ 63

def headerLen : ℕ := 16

def wireMaxPayload : ℕ := 0x00ffffff

structure FrameLimits where
  maxPayload : ℕ
  maxFrameFds : ℕ
  maxPendingFds : ℕ
  recvChunkBytes : ℕ
  recvControlFds : ℕ
  maxQueuedBytes : ℕ
  maxQueuedFds : ℕ
  deriving DecidableEq, Repr

/-- `FrameLimits::default`. -/
def FrameLimits.standard : FrameLimits where
  maxPayload := wireMaxPayload
  maxFrameFds := 1024
  maxPendingFds := 1024
  recvChunkBytes := 32 * 1024
  recvControlFds := 64
  maxQueuedBytes := wireMaxPayload * 4
  maxQueuedFds := 1024

/-- The largest payload a frame may have. -/
def FrameLimits.payloadLimit (limits : FrameLimits) : ℕ := min limits.maxPayload wireMaxPayload

/-- Errors of the operating system, by what the code tells apart. -/
inductive IoError where
  | interrupted
  | wouldBlock
  | os (errno : ℕ)
  | other (message : String)
  deriving DecidableEq, Repr

inductive FrameError where
  | io (e : IoError)
  | payloadTooLarge (declared limit : ℕ)
  | tooManyFrameFds (declared limit : ℕ)
  | tooManyPendingFds (received limit : ℕ)
  | sendQueueFull (queued additional limit : ℕ)
  | sendFdQueueFull (queued additional limit : ℕ)
  | truncatedControl
  | malformedControl
  | missingFds (declared available : ℕ)
  | unexpectedFdsAtEof (count : ℕ)
  | truncatedFrame (buffered needed : ℕ)
  | invalidFdIndex (index count : ℕ)
  | fdAlreadyTaken (index : ℕ)
  | writeZero
  | poisoned
  deriving DecidableEq, Repr

/-- An open descriptor. The kernel gives it another number in another process; here it keeps the
one it has, which is not negative as an `i32`. -/
structure OwnedFd where
  raw : ℕ
  raw_lt : raw < 2 ^ 31
  deriving DecidableEq, Repr

/-! ### Headers -/

structure Header where
  objectId : UInt32
  opcode : UInt8
  payloadLen : UInt32
  seq : UInt32
  nFds : UInt32
  deriving DecidableEq, Repr

namespace Header

def decode (bytes : List UInt8) : Header where
  objectId := .ofNat (wordAt bytes 0 4)
  opcode := .ofNat (wordAt bytes 4 4 >>> 24)
  payloadLen := .ofNat (wordAt bytes 4 4 &&& wireMaxPayload)
  seq := .ofNat (wordAt bytes 8 4)
  nFds := .ofNat (wordAt bytes 12 4)

variable (h : Header)

def bytes : List UInt8 :=
  leBytes 4 h.objectId.toNat ++ leBytes 4 (h.opcode.toNat <<< 24 ||| h.payloadLen.toNat) ++
    leBytes 4 h.seq.toNat ++ leBytes 4 h.nFds.toNat

def encode : Except FrameError (List UInt8) := do
  rejectIf (wireMaxPayload < h.payloadLen.toNat)
    (.payloadTooLarge h.payloadLen.toNat wireMaxPayload)
  pure h.bytes

variable {h}

@[simp] lemma bytes_length : h.bytes.length = headerLen := by simp [bytes, headerLen]

lemma opcode_word (hlen : h.payloadLen.toNat ≤ wireMaxPayload) :
    h.opcode.toNat <<< 24 ||| h.payloadLen.toNat = h.opcode.toNat * 2 ^ 24 + h.payloadLen.toNat := by
  rw [← Nat.shiftLeft_add_eq_or_of_lt (Nat.lt_succ_of_le hlen), Nat.shiftLeft_eq]

/-- **Headers.** What was encoded decodes to the header it was, whatever follows. -/
theorem decode_bytes (hlen : h.payloadLen.toNat ≤ wireMaxPayload) (rest : List UInt8) :
    decode (h.bytes ++ rest) = h := by
  have hop := h.opcode.toNat_lt
  obtain ⟨word, hW⟩ : ∃ w, w = h.opcode.toNat <<< 24 ||| h.payloadLen.toNat := ⟨_, rfl⟩
  have hword := hW.trans (opcode_word hlen)
  have hlt : word < 256 ^ 4 := by
    unfold wireMaxPayload at hlen
    omega
  -- the four words, one behind the other
  have hsplit : h.bytes ++ rest = leBytes 4 h.objectId.toNat ++ (leBytes 4 word ++
      (leBytes 4 h.seq.toNat ++ (leBytes 4 h.nFds.toNat ++ rest))) := by
    simp only [bytes, hW, List.append_assoc]
  have hobject : wordAt (h.bytes ++ rest) 0 4 = h.objectId.toNat := by
    rw [hsplit]
    have hzero : ([] : List UInt8).length = 0 := rfl
    exact (wordAt_append hzero 4 _ _).trans (Nat.mod_eq_of_lt h.objectId.toNat_lt)
  have hopcode : wordAt (h.bytes ++ rest) 4 4 = word := by
    rw [hsplit, wordAt_append (leBytes_length 4 _), Nat.mod_eq_of_lt hlt]
  have hseq : wordAt (h.bytes ++ rest) 8 4 = h.seq.toNat := by
    rw [hsplit, ← List.append_assoc, wordAt_append (by simp)]
    exact Nat.mod_eq_of_lt h.seq.toNat_lt
  have hfds : wordAt (h.bytes ++ rest) 12 4 = h.nFds.toNat := by
    rw [hsplit, ← List.append_assoc, ← List.append_assoc, wordAt_append (by simp)]
    exact Nat.mod_eq_of_lt h.nFds.toNat_lt
  have hmask : (h.opcode.toNat * 2 ^ 24 + h.payloadLen.toNat) &&& wireMaxPayload =
      h.payloadLen.toNat := by
    rw [show wireMaxPayload = 2 ^ 24 - 1 from rfl, Nat.and_two_pow_sub_one_eq_mod]
    unfold wireMaxPayload at hlen
    omega
  have hshift : (h.opcode.toNat * 2 ^ 24 + h.payloadLen.toNat) >>> 24 = h.opcode.toNat := by
    rw [Nat.shiftRight_eq_div_pow]
    unfold wireMaxPayload at hlen
    omega
  unfold decode
  rw [hobject, hopcode, hseq, hfds, hword, hmask, hshift]
  simp

end Header

end PipewireNative.Frame
