import PipewireNative.Frame.Header

/-!
Control data: the record that passes descriptors along with the bytes of a message, as the sender
writes it, and the parser of what comes back from the kernel.
-/

namespace PipewireNative.Frame

open Lib Lib.Word

/-- `size_of::<cmsghdr>()`: the length, the level and the type. -/
def cmsghdrSize : ℕ := 16

/-- `SOL_SOCKET`. -/
def solSocket : ℕ := 1

/-- `SCM_RIGHTS`. -/
def scmRights : ℕ := 1

/-- `MSG_CTRUNC`. -/
def msgCtrunc : ℕ := 8

/-- The next multiple of `align_of::<cmsghdr>()`. -/
def align (value : ℕ) : ℕ := (value + 7) / 8 * 8

/-- The same, `none` where the addition overflows. -/
def cmsgAlign (value : ℕ) : Option ℕ := if value + 7 < usizeBound then some (align value) else none

def dataOffset : ℕ := align cmsghdrSize

/-! ### Writing -/

def rightsRecord (fds : List OwnedFd) : List UInt8 :=
  leBytes 8 (dataOffset + 4 * fds.length) ++ leBytes 4 solSocket ++ leBytes 4 scmRights ++
    fds.flatMap (fun fd => leBytes 4 fd.raw) ++
      List.replicate (align (dataOffset + 4 * fds.length) - (dataOffset + 4 * fds.length)) 0

def sendControl : Option (List OwnedFd) → List UInt8
  | none => []
  | some fds => rightsRecord fds

/-! ### Parsing -/

/-- A parser of control data: when it stops with an error, the descriptors it had adopted are
dropped, which closes them. -/
abbrev Parsed := Except (FrameError × List OwnedFd) (List OwnedFd)

/-- Adopts every complete slot of the data of a record. -/
def adoptSlots : List UInt8 → List OwnedFd → Parsed
  | b₀ :: b₁ :: b₂ :: b₃ :: rest, owned =>
    if h : leVal [b₀, b₁, b₂, b₃] < 2 ^ 31 then adoptSlots rest (owned ++ [⟨_, h⟩])
    else .error (.malformedControl, owned)
  | [], owned => .ok owned
  | _, owned => .error (.malformedControl, owned)

/-- Parses records one after the other; `rest` is what is visible of the buffer from the current
offset on. Every record takes some of it, so that its length is fuel enough. -/
def parseRecords : ℕ → List UInt8 → List OwnedFd → Parsed
  | 0, _, owned => .ok owned
  | fuel + 1, rest, owned =>
    if rest = [] then .ok owned
    else if rest.length < cmsghdrSize then .error (.malformedControl, owned)
    else do
      let length := wordAt rest 0 8
      let owned ←
        if wordAt rest 8 4 = solSocket ∧ wordAt rest 12 4 = scmRights then
          adoptSlots ((rest.take length).drop dataOffset) owned
        else pure owned
      if length < dataOffset ∨ rest.length < length then .error (.malformedControl, owned)
      else match cmsgAlign length with
        | none => .error (.malformedControl, owned)
        | some next =>
          if next = 0 then .error (.malformedControl, owned)
          else parseRecords fuel (rest.drop next) owned

def parseControl (control : List UInt8) (flags : ℕ) : Parsed := do
  let owned ← parseRecords control.length control []
  if flags &&& msgCtrunc ≠ 0 then .error (.truncatedControl, owned) else pure owned

/-! ### The round trip -/

lemma rightsRecord_length (fds : List OwnedFd) :
    (rightsRecord fds).length = align (dataOffset + 4 * fds.length) := by
  have hle : dataOffset + 4 * fds.length ≤ align (dataOffset + 4 * fds.length) := by
    unfold align; omega
  have hdata : (fds.flatMap fun fd => leBytes 4 fd.raw).length = 4 * fds.length := by
    simp [List.length_flatMap, Nat.mul_comm]
  simp only [rightsRecord, List.length_append, leBytes_length, hdata, List.length_replicate]
  unfold dataOffset align cmsghdrSize at *
  omega

lemma adoptSlots_cons (fd : OwnedFd) (rest : List UInt8) (owned : List OwnedFd) :
    adoptSlots (leBytes 4 fd.raw ++ rest) owned = adoptSlots rest (owned ++ [fd]) := by
  have hval : leVal (leBytes 4 fd.raw) = fd.raw :=
    leVal_leBytes_of_lt (Nat.lt_trans fd.raw_lt (by decide))
  simp only [leBytes] at hval
  simp only [leBytes, List.cons_append, List.nil_append, adoptSlots, hval]
  rw [dif_pos fd.raw_lt]

lemma adoptSlots_raws (fds owned : List OwnedFd) :
    adoptSlots (fds.flatMap fun fd => leBytes 4 fd.raw) owned = .ok (owned ++ fds) := by
  induction fds generalizing owned with
  | nil => simp [adoptSlots]
  | cons fd fds ih =>
    rw [List.flatMap_cons, adoptSlots_cons, ih, List.append_assoc, List.singleton_append]

lemma parseRecords_nil (fuel : ℕ) (owned : List OwnedFd) : parseRecords fuel [] owned = .ok owned := by
  cases fuel <;> simp [parseRecords]

section Rights

variable (fds : List OwnedFd)

lemma rightsRecord_split : ∃ pad, rightsRecord fds =
    leBytes 8 (dataOffset + 4 * fds.length) ++ (leBytes 4 solSocket ++ (leBytes 4 scmRights ++
      (fds.flatMap (fun fd => leBytes 4 fd.raw) ++ pad))) :=
  ⟨_, by simp only [rightsRecord, List.append_assoc]; rfl⟩

lemma rightsRecord_kind : wordAt (rightsRecord fds) 8 4 = solSocket ∧
    wordAt (rightsRecord fds) 12 4 = scmRights := by
  obtain ⟨pad, hsplit⟩ := rightsRecord_split fds
  constructor
  · rw [hsplit, wordAt_append (leBytes_length 8 _)]
    decide
  · rw [hsplit, ← List.append_assoc, wordAt_append (by simp)]
    decide

lemma rightsRecord_slots : ((rightsRecord fds).take (dataOffset + 4 * fds.length)).drop dataOffset =
    fds.flatMap fun fd => leBytes 4 fd.raw := by
  obtain ⟨pad, hsplit⟩ := rightsRecord_split fds
  have hdata : (fds.flatMap fun fd => leBytes 4 fd.raw).length = 4 * fds.length := by
    simp [List.length_flatMap, Nat.mul_comm]
  rw [hsplit]
  simp only [← List.append_assoc]
  rw [List.take_left' (by simp only [List.length_append, leBytes_length, hdata]; rfl),
    List.drop_left' (by simp only [List.length_append, leBytes_length]; rfl)]

end Rights

lemma parseRecords_rights {fds : List OwnedFd}
    (hlen : dataOffset + 4 * fds.length + 7 < usizeBound) :
    parseRecords (rightsRecord fds).length (rightsRecord fds) [] = .ok fds := by
  have hsize := rightsRecord_length fds
  have hlength : wordAt (rightsRecord fds) 0 8 = dataOffset + 4 * fds.length := by
    obtain ⟨pad, hsplit⟩ := rightsRecord_split fds
    have hzero : ([] : List UInt8).length = 0 := rfl
    rw [hsplit]
    refine (wordAt_append hzero 8 _ _).trans (Nat.mod_eq_of_lt ?_)
    unfold usizeBound at hlen
    omega
  obtain ⟨hlevel, htype⟩ := rightsRecord_kind fds
  have hge : 16 ≤ (rightsRecord fds).length ∧
      dataOffset + 4 * fds.length ≤ (rightsRecord fds).length := by
    rw [hsize]
    unfold dataOffset align cmsghdrSize
    omega
  have halign : cmsgAlign (dataOffset + 4 * fds.length) = some (rightsRecord fds).length := by
    rw [cmsgAlign, if_pos hlen, hsize]
  obtain ⟨fuel, hfuel⟩ : ∃ fuel, (rightsRecord fds).length = fuel + 1 :=
    Nat.exists_eq_add_one.2 (by omega)
  have hne : rightsRecord fds ≠ [] := List.ne_nil_of_length_pos (by omega)
  rw [hfuel]
  unfold parseRecords
  rw [if_neg hne, if_neg (by unfold cmsghdrSize; omega)]
  simp only [hlength, hlevel, htype, and_self, if_true, rightsRecord_slots, adoptSlots_raws,
    List.nil_append, bind, Except.bind, halign]
  rw [if_neg (by omega), if_neg (by omega), List.drop_length]
  exact parseRecords_nil fuel fds

/-- **Control data.** The record of some descriptors parses to those descriptors, unless the
kernel says that there were more. -/
theorem parseControl_rights {fds : List OwnedFd}
    (hlen : dataOffset + 4 * fds.length + 7 < usizeBound) (flags : ℕ) :
    parseControl (rightsRecord fds) flags =
      if flags &&& msgCtrunc ≠ 0 then .error (.truncatedControl, fds) else .ok fds := by
  unfold parseControl
  rw [parseRecords_rights hlen]
  rfl

end PipewireNative.Frame
