import Mathlib.Data.List.Perm.Basic
import Mathlib.Data.List.Nodup
import Mathlib.Data.List.TakeWhile
import PipewireNative.Frame.Control

/-!
The walk over a control buffer as the code makes it: by offsets into a buffer that somebody else
has filled, with every read looked at. It comes back whatever the buffer holds, reads nothing
outside and does what the parser of records does. On an error the descriptors it has adopted are
closed: every slot up to a negative one of the record that fails.
-/

namespace PipewireNative.Frame

open Lib Lib.Word

/-! ### The walk -/

/-- A slice of bytes, as `msg_control` and `msg_controllen` give one. -/
structure ControlBuffer where
  bytes : List UInt8
  fits : bytes.length < isizeBound

/-- How the walk comes back without descriptors: with an error, after closing those it had
adopted; by a read outside the buffer; by an `expect`; or not at all. -/
inductive Stop where
  | failed (e : FrameError) (closed : List OwnedFd)
  | outside
  | panic
  | running
  deriving DecidableEq

abbrev Walk := Except Stop (List OwnedFd)

def checkedAdd (a b : ℕ) : Option ℕ := if a + b < usizeBound then some (a + b) else none

/-- A read of `n` bytes. -/
def readAt (control : List UInt8) (offset n : ℕ) : Except Stop ℕ :=
  if offset + n ≤ control.length then .ok (wordAt control offset n) else .error .outside

/-- Adopts the slots of a record from the one at `index` on. -/
def adoptFrom (control : List UInt8) (dataStart : Option ℕ) : ℕ → ℕ → List OwnedFd → Walk
  | 0, _, owned => .ok owned
  | count + 1, index, owned =>
    match dataStart with
    | none => .error .panic
    | some start => do
      let fd ← readAt control (start + index * 4) 4
      if h : fd < 2 ^ 31 then adoptFrom control dataStart count (index + 1) (owned ++ [⟨fd, h⟩])
      else .error (.failed .malformedControl owned)

/-- The data of the record at `offset` that both its length and the buffer make addressable. -/
def dataLen (control : List UInt8) (offset length : ℕ) : ℕ :=
  let visible := control.length
  let dataEnd := min ((checkedAdd offset length).getD visible) visible
  match checkedAdd offset dataOffset with
  | some start => if start ≤ dataEnd then dataEnd - start else 0
  | none => 0

/-- The descriptors of the record at `offset`. -/
def adoptRecord (control : List UInt8) (offset length : ℕ) (owned : List OwnedFd) : Walk := do
  let owned ← adoptFrom control (checkedAdd offset dataOffset) (dataLen control offset length / 4) 0
    owned
  if dataLen control offset length % 4 ≠ 0 then .error (.failed .malformedControl owned)
  else pure owned

/-- The loop of `parse_control` from `offset` on. -/
def walkFrom (control : List UInt8) : ℕ → ℕ → List OwnedFd → Walk
  | 0, _, _ => .error .running
  | fuel + 1, offset, owned =>
    let visible := control.length
    if visible ≤ offset then .ok owned
    else if visible - offset < cmsghdrSize then .error (.failed .malformedControl owned)
    else do
      let length ← readAt control offset 8
      let level ← readAt control (offset + 8) 4
      let kind ← readAt control (offset + 12) 4
      let owned ←
        if level = solSocket ∧ kind = scmRights then adoptRecord control offset length owned
        else pure owned
      if length < dataOffset ∨ visible - offset < length then
        .error (.failed .malformedControl owned)
      else match (cmsgAlign length).bind (checkedAdd offset) with
        | none => .error (.failed .malformedControl owned)
        | some next =>
          if next ≤ offset then .error (.failed .malformedControl owned)
          else walkFrom control fuel next owned

/-- `parse_control`. -/
def ControlBuffer.parseControl (control : ControlBuffer) (flags : ℕ) : Walk := do
  let owned ← walkFrom control.bytes (control.bytes.length + 1) 0 []
  if flags &&& msgCtrunc ≠ 0 then .error (.failed .truncatedControl owned) else pure owned

/-! ### The walk and the parser of records -/

/-- What the parser of records gives, as what the walk gives. -/
def Parsed.walk (r : Parsed) : Walk := r.mapError fun (e, owned) => .failed e owned

lemma Parsed.walk_bind (r : Parsed) (f : List OwnedFd → Parsed) :
    Parsed.walk (r >>= f) = Parsed.walk r >>= fun owned => Parsed.walk (f owned) := by
  cases r <;> rfl

lemma readAt_of_le {control : List UInt8} {offset n : ℕ} (h : offset + n ≤ control.length) :
    readAt control offset n = .ok (wordAt control offset n) := if_pos h

lemma adoptSlots_next {bs : List UInt8} (h : 4 ≤ bs.length) (owned : List OwnedFd) :
    adoptSlots bs owned = if h : wordAt bs 0 4 < 2 ^ 31 then
      adoptSlots (bs.drop 4) (owned ++ [⟨_, h⟩]) else .error (.malformedControl, owned) := by
  match bs, h with
  | b₀ :: b₁ :: b₂ :: b₃ :: rest, _ => rfl

lemma adoptSlots_short {bs : List UInt8} (h : bs.length < 4) (owned : List OwnedFd) :
    adoptSlots bs owned = if bs.length % 4 ≠ 0 then .error (.malformedControl, owned) else .ok owned := by
  match bs, h with
  | [], _ => rfl
  | [_], _ => rfl
  | [_, _], _ => rfl
  | [_, _, _], _ => rfl

lemma adoptFrom_eq {control : List UInt8} {start dataLen : ℕ} (hin : start + dataLen ≤ control.length)
    {count index : ℕ} (hindex : 4 * index ≤ dataLen) (hcount : count = (dataLen - 4 * index) / 4)
    (owned : List OwnedFd) :
    (do
      let owned ← adoptFrom control (some start) count index owned
      if dataLen % 4 ≠ 0 then .error (.failed .malformedControl owned) else pure owned : Walk) =
      Parsed.walk (adoptSlots ((control.drop (start + 4 * index)).take (dataLen - 4 * index)) owned) := by
  have hlen : ((control.drop (start + 4 * index)).take (dataLen - 4 * index)).length =
      dataLen - 4 * index := by
    rw [List.length_take, List.length_drop]
    omega
  induction count generalizing index owned with
  | zero =>
    have hmod : (dataLen - 4 * index) % 4 = dataLen % 4 := by omega
    rw [adoptSlots_short (by omega), hlen, hmod]
    by_cases hragged : dataLen % 4 ≠ 0
    · rw [if_pos hragged]
      simp only [adoptFrom, except_ok_bind, if_pos hragged]
      rfl
    · rw [if_neg hragged]
      simp only [adoptFrom, except_ok_bind, if_neg hragged]
      rfl
  | succ count ih =>
    have hword : wordAt ((control.drop (start + 4 * index)).take (dataLen - 4 * index)) 0 4 =
        wordAt control (start + index * 4) 4 := by
      unfold wordAt
      rw [List.drop_zero, List.take_take, Nat.min_eq_left (by omega), Nat.mul_comm]
    have hnext : ((control.drop (start + 4 * index)).take (dataLen - 4 * index)).drop 4 =
        (control.drop (start + 4 * (index + 1))).take (dataLen - 4 * (index + 1)) := by
      rw [List.drop_take, List.drop_drop]
      congr 1
    unfold adoptFrom
    dsimp only
    rw [adoptSlots_next (by omega), readAt_of_le (by omega), except_ok_bind]
    simp only [hword]
    by_cases hfd : wordAt control (start + index * 4) 4 < 2 ^ 31
    · rw [dif_pos hfd, dif_pos hfd, hnext]
      refine ih (by omega) (by omega) _ ?_
      rw [List.length_take, List.length_drop]
      omega
    · rw [dif_neg hfd, dif_neg hfd]
      rfl

section Walk

variable {control : List UInt8} (hfits : control.length < isizeBound) {offset : ℕ}

include hfits

lemma checkedAdd_dataOffset (hin : offset + cmsghdrSize ≤ control.length) :
    checkedAdd offset dataOffset = some (offset + dataOffset) := by
  refine if_pos ?_
  unfold isizeBound at hfits
  unfold dataOffset align cmsghdrSize usizeBound
  unfold cmsghdrSize at hin
  omega

lemma dataLen_eq (hin : offset + cmsghdrSize ≤ control.length) (length : ℕ) :
    dataLen control offset length = min (offset + length) control.length - (offset + dataOffset) := by
  have hend : min ((checkedAdd offset length).getD control.length) control.length =
      min (offset + length) control.length := by
    unfold checkedAdd
    split_ifs with hlt
    · rfl
    · unfold isizeBound at hfits
      unfold usizeBound at hlt
      simp only [Option.getD_none]
      omega
  unfold dataLen
  dsimp only
  rw [checkedAdd_dataOffset hfits hin, hend]
  dsimp only
  split_ifs with hle
  · rfl
  · omega

lemma adoptRecord_eq (hin : offset + cmsghdrSize ≤ control.length) (length : ℕ) (owned : List OwnedFd) :
    adoptRecord control offset length owned =
      Parsed.walk (adoptSlots (((control.drop offset).take length).drop dataOffset) owned) := by
  have hlen := dataLen_eq hfits hin length
  have hdata : ((control.drop offset).take length).drop dataOffset =
      (control.drop (offset + dataOffset + 4 * 0)).take (dataLen control offset length - 4 * 0) := by
    rw [List.drop_take, List.drop_drop, Nat.mul_zero, Nat.add_zero, Nat.sub_zero, hlen,
      List.take_eq_take_iff, List.length_drop]
    omega
  have hin' : offset + dataOffset ≤ control.length := hin
  have hend : offset + dataOffset + dataLen control offset length ≤ control.length := by omega
  unfold adoptRecord
  rw [checkedAdd_dataOffset hfits hin, hdata]
  have hzero : 4 * 0 ≤ dataLen control offset length := Nat.zero_le _
  exact adoptFrom_eq hend hzero rfl owned

lemma cmsgAlign_bind (offset : ℕ) {length : ℕ} (hlow : dataOffset ≤ length)
    (hhigh : length ≤ control.length - offset) :
    cmsgAlign length = some (align length) ∧ align length ≠ 0 ∧
      (cmsgAlign length).bind (checkedAdd offset) = some (offset + align length) := by
  unfold isizeBound at hfits
  have halign : align length ≤ length + 7 ∧ 16 ≤ align length := by
    unfold dataOffset align cmsghdrSize at hlow
    unfold align
    omega
  have hsome : cmsgAlign length = some (align length) := by
    refine if_pos ?_
    unfold usizeBound
    omega
  refine ⟨hsome, by omega, ?_⟩
  rw [hsome]
  refine if_pos ?_
  unfold usizeBound
  omega

/-- **The walk** does what the parser of records does. -/
theorem walkFrom_eq {fuel : ℕ} (hfuel : (control.drop offset).length ≤ fuel) (owned : List OwnedFd) :
    walkFrom control (fuel + 1) offset owned =
      Parsed.walk (parseRecords fuel (control.drop offset) owned) := by
  induction fuel generalizing offset owned with
  | zero =>
    rw [List.length_drop] at hfuel
    have hover : control.length ≤ offset := by omega
    simp only [walkFrom, parseRecords, if_pos hover]
    rfl
  | succ fuel ih =>
    rw [List.length_drop] at hfuel
    unfold walkFrom parseRecords
    dsimp only
    by_cases hover : control.length ≤ offset
    · rw [if_pos hover, if_pos (List.drop_of_length_le hover)]
      rfl
    have hne : control.drop offset ≠ [] := by
      refine List.ne_nil_of_length_pos ?_
      rw [List.length_drop]
      omega
    rw [if_neg hover, if_neg hne, List.length_drop]
    by_cases hshort : control.length - offset < cmsghdrSize
    · rw [if_pos hshort, if_pos hshort]
      rfl
    have hin : offset + cmsghdrSize ≤ control.length := by omega
    have hin' : offset + 16 ≤ control.length := hin
    rw [if_neg hshort, if_neg hshort, readAt_of_le (by omega), readAt_of_le (by omega),
      readAt_of_le (by omega)]
    simp only [except_ok_bind, wordAt_drop, Nat.add_zero]
    -- what comes after the descriptors of the record
    have hrest : ∀ owned : List OwnedFd,
        (if wordAt control offset 8 < dataOffset ∨ control.length - offset < wordAt control offset 8 then
          .error (.failed .malformedControl owned)
        else match (cmsgAlign (wordAt control offset 8)).bind (checkedAdd offset) with
          | none => .error (.failed .malformedControl owned)
          | some next =>
            if next ≤ offset then .error (.failed .malformedControl owned)
            else walkFrom control (fuel + 1) next owned : Walk) =
        Parsed.walk
          (if wordAt control offset 8 < dataOffset ∨ control.length - offset < wordAt control offset 8 then
            .error (.malformedControl, owned)
          else match cmsgAlign (wordAt control offset 8) with
            | none => .error (.malformedControl, owned)
            | some next =>
              if next = 0 then .error (.malformedControl, owned)
              else parseRecords fuel ((control.drop offset).drop next) owned) := by
      intro owned
      by_cases hbad : wordAt control offset 8 < dataOffset ∨
          control.length - offset < wordAt control offset 8
      · rw [if_pos hbad, if_pos hbad]
        rfl
      have hlow : dataOffset ≤ wordAt control offset 8 := by omega
      obtain ⟨hsome, hpos, hnext⟩ := cmsgAlign_bind hfits offset hlow (Nat.not_lt.1 fun h => hbad (.inr h))
      rw [if_neg hbad, if_neg hbad, hnext, hsome]
      dsimp only
      rw [if_neg (by omega), if_neg hpos, List.drop_drop]
      refine ih ?_ owned
      rw [List.length_drop]
      omega
    by_cases hrights : wordAt control (offset + 8) 4 = solSocket ∧
        wordAt control (offset + 12) 4 = scmRights
    · rw [if_pos hrights, if_pos hrights, Parsed.walk_bind, adoptRecord_eq hfits hin]
      exact congrArg _ (funext hrest)
    · rw [if_neg hrights, if_neg hrights]
      exact hrest owned

end Walk

/-! ### Records and slots -/

section Records

variable (rest : List UInt8)

/-- The length a record says it has; `rest` is what is visible from the record on. -/
def cmsgLen : ℕ := wordAt rest 0 8

def IsRights : Prop := wordAt rest 8 4 = solSocket ∧ wordAt rest 12 4 = scmRights

instance : Decidable (IsRights rest) :=
  inferInstanceAs (Decidable (wordAt rest 8 4 = solSocket ∧ wordAt rest 12 4 = scmRights))

/-- The complete slots of some data. -/
def words : List UInt8 → List ℕ
  | b₀ :: b₁ :: b₂ :: b₃ :: bs => leVal [b₀, b₁, b₂, b₃] :: words bs
  | _ => []

/-- The slots of a record that its length and the buffer make addressable. -/
def slots : List ℕ :=
  if cmsghdrSize ≤ rest.length ∧ IsRights rest then words ((rest.take (cmsgLen rest)).drop dataOffset)
  else []

/-- A record that is well formed: its header and its data are in the buffer, and data that are
descriptors are whole ones. -/
def Formed : Prop :=
  cmsghdrSize ≤ rest.length ∧ dataOffset ≤ cmsgLen rest ∧ cmsgLen rest ≤ rest.length ∧
    (IsRights rest → (cmsgLen rest - dataOffset) % 4 = 0)

instance : Decidable (Formed rest) :=
  inferInstanceAs (Decidable (_ ∧ _ ∧ _ ∧ (_ → _)))

/-- A descriptor that is not negative as an `i32`. -/
def Nonneg (w : ℕ) : Prop := w < 2 ^ 31

instance : DecidablePred Nonneg := fun w => inferInstanceAs (Decidable (w < 2 ^ 31))

/-- A well-formed record without negative descriptors. -/
def Good : Prop := Formed rest ∧ ∀ w ∈ slots rest, Nonneg w

instance : Decidable (Good rest) := inferInstanceAs (Decidable (_ ∧ _))

end Records

/-- The records of a buffer, each as what is visible from it on: the next one begins behind one
that is well formed. -/
def recordsFrom : ℕ → List UInt8 → List (List UInt8)
  | 0, _ => []
  | fuel + 1, rest =>
    if rest = [] then []
    else rest :: if Formed rest then recordsFrom fuel (rest.drop (align (cmsgLen rest))) else []

def records (control : List UInt8) : List (List UInt8) := recordsFrom control.length control

/-- The records up to the one that fails, and that one. -/
def upToFailing : List (List UInt8) → List (List UInt8)
  | [] => []
  | r :: rs => r :: if Good r then upToFailing rs else []

/-- The descriptors the walk adopts. -/
def adopted (rs : List (List UInt8)) : List ℕ :=
  (upToFailing rs).flatMap fun r => (slots r).takeWhile Nonneg

/-- The descriptors that are behind a negative one. -/
def late (rs : List (List UInt8)) : List ℕ :=
  (upToFailing rs).flatMap fun r => ((slots r).dropWhile Nonneg).filter Nonneg

/-- The descriptors that are there to be adopted. -/
def addressable (rs : List (List UInt8)) : List ℕ :=
  (upToFailing rs).flatMap fun r => (slots r).filter Nonneg

lemma addressable_perm (rs : List (List UInt8)) : (adopted rs ++ late rs).Perm (addressable rs) := by
  refine (List.flatMap_append_perm _ _ _).trans (List.Perm.of_eq ?_)
  unfold addressable
  congr 1
  funext r
  have hleading : (slots r).takeWhile Nonneg = ((slots r).takeWhile Nonneg).filter Nonneg := by
    refine (List.filter_eq_self.2 ?_).symm
    intro w hw
    have hdec := List.mem_takeWhile_imp hw
    simpa using hdec
  rw [hleading, ← List.filter_append, List.takeWhile_append_dropWhile]

lemma adoptSlots_spec (bs : List UInt8) (owned : List OwnedFd) :
    ∃ fds : List OwnedFd, fds.map (·.raw) = (words bs).takeWhile Nonneg ∧
      adoptSlots bs owned = if (∀ w ∈ words bs, Nonneg w) ∧ bs.length % 4 = 0 then .ok (owned ++ fds)
        else .error (.malformedControl, owned ++ fds) := by
  fun_induction adoptSlots bs owned with
  | case1 b₀ b₁ b₂ b₃ rest owned h ih =>
    obtain ⟨fds, hraw, hrun⟩ := ih
    have hnonneg : Nonneg (leVal [b₀, b₁, b₂, b₃]) := h
    refine ⟨⟨_, h⟩ :: fds, ?_, ?_⟩
    · simp [words, hnonneg, hraw]
    · rw [hrun]
      have hlen : (rest.length + 1 + 1 + 1 + 1) % 4 = rest.length % 4 := by omega
      simp [words, hnonneg, hlen]
  | case2 b₀ b₁ b₂ b₃ rest owned h =>
    have hneg : ¬ Nonneg (leVal [b₀, b₁, b₂, b₃]) := h
    refine ⟨[], ?_, ?_⟩
    · simp [words, hneg]
    · simp [words, hneg]
  | case3 owned => exact ⟨[], rfl, by simp [words]⟩
  | case4 bs owned hnext hne =>
    -- one to three bytes are left
    have hshort : words bs = [] ∧ bs.length % 4 ≠ 0 := by
      match bs, hnext, hne with
      | [], _, hne => exact absurd rfl hne
      | [_], _, _ => exact ⟨rfl, by simp⟩
      | [_, _], _, _ => exact ⟨rfl, by simp⟩
      | [_, _, _], _, _ => exact ⟨rfl, by simp⟩
      | b₀ :: b₁ :: b₂ :: b₃ :: bs, hnext, _ => exact absurd rfl (hnext b₀ b₁ b₂ b₃ bs)
    exact ⟨[], by simp [hshort.1], by simp [hshort.2]⟩

/-- What follows the descriptors of a record in the parser of records. -/
def parseBehind (fuel : ℕ) (rest : List UInt8) (owned : List OwnedFd) : Parsed :=
  if cmsgLen rest < dataOffset ∨ rest.length < cmsgLen rest then .error (.malformedControl, owned)
  else match cmsgAlign (cmsgLen rest) with
    | none => .error (.malformedControl, owned)
    | some next =>
      if next = 0 then .error (.malformedControl, owned)
      else parseRecords fuel (rest.drop next) owned

lemma parseRecords_succ (fuel : ℕ) {rest : List UInt8} (hheader : cmsghdrSize ≤ rest.length)
    (owned : List OwnedFd) :
    ∃ fds : List OwnedFd, fds.map (·.raw) = (slots rest).takeWhile Nonneg ∧
      parseRecords (fuel + 1) rest owned =
        if (∀ w ∈ slots rest, Nonneg w) ∧ (IsRights rest →
          ((rest.take (cmsgLen rest)).drop dataOffset).length % 4 = 0)
        then parseBehind fuel rest (owned ++ fds) else .error (.malformedControl, owned ++ fds) := by
  have hne : rest ≠ [] := List.ne_nil_of_length_pos (Nat.lt_of_lt_of_le (by decide) hheader)
  unfold parseRecords
  rw [if_neg hne, if_neg (Nat.not_lt.2 hheader)]
  dsimp only
  by_cases hrights : IsRights rest
  · obtain ⟨fds, hraw, hrun⟩ := adoptSlots_spec ((rest.take (cmsgLen rest)).drop dataOffset) owned
    have hslots : slots rest = words ((rest.take (cmsgLen rest)).drop dataOffset) :=
      if_pos ⟨hheader, hrights⟩
    refine ⟨fds, by rw [hslots, hraw], ?_⟩
    rw [hslots]
    refine (if_pos hrights).trans ?_
    refine (congrArg (· >>= fun owned => parseBehind fuel rest owned) hrun).trans ?_
    simp only [hrights, true_implies]
    split_ifs <;> rfl
  · have hslots : slots rest = [] := if_neg fun h => hrights h.2
    refine ⟨[], by simp [hslots], ?_⟩
    refine (if_neg hrights).trans ?_
    rw [hslots, if_pos ⟨by simp, fun h => absurd h hrights⟩, List.append_nil]
    rfl

/-- **Parsing records.** The descriptors that are adopted, and when it goes well. -/
theorem parseRecords_spec {fuel : ℕ} {rest : List UInt8} (hfuel : rest.length ≤ fuel)
    (hfits : rest.length < isizeBound) (owned : List OwnedFd) :
    ∃ fds : List OwnedFd, fds.map (·.raw) = adopted (recordsFrom fuel rest) ∧
      parseRecords fuel rest owned = if ∀ r ∈ recordsFrom fuel rest, Good r then .ok (owned ++ fds)
        else .error (.malformedControl, owned ++ fds) := by
  induction fuel generalizing rest owned with
  | zero => exact ⟨[], rfl, by simp [parseRecords, recordsFrom]⟩
  | succ fuel ih =>
    by_cases hnil : rest = []
    · subst hnil
      exact ⟨[], by simp [recordsFrom, adopted, upToFailing], by simp [parseRecords, recordsFrom]⟩
    -- a record that is not good is the last one
    have hlast : ¬ Good rest → adopted (recordsFrom (fuel + 1) rest) = (slots rest).takeWhile Nonneg ∧
        ¬ ∀ r ∈ recordsFrom (fuel + 1) rest, Good r := by
      intro hbad
      unfold recordsFrom
      rw [if_neg hnil]
      exact ⟨by simp [adopted, upToFailing, hbad], fun h => hbad (h rest List.mem_cons_self)⟩
    by_cases hheader : cmsghdrSize ≤ rest.length
    swap
    · have hslots : slots rest = [] := if_neg fun h => hheader h.1
      obtain ⟨hadopted, hall⟩ := hlast fun h => hheader h.1.1
      refine ⟨[], by simp [hadopted, hslots], ?_⟩
      rw [if_neg hall]
      unfold parseRecords
      rw [if_neg hnil, if_pos (Nat.not_le.1 hheader), List.append_nil]
    obtain ⟨fds, hraw, hrun⟩ := parseRecords_succ fuel hheader owned
    have hdata : cmsgLen rest ≤ rest.length →
        ((rest.take (cmsgLen rest)).drop dataOffset).length = cmsgLen rest - dataOffset := by
      intro hle
      rw [List.length_drop, List.length_take, Nat.min_eq_left hle]
    by_cases hgood : Good rest
    · obtain ⟨hsome, hpos, -⟩ := cmsgAlign_bind hfits 0 hgood.1.2.1 hgood.1.2.2.1
      have hshorter : (rest.drop (align (cmsgLen rest))).length ≤ fuel := by
        rw [List.length_drop]
        omega
      obtain ⟨more, hmore, hbehind⟩ := ih hshorter
        (Nat.lt_of_le_of_lt (by rw [List.length_drop]; omega) hfits) (owned ++ fds)
      have hrecords : recordsFrom (fuel + 1) rest =
          rest :: recordsFrom fuel (rest.drop (align (cmsgLen rest))) := by
        rw [recordsFrom, if_neg hnil, if_pos hgood.1]
      obtain ⟨⟨-, hlow, hhigh, hwhole⟩, hnonneg⟩ := id hgood
      refine ⟨fds ++ more, ?_, ?_⟩
      · rw [List.map_append, hraw, hmore, hrecords]
        simp [adopted, upToFailing, hgood]
      · rw [hrun, if_pos ⟨hnonneg, fun hrights => (hdata hhigh).symm ▸ hwhole hrights⟩]
        unfold parseBehind
        rw [if_neg (by omega), hsome]
        dsimp only
        rw [if_neg hpos, hbehind, hrecords]
        simp [hgood, List.append_assoc]
    · obtain ⟨hadopted, hall⟩ := hlast hgood
      refine ⟨fds, by rw [hraw, hadopted], ?_⟩
      rw [hrun, if_neg hall]
      split_ifs with hslots
      · unfold parseBehind
        rw [if_pos ?_]
        by_contra hbounds
        obtain ⟨hlow, hhigh⟩ := not_or.1 hbounds
        have hle : cmsgLen rest ≤ rest.length := Nat.not_lt.1 hhigh
        refine hgood ⟨⟨hheader, Nat.not_lt.1 hlow, hle, ?_⟩, hslots.1⟩
        intro hrights
        rw [← hdata hle]
        exact hslots.2 hrights
      · rfl

/-! ### Parsing control data -/

lemma adopted_of_good {rs : List (List UInt8)} (h : ∀ r ∈ rs, Good r) :
    adopted rs = rs.flatMap slots ∧ late rs = [] := by
  induction rs with
  | nil => exact ⟨rfl, rfl⟩
  | cons r rs ih =>
    have hr : Good r := h r List.mem_cons_self
    have hall : ∀ w ∈ slots r, decide (Nonneg w) = true := fun w hw => decide_eq_true (hr.2 w hw)
    obtain ⟨hadopted, hlate⟩ := ih fun r' h' => h r' (List.mem_cons_of_mem r h')
    unfold adopted late at *
    simp only [upToFailing, hr, if_true, List.flatMap_cons]
    rw [hadopted, hlate, List.takeWhile_eq_self_iff.2 hall, List.dropWhile_eq_nil_iff.2 hall]
    exact ⟨rfl, rfl⟩

namespace ControlBuffer

variable (control : ControlBuffer) (flags : ℕ)

def records : List (List UInt8) := Frame.records control.bytes

/-- The walk over a buffer is the parser of its bytes. -/
theorem parseControl_eq :
    control.parseControl flags = Parsed.walk (Frame.parseControl control.bytes flags) := by
  unfold ControlBuffer.parseControl Frame.parseControl
  rw [Parsed.walk_bind, walkFrom_eq control.fits (by rw [List.drop_zero]), List.drop_zero]
  refine congrArg _ (funext fun owned => ?_)
  split_ifs <;> rfl

lemma parseControl_cases : ∃ fds : List OwnedFd, fds.map (·.raw) = adopted control.records ∧
    ((∀ r ∈ control.records, Good r) ∧ flags &&& msgCtrunc = 0 ∧ control.parseControl flags = .ok fds ∨
      ¬ ((∀ r ∈ control.records, Good r) ∧ flags &&& msgCtrunc = 0) ∧
        ∃ e, control.parseControl flags = .error (.failed e fds)) := by
  obtain ⟨fds, hraw, hrun⟩ := parseRecords_spec (Nat.le_refl control.bytes.length) control.fits []
  have hparse : parseRecords control.bytes.length control.bytes [] =
      if ∀ r ∈ control.records, Good r then .ok fds else .error (.malformedControl, fds) := by
    rw [List.nil_append] at hrun
    exact hrun
  refine ⟨fds, hraw, ?_⟩
  rw [parseControl_eq]
  unfold Frame.parseControl
  rw [hparse]
  by_cases hgood : ∀ r ∈ control.records, Good r
  · rw [if_pos hgood, except_ok_bind]
    by_cases hflags : flags &&& msgCtrunc = 0
    · rw [if_neg (not_not.2 hflags)]
      exact .inl ⟨hgood, hflags, rfl⟩
    · rw [if_pos hflags]
      exact .inr ⟨fun h => hflags h.2, .truncatedControl, rfl⟩
  · rw [if_neg hgood]
    exact .inr ⟨fun h => hgood h.1, .malformedControl, rfl⟩

/-- What is asked of parsing a buffer: it comes back and reads nothing outside; it goes well if
all records are well formed and nothing was truncated, with every descriptor in order; and when it
fails, every descriptor it came to is closed once. -/
structure Meets : Prop where
  ends : ∀ stop, control.parseControl flags = .error stop → ∃ e closed, stop = .failed e closed
  ok_iff : (∃ fds, control.parseControl flags = .ok fds) ↔
    (∀ r ∈ control.records, Formed r) ∧ (∀ r ∈ control.records, ∀ w ∈ slots r, Nonneg w) ∧
      flags &&& msgCtrunc = 0
  ok : ∀ fds, control.parseControl flags = .ok fds →
    fds.map (·.raw) = control.records.flatMap slots
  closed : ∀ e fds, control.parseControl flags = .error (.failed e fds) →
    ∀ w ∈ addressable control.records, (fds.map (·.raw)).count w = 1

/-- **Control data.** Whatever a buffer holds, what is asked of parsing it is met unless the record
that fails has a descriptor behind a negative one. -/
theorem meets_iff (hdistinct : (addressable control.records).Nodup) :
    control.Meets flags ↔ late control.records = [] := by
  have hperm := addressable_perm control.records
  have hsplit : (adopted control.records ++ late control.records).Nodup := hperm.nodup_iff.2 hdistinct
  have hgood_iff : (∀ r ∈ control.records, Good r) ↔ (∀ r ∈ control.records, Formed r) ∧
      ∀ r ∈ control.records, ∀ w ∈ slots r, Nonneg w :=
    ⟨fun h => ⟨fun r hr => (h r hr).1, fun r hr => (h r hr).2⟩, fun h r hr => ⟨h.1 r hr, h.2 r hr⟩⟩
  obtain ⟨fds, hraw, hcases⟩ := control.parseControl_cases flags
  constructor
  · intro hmeets
    rcases hcases with ⟨hgood, -, -⟩ | ⟨-, e, hrun⟩
    · exact (adopted_of_good hgood).2
    · rw [List.eq_nil_iff_forall_not_mem]
      intro w hw
      have hcount := hmeets.closed e fds hrun w (hperm.subset (List.mem_append_right _ hw))
      rw [hraw] at hcount
      have hmem : w ∈ adopted control.records := List.count_pos_iff.1 (by omega)
      exact List.disjoint_of_nodup_append hsplit hmem hw
  · intro hlate
    rw [hlate, List.append_nil] at hperm
    rcases hcases with ⟨hgood, hflags, hrun⟩ | ⟨hbad, e, hrun⟩
    · refine ⟨by simp [hrun], ?_, ?_, by simp [hrun]⟩
      · obtain ⟨hformed, hnonneg⟩ := hgood_iff.1 hgood
        exact ⟨fun _ => ⟨hformed, hnonneg, hflags⟩, fun _ => ⟨fds, hrun⟩⟩
      · intro fds' hrun'
        cases hrun.symm.trans hrun'
        rw [hraw, (adopted_of_good hgood).1]
    · refine ⟨?_, ?_, by simp [hrun], ?_⟩
      · intro stop hstop
        exact ⟨e, fds, (Except.error.inj (hrun.symm.trans hstop)).symm⟩
      · refine ⟨by simp [hrun], ?_⟩
        rintro ⟨hformed, hnonneg, hflags⟩
        exact absurd ⟨hgood_iff.2 ⟨hformed, hnonneg⟩, hflags⟩ hbad
      · intro e' fds' hrun' w hw
        cases hrun.symm.trans hrun'
        rw [hraw]
        exact List.count_eq_one_of_mem (hperm.nodup_iff.2 hdistinct) (hperm.mem_iff.2 hw)

def overlong : ControlBuffer where
  bytes := rightsRecord [⟨5, by decide⟩] ++ leBytes 8 100 ++ leBytes 4 solSocket ++
    leBytes 4 scmRights ++ leBytes 4 6
  fits := by decide +kernel

theorem overlong_meets : overlong.Meets 0 :=
  (overlong.meets_iff 0 (by decide +kernel)).2 (by decide +kernel)

def negativeWithin : ControlBuffer where
  bytes := leBytes 8 28 ++ leBytes 4 solSocket ++ leBytes 4 scmRights ++ leBytes 4 5 ++
    leBytes 4 (2 ^ 32 - 1) ++ leBytes 4 7
  fits := by decide +kernel

/-- The descriptor 7 is not closed. -/
theorem negativeWithin_leaks : (addressable negativeWithin.records).Nodup ∧
    7 ∈ addressable negativeWithin.records ∧
    negativeWithin.parseControl 0 = .error (.failed .malformedControl [⟨5, by decide⟩]) ∧
    ¬ negativeWithin.Meets 0 := by
  have hrun : negativeWithin.parseControl 0 = .error (.failed .malformedControl [⟨5, by decide⟩]) := by
    decide +kernel
  have hmem : 7 ∈ addressable negativeWithin.records := by decide +kernel
  refine ⟨by decide +kernel, hmem, hrun, ?_⟩
  intro hmeets
  exact absurd (hmeets.closed _ _ hrun 7 hmem) (by decide)

end ControlBuffer

end PipewireNative.Frame
