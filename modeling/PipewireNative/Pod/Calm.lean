import PipewireNative.Pod.Readback

/-!
Decoding never panics, whatever the bytes are, and takes the bytes that the header declares.
-/

namespace PipewireNative.Pod

open Lib Lib.Word Prog

variable {E : Enums} {α β : Type}

/-- The size that the header at the beginning declares. -/
def declared (data : List UInt8) : ℕ := wordAt data 0 4

lemma declared_lt (data : List UInt8) : declared data < 2 ^ 32 := wordAt_lt data 0 4

/-- A value was read, and the bytes of the pod that the header declares, which were there. -/
def Framed (data : List UInt8) (r : α × ℕ) : Prop :=
  r.2 = frame (declared data) ∧ r.2 ≤ data.length

lemma u32At_declared {data : List UInt8} (h : 4 ≤ data.length) :
    (u32At data 0 : Read _) = .ok (.ofNat (declared data)) :=
  u32At_of_le (by omega)

lemma toNat_wordAt (data : List UInt8) (i : ℕ) :
    (UInt32.ofNat (wordAt data i 4)).toNat = wordAt data i 4 := toNat_ofNat (wordAt_lt data i 4)

lemma toNat_declared (data : List UInt8) : (UInt32.ofNat (declared data)).toNat = declared data :=
  toNat_wordAt data 0

lemma podTotalSize_declared (data : List UInt8) :
    podTotalSize (declared data) = .ok (frame (declared data)) :=
  podTotalSize_frame (declared_lt data)

lemma calm_check {c : Prop} [Decidable c] {message : String} {f : Unit → Read β} {Q : β → Prop}
    (h : ¬ c → Calm (f ()) Q) : Calm (rejectIf c (Fault.invalid message) >>= f) Q :=
  calm_rejectIf (by simp [Fault.invalid, Panics.panic]) h

lemma calm_invalid {message : String} {Q : β → Prop} :
    Calm (.error (Fault.invalid message) : Read β) Q := by
  simp [calm_error, Fault.invalid, Panics.panic]

namespace Prim

lemma decodeBody_calm (p : Prim E) {data : List UInt8} (h : p.podSize ≤ data.length) :
    Calm (p.decodeBody data) fun _ => True := by
  cases p with
  | unit => trivial
  | bool =>
    change Calm (u32At data 0 >>= _) _
    rw [u32At_of_le h]
    trivial
  | id n =>
    simp only [decodeBody]
    rw [u32At_of_le h, except_ok_bind]
    split
    · trivial
    · exact calm_invalid
  | int =>
    simp only [decodeBody]
    rw [u32At_of_le h]
    trivial
  | long =>
    simp only [decodeBody]
    rw [u64At_of_le h]
    trivial
  | float =>
    simp only [decodeBody]
    rw [u32At_of_le h]
    trivial
  | double | fd =>
    simp only [decodeBody]
    rw [u64At_of_le h]
    trivial
  | rectangle | fraction =>
    have h8 : 8 ≤ data.length := h
    simp only [decodeBody]
    rw [u32At_of_le (by omega), except_ok_bind, u32At_of_le h]
    trivial

theorem decode_calm (p : Prim E) (data : List UInt8) : Calm (p.decode data) (Framed data) := by
  unfold decode
  refine calm_check fun hlen => ?_
  rw [u32At_declared (by omega), except_ok_bind, toNat_declared]
  refine calm_check fun hsize => ?_
  rw [u32At_of_le (by omega), except_ok_bind]
  refine calm_check fun _ => ?_
  rw [podTotalSize_declared, except_ok_bind]
  refine calm_check fun htotal => ?_
  have hframe : frame (declared data) = 8 + declared data + pad8 (declared data) := rfl
  rw [slice_of_le (by omega) (by omega), except_ok_bind, calm_bind]
  refine (p.decodeBody_calm ?_).mono fun _ _ => ⟨rfl, by omega⟩
  rw [List.length_take, List.length_drop]
  omega

lemma child_calm (p : Prim E) {data : List UInt8} {base i : ℕ}
    (h : base + i * p.podSize + p.podSize ≤ data.length) :
    Calm (p.child data base i) fun _ => True := by
  unfold child
  rw [slice_of_le (by omega) h, except_ok_bind]
  refine p.decodeBody_calm ?_
  rw [List.length_take, List.length_drop]
  omega

lemma children_calm (p : Prim E) {data : List UInt8} {base i n : ℕ}
    (h : base + (i + n) * p.podSize ≤ data.length) :
    Calm (p.children data base i n) fun _ => True := by
  induction n generalizing i with
  | zero => trivial
  | succ n ih =>
    have hchild : i * p.podSize + p.podSize ≤ (i + (n + 1)) * p.podSize := by
      rw [← Nat.succ_mul]
      exact Nat.mul_le_mul_right _ (by omega)
    unfold children
    refine calm_bind.2 ((p.child_calm (by omega)).mono fun _ _ => ?_)
    refine calm_bind.2 ((ih ?_).mono fun _ _ => trivial)
    rwa [Nat.add_right_comm, Nat.add_assoc i n 1]

end Prim

/-! ### Strings, bytes and pointers -/

theorem decodeString_calm (data : List UInt8) : Calm (decodeString data) (Framed data) := by
  unfold decodeString
  refine calm_check fun hlen => ?_
  rw [u32At_declared (by omega), except_ok_bind]
  refine calm_check fun hzero => ?_
  have hpos : declared data ≠ 0 := by
    intro h
    rw [h] at hzero
    exact hzero rfl
  rw [toNat_declared, podTotalSize_declared, except_ok_bind]
  refine calm_check fun htotal => ?_
  have hframe : frame (declared data) = 8 + declared data + pad8 (declared data) := rfl
  rw [u32At_of_le (by omega), except_ok_bind]
  refine calm_check fun _ => ?_
  rw [slice_of_le (by omega) (by omega), except_ok_bind, slice_of_le (by omega) (by omega),
    except_ok_bind]
  exact calm_check fun _ => ⟨rfl, Nat.le_of_not_lt htotal⟩

theorem decodeBytes_calm (data : List UInt8) : Calm (decodeBytes data) (Framed data) := by
  unfold decodeBytes
  refine calm_check fun hlen => ?_
  rw [u32At_declared (by omega), except_ok_bind, toNat_declared, podTotalSize_declared,
    except_ok_bind]
  refine calm_check fun htotal => ?_
  have hframe : frame (declared data) = 8 + declared data + pad8 (declared data) := rfl
  rw [u32At_of_le (by omega), except_ok_bind]
  refine calm_check fun _ => ?_
  rw [slice_of_le (by omega) (by omega), except_ok_bind]
  exact ⟨rfl, Nat.le_of_not_lt htotal⟩

theorem decodePointer_calm (data : List UInt8) : Calm (decodePointer data) (Framed data) := by
  unfold decodePointer
  refine calm_check fun hlen => ?_
  rw [u32At_declared (by omega), except_ok_bind, toNat_declared, podTotalSize_declared,
    except_ok_bind]
  refine calm_check fun htotal => ?_
  have hframe : frame (declared data) = 8 + declared data + pad8 (declared data) := rfl
  have hsize : declared data = 16 := by
    by_contra h
    exact htotal (.inl h)
  have hlong : frame (declared data) ≤ data.length := by
    by_contra h
    exact htotal (.inr (Nat.lt_of_not_le h))
  rw [u32At_of_le (by omega), except_ok_bind]
  refine calm_check fun _ => ?_
  rw [u32At_of_le (by omega), except_ok_bind]
  split
  · exact calm_invalid
  · rw [u64At_of_le (by omega), except_ok_bind]
    exact ⟨rfl, hlong⟩

/-! ### Arrays and choices -/

theorem decodeArray_calm (p : Prim E) (data : List UInt8) :
    Calm (decodeArray p data) (Framed data) := by
  unfold decodeArray
  refine calm_check fun hlen => ?_
  rw [u32At_declared (by omega), except_ok_bind, toNat_declared]
  refine calm_check fun height => ?_
  rw [podTotalSize_declared, except_ok_bind]
  refine calm_check fun htotal => ?_
  have hframe : frame (declared data) = 8 + declared data + pad8 (declared data) := rfl
  rw [u32At_of_le (by omega), except_ok_bind]
  refine calm_check fun _ => ?_
  rw [u32At_of_le (by omega), except_ok_bind, toNat_wordAt]
  refine calm_check fun hchild => ?_
  have hsize : wordAt data 8 4 = p.podSize := by
    by_contra h
    exact hchild (.inr h)
  rw [u32At_of_le (by omega), except_ok_bind]
  refine calm_check fun _ => ?_
  refine calm_check fun _ => ?_
  rw [slice_of_le (by omega) (by omega), except_ok_bind, calm_bind, hsize]
  refine (p.children_calm ?_).mono fun _ _ => ⟨rfl, Nat.le_of_not_lt htotal⟩
  rw [List.length_take, List.length_drop, Nat.zero_add, Nat.zero_add]
  exact Nat.le_trans (Nat.div_mul_le_self _ _) (by omega)

lemma Choice.ofChildren_calm {kind count : ℕ} {child : ℕ → Read α}
    {alternatives : ℕ → Read (List α)} {P : α → Prop} (hchild : ∀ i < count, Calm (child i) P)
    (halternatives : count ≠ 0 → Calm (alternatives (count - 1)) fun vs => ∀ v ∈ vs, P v) :
    Calm (Choice.ofChildren kind count child alternatives) fun c => ∀ v ∈ c.values, P v := by
  unfold Choice.ofChildren
  split
  · refine calm_check fun h => ?_
    refine calm_bind.2 ((hchild 0 (by omega)).mono fun value hvalue => calm_pure.2 ?_)
    simpa [values] using hvalue
  · refine calm_check fun h => ?_
    refine calm_bind.2 ((hchild 0 (by omega)).mono fun default hdefault => ?_)
    refine calm_bind.2 ((hchild 1 (by omega)).mono fun min hmin => ?_)
    refine calm_bind.2 ((hchild 2 (by omega)).mono fun max hmax => calm_pure.2 ?_)
    simpa [values] using ⟨hdefault, hmin, hmax⟩
  · refine calm_check fun h => ?_
    refine calm_bind.2 ((hchild 0 (by omega)).mono fun default hdefault => ?_)
    refine calm_bind.2 ((hchild 1 (by omega)).mono fun min hmin => ?_)
    refine calm_bind.2 ((hchild 2 (by omega)).mono fun max hmax => ?_)
    refine calm_bind.2 ((hchild 3 (by omega)).mono fun stride hstride => calm_pure.2 ?_)
    simpa [values] using ⟨hdefault, hmin, hmax, hstride⟩
  · refine calm_check fun h => ?_
    refine calm_bind.2 ((hchild 0 (by omega)).mono fun default hdefault => ?_)
    refine calm_bind.2 ((halternatives h).mono fun vs hvs => calm_pure.2 ?_)
    simpa [values] using ⟨hdefault, hvs⟩
  · refine calm_check fun h => ?_
    refine calm_bind.2 ((hchild 0 (by omega)).mono fun default hdefault => ?_)
    refine calm_bind.2 ((hchild 1 (by omega)).mono fun set hset => calm_pure.2 ?_)
    simpa [values] using ⟨hdefault, hset⟩
  · exact calm_invalid

lemma child_end_le (base : ℕ) {size count n i : ℕ} (hn : count * size ≤ n) (hi : i < count) :
    base + i * size + size ≤ base + n := by
  have h : i * size + size ≤ count * size := by
    rw [← Nat.succ_mul]
    exact Nat.mul_le_mul_right _ hi
  omega

theorem decodeChoice_calm (p : Prim E) (data : List UInt8) :
    Calm (decodeChoice p data) (Framed data) := by
  unfold decodeChoice
  refine calm_check fun hlen => ?_
  rw [u32At_declared (by omega), except_ok_bind, toNat_declared]
  refine calm_check fun hsixteen => ?_
  rw [podTotalSize_declared, except_ok_bind]
  refine calm_check fun htotal => ?_
  have hframe : frame (declared data) = 8 + declared data + pad8 (declared data) := rfl
  rw [u32At_of_le (by omega), except_ok_bind]
  refine calm_check fun _ => ?_
  rw [u32At_of_le (by omega), except_ok_bind, u32At_of_le (by omega), except_ok_bind,
    toNat_wordAt data 16]
  refine calm_check fun hchild => ?_
  have hsize : wordAt data 16 4 = p.podSize := by
    by_contra h
    exact hchild (.inr h)
  rw [u32At_of_le (by omega), except_ok_bind]
  refine calm_check fun _ => ?_
  refine calm_check fun _ => ?_
  have hall := Nat.div_mul_le_self (declared data - 16) p.podSize
  rw [calm_bind, hsize]
  generalize (declared data - 16) / p.podSize = count at hall ⊢
  refine (Choice.ofChildren_calm (P := fun _ => True) ?_ ?_).mono
    fun _ _ => ⟨rfl, Nat.le_of_not_lt htotal⟩
  · intro i hi
    have hend := child_end_le 24 hall hi
    exact p.child_calm (by omega)
  · intro hzero
    refine (p.children_calm ?_).mono fun _ _ _ _ => trivial
    rw [(by omega : 1 + (count - 1) = count)]
    omega

/-! ### Raw pods -/

theorem RawPod.wrap_calm (data : List UInt8) :
    Calm (RawPod.wrap data) fun r => r.data = data.take (frame (declared data)) ∧
      frame (declared data) ≤ data.length := by
  cases hr : RawPod.wrap data with
  | ok r =>
    obtain ⟨-, hle, -, hdata⟩ := RawPod.wrap_eq_ok.1 hr
    exact ⟨hdata, hle⟩
  | error f =>
    intro hpanic
    subst hpanic
    unfold RawPod.wrap at hr
    split at hr
    · cases hr
    · rename_i hlen
      split at hr
      · rename_i f hf
        rw [u32At_of_le (by omega)] at hf
        cases hf
      · split at hr
        · rename_i hinternal f hf
          rw [u32At_declared (by omega)] at hinternal
          cases hinternal
          rw [toNat_declared, podTotalSize_declared] at hf
          cases hf
        · split at hr
          · cases hr
          · split at hr
            · rename_i f hf
              rw [u32At_of_le (by omega)] at hf
              cases hf
            · split at hr
              · cases hr
              · cases hr

theorem RawPod.decode_calm (data : List UInt8) : Calm (RawPod.decode data) (Framed data) := by
  unfold RawPod.decode
  rw [calm_bind]
  refine (RawPod.wrap_calm data).mono ?_
  rintro r ⟨hdata, hle⟩
  have hsize : r.size = frame (declared data) := by
    rw [RawPod.size, hdata, List.length_take_of_le hle]
  exact ⟨hsize, Nat.le_trans (Nat.le_of_eq hsize) hle⟩

/-! ### All of them -/

namespace PodTy

/-- How many bytes a value takes: those of a pod, behind the key and the flags of a property. -/
def Takes : PodTy E → List UInt8 → ℕ → Prop
  | .property _ t, data, n => ∃ m, n = 8 + m ∧ t.Takes (data.drop 8) m
  | .option t, data, n => t.Takes data n ∨ n = frame (declared data)
  | _, data, n => n = frame (declared data)

/-- Decoding does not panic, and takes the bytes that are declared, which are there. -/
theorem decode_calm (t : PodTy E) (data : List UInt8) :
    Calm (t.decode data) fun r => t.Takes data r.2 ∧ r.2 ≤ data.length := by
  induction t generalizing data with
  | prim p => exact p.decode_calm data
  | string => exact decodeString_calm data
  | bytes => exact decodeBytes_calm data
  | pointer => exact decodePointer_calm data
  | array p => exact decodeArray_calm p data
  | choice p => exact decodeChoice_calm p data
  | property k t ih =>
    unfold decode
    refine calm_check fun hlen => ?_
    rw [u32At_of_le (by omega), except_ok_bind]
    split
    · exact calm_invalid
    · rw [u32At_of_le (by omega), except_ok_bind]
      split
      · exact calm_invalid
      · rw [slice_of_le (by omega) (Nat.le_refl _), except_ok_bind, calm_bind,
          List.take_of_length_le (Nat.le_of_eq List.length_drop)]
        refine (ih (data.drop 8)).mono ?_
        rintro ⟨v, n⟩ ⟨htakes, hle⟩
        rw [List.length_drop] at hle
        exact ⟨⟨n, rfl, htakes⟩, (by omega : 8 + n ≤ data.length)⟩
  | option t ih =>
    have h := ih data
    unfold decode
    split
    · rename_i v n hr
      rw [hr] at h
      exact ⟨.inl h.1, h.2⟩
    · rw [calm_bind]
      exact ((Prim.unit : Prim E).decode_calm data).mono fun _ hframed =>
        ⟨.inr hframed.1, hframed.2⟩
    · rename_i hr
      exact absurd hr h.ne_panic
  | raw => exact RawPod.decode_calm data

end PodTy

end PipewireNative.Pod
