import PipewireNative.Pod.Codec

/-!
What encoding leaves in a buffer: the image of a value. Arrays and choices do not write their
padding, so their image keeps what was there. Encoding a value either writes its image at the
beginning of the buffer, or says that there is no space, or panics on an overflow.
-/

namespace PipewireNative.Pod

open Lib Lib.Word Prog

variable {E : Enums}

/-- The length of a pod with a body of so many bytes. -/
def frame (n : ℕ) : ℕ := 8 + n + pad8 n

/-- A header, a body and its padding. -/
def podOf (n : ℕ) (type : PodType) (body padding : List UInt8) : List UInt8 :=
  word n ++ (word type.toNat ++ (body ++ padding))

lemma pad8_add_eight (n : ℕ) : pad8 (8 + n) = pad8 n := by
  unfold pad8
  split_ifs <;> omega

lemma frame_mod_eight (n : ℕ) : frame n % 8 = 0 := by
  unfold frame pad8
  split_ifs <;> omega

lemma podOf_length {n : ℕ} {type : PodType} {body padding : List UInt8} (hbody : body.length = n)
    (hpadding : padding.length = pad8 n) : (podOf n type body padding).length = frame n := by
  simp only [podOf, List.length_append, leBytes_length, frame]
  omega

namespace Prim

variable (p : Prim E)

lemma body_length (v : p.Val) : (p.body v).length = p.podSize := by
  cases p <;> simp [body, podSize]

def bodies (vs : List p.Val) : List UInt8 := vs.flatMap p.body

lemma bodies_length (vs : List p.Val) : (p.bodies vs).length = p.podSize * vs.length := by
  simp [bodies, List.length_flatMap, body_length, Nat.mul_comm]

def image (v : p.Val) : List UInt8 :=
  podOf p.podSize p.podType (p.body v) (List.replicate (pad8 p.podSize) 0)

end Prim

lemma take_append_drop_add {data : List UInt8} {n m : ℕ} :
    (data.drop n).take m ++ data.drop (n + m) = data.drop n := by
  rw [← List.drop_drop, List.take_append_drop]

lemma kept_length {data : List UInt8} {n m : ℕ} (h : n + m ≤ data.length) :
    ((data.drop n).take m).length = m := by
  rw [List.length_take_of_le]
  rw [List.length_drop]
  omega

lemma ends_header {n m : ℕ} {data : List UInt8} {α : Type} {k : Write α}
    {Q : α → List UInt8 → Prop} {F : Fault → List UInt8 → Prop} (h : 8 ≤ data.length) :
    (write 0 (word n) >>= fun _ => write 4 (word m) >>= fun _ => k).Ends data Q F ↔
      k.Ends (word n ++ word m ++ data.drop 8) Q F := by
  rw [ends_bind, ends_write_zero (by rw [leBytes_length]; omega), ends_bind,
    ends_write (leBytes_length 4 n) (by simp only [leBytes_length, List.length_drop]; omega)]
  simp only [leBytes_length, List.drop_drop]

namespace Prim

variable (p : Prim E)

theorem encode_ends (v : p.Val) (data : List UInt8) {Q : ℕ → List UInt8 → Prop}
    {F : Fault → List UInt8 → Prop} : (p.encode v).Ends data Q F ↔
      if data.length < frame p.podSize then F .noSpace data
      else Q (frame p.podSize) (p.image v ++ data.drop (frame p.podSize)) := by
  have hbody := p.body_length v
  unfold encode
  rw [ends_bind, ends_get]
  simp only []
  rw [ends_bind, ends_failIf]
  change _ ↔ if data.length < 8 + p.podSize + pad8 p.podSize then _ else _
  by_cases h : data.length < 8 + p.podSize + pad8 p.podSize
  · simp [h]
  · simp only [h, false_implies, not_false_eq_true, true_implies, true_and, if_false]
    rw [ends_header (by omega), ends_bind, ends_within (by simp), encodeBody,
      ends_write_zero (by rw [hbody, List.length_drop]; omega), ends_ite, ← List.append_assoc]
    have hpadding := List.length_replicate (n := pad8 p.podSize) (a := (0 : UInt8))
    rw [ends_bind, ends_write (by simp [hbody]; omega)
      (by simp only [hpadding, hbody, List.length_drop]; omega)]
    simp only [ends_pure, hbody, hpadding, List.drop_drop, image, podOf, frame, List.append_assoc]
    by_cases hpos : 0 < pad8 p.podSize
    · simp only [hpos, true_implies, not_true_eq_false, false_implies, and_true, Nat.add_assoc]
    · simp [Nat.eq_zero_of_not_pos hpos]

lemma encodeBodies_ends {base i : ℕ} {vs : List p.Val} {done rest : List UInt8}
    {Q : Unit → List UInt8 → Prop} {F : Fault → List UInt8 → Prop}
    (hdone : done.length = base + i * p.podSize) (hfit : p.podSize * vs.length ≤ rest.length) :
    (p.encodeBodies base i vs).Ends (done ++ rest) Q F ↔
      Q () (done ++ p.bodies vs ++ rest.drop (p.podSize * vs.length)) := by
  induction vs generalizing i done rest with
  | nil => simp [encodeBodies, bodies]
  | cons v vs ih =>
    have hbody := p.body_length v
    rw [List.length_cons, Nat.mul_succ] at hfit
    have hnext : (done ++ p.body v).length = base + (i + 1) * p.podSize := by
      rw [List.length_append, hdone, hbody, Nat.succ_mul, Nat.add_assoc]
    have hmul : p.podSize * (vs.length + 1) = p.podSize + p.podSize * vs.length := by
      rw [Nat.mul_succ, Nat.add_comm]
    unfold encodeBodies
    rw [ends_bind, ends_within hdone, encodeBody, ends_write_zero (by omega), ← List.append_assoc,
      ih hnext (by rw [hbody, List.length_drop]; omega), hbody, List.drop_drop]
    simp only [bodies, List.flatMap_cons, List.append_assoc, List.length_cons, hmul]

end Prim

/-! ### Single pods -/

section Single

variable (data : List UInt8) {Q : ℕ → List UInt8 → Prop} {F : Fault → List UInt8 → Prop}

lemma zeros_length (n : ℕ) : (List.replicate n (0 : UInt8)).length = n := List.length_replicate

def stringImage (s : String) : List UInt8 :=
  podOf ((utf8 s).length + 1) .string (utf8 s ++ [0])
    (List.replicate (pad8 ((utf8 s).length + 1)) 0)

lemma encodeString_ends (s : String) : (encodeString s).Ends data Q F ↔
    if data.length < frame ((utf8 s).length + 1) then F .noSpace data
    else Q (frame ((utf8 s).length + 1))
      (stringImage s ++ data.drop (frame ((utf8 s).length + 1))) := by
  unfold encodeString stringImage
  generalize utf8 s = bytes
  rw [ends_bind, ends_get]
  simp only []
  have hmax : ¬ u32Max < (bytes.length + 1) % 2 ^ 32 := by
    unfold u32Max
    omega
  rw [ends_bind, ends_failIf]
  simp only [hmax, false_or]
  change _ ↔ if data.length < 8 + (bytes.length + 1) + pad8 (bytes.length + 1) then _ else _
  by_cases h : data.length < 8 + (bytes.length + 1) + pad8 (bytes.length + 1)
  · simp [h]
  · simp only [h, false_implies, not_false_eq_true, true_implies, true_and, if_false]
    rw [ends_header (by omega), ends_bind,
      ends_write (by simp) (by rw [List.length_drop]; omega), ends_bind,
      ends_write (by simp; omega) (by simp only [List.length_drop, List.length_singleton]; omega),
      ends_bind, ends_write (by simp; omega)
        (by simp only [zeros_length, List.length_drop, List.length_singleton]; omega), ends_pure]
    simp only [zeros_length, List.drop_drop, List.length_singleton, podOf, frame,
      List.append_assoc, Nat.add_assoc]

def bytesImage (bytes : List UInt8) : List UInt8 :=
  podOf bytes.length .bytes bytes (List.replicate (pad8 bytes.length) 0)

lemma encodeBytes_ends (bytes : List UInt8) : (encodeBytes bytes).Ends data Q F ↔
    if data.length < frame bytes.length then F .noSpace data
    else Q (frame bytes.length) (bytesImage bytes ++ data.drop (frame bytes.length)) := by
  unfold encodeBytes bytesImage
  rw [ends_bind, ends_get]
  simp only []
  have hmax : ¬ u32Max < bytes.length % 2 ^ 32 := by
    unfold u32Max
    omega
  rw [ends_bind, ends_failIf]
  simp only [hmax, false_or]
  change _ ↔ if data.length < 8 + bytes.length + pad8 bytes.length then _ else _
  by_cases h : data.length < 8 + bytes.length + pad8 bytes.length
  · simp [h]
  · simp only [h, false_implies, not_false_eq_true, true_implies, true_and, if_false]
    rw [ends_header (by omega), ends_bind,
      ends_write (by simp) (by rw [List.length_drop]; omega), ends_bind,
      ends_write (by simp; omega) (by simp only [zeros_length, List.length_drop]; omega), ends_pure]
    simp only [zeros_length, List.drop_drop, podOf, frame, List.append_assoc, Nat.add_assoc]

def pointerImage (p : Pointer) : List UInt8 :=
  podOf 16 .pointer (word p.type.toNat ++ ([0, 0, 0, 0] ++ long p.ptr.toNat)) []

lemma encodePointer_ends (p : Pointer) : (encodePointer p).Ends data Q F ↔
    if data.length < 24 then F .noSpace data else Q 24 (pointerImage p ++ data.drop 24) := by
  unfold encodePointer pointerImage
  rw [ends_bind, ends_get]
  rw [ends_bind, ends_failIf]
  by_cases h : data.length < 24
  · simp [h]
  · simp only [h, false_implies, not_false_eq_true, true_implies, true_and, if_false]
    rw [ends_header (by omega), ends_bind,
      ends_write (by simp) (by simp only [leBytes_length, List.length_drop]; omega), ends_bind,
      ends_write (by simp)
        (by simp only [leBytes_length, List.length_drop, List.length_cons, List.length_nil]; omega),
      ends_bind,
      ends_write (by simp)
        (by simp only [leBytes_length, List.length_drop, List.length_cons, List.length_nil]; omega),
      ends_pure]
    simp only [leBytes_length, List.drop_drop, podOf, List.append_assoc, List.length_cons,
      List.length_nil, List.append_nil, ptrSize]

variable (p : Prim E)

/-- An array whose length is not computed: the elements, or the pod, are too long for a `usize`, or
there is room for it and the body is too long for a `u32`. -/
def ArrayOverflow (vs : List p.Val) (room : ℕ) : Prop :=
  usizeBound ≤ frame (8 + p.podSize * vs.length) ∨
    frame (8 + p.podSize * vs.length) ≤ room ∧ 2 ^ 32 ≤ 8 + p.podSize * vs.length % 2 ^ 32

instance (vs : List p.Val) (room : ℕ) : Decidable (ArrayOverflow p vs room) := by
  unfold ArrayOverflow
  infer_instance

def arrayImage (vs : List p.Val) (old : List UInt8) : List UInt8 :=
  podOf (8 + p.podSize * vs.length) .array
    (word p.podSize ++ (word p.podType.toNat ++ p.bodies vs))
    ((old.drop (16 + p.podSize * vs.length)).take (pad8 (8 + p.podSize * vs.length)))

lemma arrayBody_length (vs : List p.Val) :
    (word p.podSize ++ (word p.podType.toNat ++ p.bodies vs)).length = 8 + p.podSize * vs.length := by
  simp only [List.length_append, leBytes_length, p.bodies_length]
  omega

lemma encodeArray_ends (vs : List p.Val) : (encodeArray p vs).Ends data Q F ↔
    if ArrayOverflow p vs data.length then F .panic data
    else if data.length < frame (8 + p.podSize * vs.length) then F .noSpace data
    else Q (frame (8 + p.podSize * vs.length))
      (arrayImage p vs data ++ data.drop (frame (8 + p.podSize * vs.length))) := by
  have hframe : frame (8 + p.podSize * vs.length) =
      8 + 8 + p.podSize * vs.length + pad8 (p.podSize * vs.length) := by
    rw [frame, pad8_add_eight]
    omega
  have hbodies := p.bodies_length vs
  unfold encodeArray
  rw [ends_bind, ends_get]
  simp only []
  by_cases hover : ArrayOverflow p vs data.length
  · rw [if_pos hover]
    unfold ArrayOverflow at hover
    rw [hframe] at hover
    by_cases helems : usizeBound ≤ p.podSize * vs.length
    · rw [ends_bind, ends_failIf_of helems]
    · rw [ends_bind, ends_failIf_of_not helems, ends_bind]
      by_cases htotal : usizeBound ≤ 8 + 8 + p.podSize * vs.length + pad8 (p.podSize * vs.length)
      · rw [ends_failIf_of htotal]
      · obtain ⟨hroom, hword⟩ := hover.resolve_left htotal
        rw [ends_failIf_of_not htotal, ends_bind, ends_failIf_of_not (by omega), ends_bind,
          ends_failIf_of hword]
  · rw [if_neg hover]
    unfold ArrayOverflow at hover
    rw [hframe] at hover ⊢
    rw [ends_bind, ends_failIf_of_not (by omega), ends_bind, ends_failIf_of_not (by omega),
      ends_bind]
    by_cases hroom : data.length < 8 + 8 + p.podSize * vs.length + pad8 (p.podSize * vs.length)
    · rw [ends_failIf_of hroom, if_pos hroom]
    · rw [ends_failIf_of_not hroom, if_neg hroom, ends_bind, ends_failIf_of_not (by omega),
        ends_header (by omega), ends_bind, ends_write (by simp)
          (by simp only [leBytes_length, List.length_drop]; omega), ends_bind,
        ends_write (by simp) (by simp only [leBytes_length, List.length_drop]; omega), ends_bind,
        p.encodeBodies_ends (by simp)
          (by simp only [leBytes_length, List.length_drop]; omega), ends_pure]
      simp only [leBytes_length, List.drop_drop, arrayImage, podOf, List.append_assoc,
        pad8_add_eight, Nat.reduceAdd, take_append_drop_add]

/-- The number of bytes of the values of a choice, with what stands before them. -/
def choiceSize (c : Choice p.Val) : ℕ := 16 + p.podSize * c.values.length

def choiceImage (c : Choice p.Val) (old : List UInt8) : List UInt8 :=
  podOf (choiceSize p c) .choice
    (word c.kind ++ (word 0 ++ (word p.podSize ++ (word p.podType.toNat ++ p.bodies c.values))))
    ((old.drop (8 + choiceSize p c)).take (pad8 (choiceSize p c)))

lemma choiceBody_length (c : Choice p.Val) :
    (word c.kind ++ (word 0 ++ (word p.podSize ++ (word p.podType.toNat ++
      p.bodies c.values)))).length = choiceSize p c := by
  simp only [List.length_append, leBytes_length, p.bodies_length, choiceSize]
  omega

lemma encodeChoice_ends (c : Choice p.Val) : (encodeChoice p c).Ends data Q F ↔
    if usizeBound ≤ 16 + frame (choiceSize p c) then F .panic data
    else if data.length < 16 + frame (choiceSize p c) then F .noSpace data
    else Q (frame (choiceSize p c))
      (choiceImage p c data ++ data.drop (frame (choiceSize p c))) := by
  have hframe : 16 + frame (choiceSize p c) = 24 + choiceSize p c + pad8 (choiceSize p c) := by
    rw [frame]
    omega
  have hsize : choiceSize p c = 16 + p.podSize * c.values.length := rfl
  unfold encodeChoice
  rw [ends_bind, ends_get, hframe, ← hsize]
  simp only []
  by_cases hover : usizeBound ≤ 24 + choiceSize p c + pad8 (choiceSize p c)
  · rw [if_pos hover, ends_bind]
    by_cases hlong : usizeBound ≤ choiceSize p c
    · rw [ends_failIf_of hlong]
    · rw [ends_failIf_of_not hlong, ends_bind, ends_failIf_of hover]
  · rw [if_neg hover, ends_bind, ends_failIf_of_not (by omega), ends_bind,
      ends_failIf_of_not hover, ends_bind]
    by_cases hroom : data.length < 24 + choiceSize p c + pad8 (choiceSize p c)
    · rw [ends_failIf_of hroom, if_pos hroom]
    · rw [ends_failIf_of_not hroom, if_neg hroom, ends_header (by omega), ends_bind,
        ends_write (by simp) (by simp only [leBytes_length, List.length_drop]; omega), ends_bind,
        ends_write (by simp) (by simp only [leBytes_length, List.length_drop]; omega), ends_bind,
        ends_write (by simp) (by simp only [leBytes_length, List.length_drop]; omega), ends_bind,
        ends_write (by simp) (by simp only [leBytes_length, List.length_drop]; omega), ends_bind,
        p.encodeBodies_ends (by simp)
          (by simp only [leBytes_length, List.length_drop]; omega), ends_pure]
      have hend : 8 + 4 + 4 + 4 + 4 + p.podSize * c.values.length = 8 + choiceSize p c := by
        omega
      simp only [leBytes_length, List.drop_drop, choiceImage, podOf, List.append_assoc, hend, frame,
        take_append_drop_add]

end Single

/-! ### All of them -/

namespace PodTy

def size : (t : PodTy E) → t.Val → ℕ
  | .prim p, _ => frame p.podSize
  | .string, (s : String) => frame ((utf8 s).length + 1)
  | .bytes, (bs : List UInt8) => frame bs.length
  | .pointer, _ => 24
  | .array p, (vs : List p.Val) => frame (8 + p.podSize * vs.length)
  | .choice p, c => frame (choiceSize p c)
  | .property _ t, v => 8 + t.size v.value
  | .option t, some v => t.size v
  | .option _, none => 8
  | .raw, (r : RawPod) => r.data.length

/-- The room a value asks for: a choice asks for more than it writes. -/
def need : (t : PodTy E) → t.Val → ℕ
  | .prim p, _ => frame p.podSize
  | .string, (s : String) => frame ((utf8 s).length + 1)
  | .bytes, (bs : List UInt8) => frame bs.length
  | .pointer, _ => 24
  | .array p, (vs : List p.Val) => frame (8 + p.podSize * vs.length)
  | .choice p, c => 16 + frame (choiceSize p c)
  | .property _ t, v => 8 + t.need v.value
  | .option t, some v => t.need v
  | .option _, none => 8
  | .raw, (r : RawPod) => r.data.length

lemma size_le_need (t : PodTy E) (v : t.Val) : t.size v ≤ t.need v := by
  induction t with
  | choice p => exact Nat.le_add_left _ 16
  | property k t ih => exact Nat.add_le_add_left (ih v.value) 8
  | option t ih =>
    cases v with
    | none => exact Nat.le_refl 8
    | some v => exact ih v
  | _ => exact Nat.le_refl _

/-- A length in it is not computed, with so much room. -/
def Overflow : (t : PodTy E) → t.Val → ℕ → Prop
  | .array p, vs, room => ArrayOverflow p vs room
  | .choice p, c, _ => usizeBound ≤ 16 + frame (choiceSize p c)
  | .property _ t, v, room => 8 ≤ room ∧ t.Overflow v.value (room - 8)
  | .option t, some v, room => t.Overflow v room
  | _, _, _ => False

/-- What encoding a value leaves where there were the bytes `old`. -/
def image : (t : PodTy E) → t.Val → List UInt8 → List UInt8
  | .prim p, v, _ => p.image v
  | .string, s, _ => stringImage s
  | .bytes, bs, _ => bytesImage bs
  | .pointer, v, _ => pointerImage v
  | .array p, vs, old => arrayImage p vs old
  | .choice p, c, old => choiceImage p c old
  | .property _ t, v, old =>
    word (E.into v.key).toNat ++ (word v.flags.bits.toNat ++ t.image v.value (old.drop 8))
  | .option t, some v, old => t.image v old
  | .option _, none, _ => (Prim.unit : Prim E).image ()
  | .raw, (r : RawPod), _ => r.data

/-- How an encoding comes out well. -/
def Written (t : PodTy E) (v : t.Val) (data : List UInt8) (n : ℕ) (data' : List UInt8) : Prop :=
  n = t.size v ∧ t.need v ≤ data.length ∧ ¬ t.Overflow v data.length ∧
    data' = t.image v data ++ data.drop n

/-- How it does not. -/
def Unwritten (t : PodTy E) (v : t.Val) (data : List UInt8) (f : Fault) (data' : List UInt8) :
    Prop :=
  data'.length = data.length ∧ (f = .panic ∧ t.Overflow v data.length ∨
    f = .noSpace ∧ ¬ t.Overflow v data.length ∧ data.length < t.need v)

lemma fits_or_not (t : PodTy E) (v : t.Val) (data : List UInt8) (hneed : t.need v = t.size v)
    (hover : ¬ t.Overflow v data.length) :
    if data.length < t.size v then t.Unwritten v data .noSpace data
    else t.Written v data (t.size v) (t.image v data ++ data.drop (t.size v)) := by
  split_ifs with h
  · exact ⟨rfl, .inr ⟨rfl, hover, by omega⟩⟩
  · exact ⟨rfl, by omega, hover, rfl⟩

theorem encode_ends (t : PodTy E) (v : t.Val) (data : List UInt8) :
    (t.encode v).Ends data (t.Written v data) (t.Unwritten v data) := by
  induction t generalizing data with
  | prim p => exact (p.encode_ends v data).2 (fits_or_not (.prim p) v data rfl id)
  | string => exact (encodeString_ends data v).2 (fits_or_not .string v data rfl id)
  | bytes => exact (encodeBytes_ends data v).2 (fits_or_not .bytes v data rfl id)
  | pointer => exact (encodePointer_ends data v).2 (fits_or_not .pointer v data rfl id)
  | array p =>
    refine (encodeArray_ends data p v).2 ?_
    split_ifs with hover hroom
    · exact ⟨rfl, .inl ⟨rfl, hover⟩⟩
    · exact ⟨rfl, .inr ⟨rfl, hover, hroom⟩⟩
    · exact ⟨rfl, Nat.le_of_not_lt hroom, hover, rfl⟩
  | choice p =>
    refine (encodeChoice_ends data p v).2 ?_
    split_ifs with hover hroom
    · exact ⟨rfl, .inl ⟨rfl, hover⟩⟩
    · exact ⟨rfl, .inr ⟨rfl, hover, hroom⟩⟩
    · exact ⟨rfl, Nat.le_of_not_lt hroom, hover, rfl⟩
  | property k t ih =>
    unfold encode
    rw [ends_bind, ends_get, ends_bind]
    by_cases hroom : data.length < 8
    · rw [ends_failIf_of hroom]
      refine ⟨rfl, .inr ⟨rfl, fun h => ?_, ?_⟩⟩
      · exact absurd h.1 (by omega)
      · change data.length < 8 + t.need v.value
        omega
    · have hlen : (data.drop 8).length = data.length - 8 := List.length_drop
      rw [ends_failIf_of_not hroom, ends_header (by omega), ends_bind, ends_within (by simp)]
      refine (ih v.value (data.drop 8)).mono ?_ ?_
      · rintro n data' ⟨rfl, hneed, hover, rfl⟩
        rw [hlen] at hneed hover
        refine ⟨rfl, ?_, fun h => hover h.2, ?_⟩
        · change 8 + t.need v.value ≤ data.length
          omega
        · simp only [List.drop_drop, List.append_assoc, image]
      · rintro f data' ⟨hsame, hfault⟩
        rw [hlen] at hsame hfault
        refine ⟨?_, ?_⟩
        · simp only [List.length_append, leBytes_length, hsame]
          omega
        · rcases hfault with ⟨hf, hover⟩ | ⟨hf, hover, hshort⟩
          · exact .inl ⟨hf, by omega, hover⟩
          · refine .inr ⟨hf, fun h => hover h.2, ?_⟩
            change data.length < 8 + t.need v.value
            omega
  | option t ih =>
    cases v with
    | none => exact ((Prim.unit : Prim E).encode_ends () data).2 (fits_or_not (.option t) none data rfl id)
    | some v => exact ih v data
  | raw =>
    have hsize : RawPod.size v = v.data.length := rfl
    change (RawPod.encode v).Ends data _ _
    unfold RawPod.encode
    rw [ends_bind, ends_get, ends_bind]
    by_cases hroom : data.length < RawPod.size v
    · rw [ends_failIf_of hroom]
      exact ⟨rfl, .inr ⟨rfl, id, hroom⟩⟩
    · rw [ends_failIf_of_not hroom, ends_bind, ends_write_zero (by omega)]
      exact ⟨rfl, Nat.le_of_not_lt hroom, id, rfl⟩

end PodTy

end PipewireNative.Pod
