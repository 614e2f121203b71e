import PipewireNative.Pod.Space

/-!
How long encodings are, and what their headers say of it. A value asks for as much room as it says
that it takes unless it is a choice. A header has 32 bits for the length of a body, and nothing is
refused for being longer.
-/

namespace PipewireNative.Pod

open Lib Lib.Word Prog

variable {E : Enums}

namespace PodTy

def bodyLength : (t : PodTy E) → t.Val → ℕ
  | .prim p, _ => p.podSize
  | .string, (s : String) => (utf8 s).length + 1
  | .bytes, (bs : List UInt8) => bs.length
  | .pointer, _ => 8 + ptrSize
  | .array p, (vs : List p.Val) => 8 + p.podSize * vs.length
  | .choice p, c => choiceSize p c
  | .property _ t, v => t.bodyLength v.value
  | .option t, some v => t.bodyLength v
  | .option _, none => 0
  | .raw, (r : RawPod) => wordAt r.data 0 4

/-- Where the pod of a value begins: behind the keys and the flags of properties. -/
def start : (t : PodTy E) → t.Val → ℕ
  | .property _ t, v => 8 + t.start v.value
  | .option t, some v => t.start v
  | _, _ => 0

lemma size_eq (t : PodTy E) (v : t.Val) : t.size v = t.start v + frame (t.bodyLength v) := by
  induction t with
  | property k t ih =>
    change 8 + t.size v.value = 8 + t.start v.value + frame (t.bodyLength v.value)
    rw [ih, Nat.add_assoc]
  | option t ih =>
    cases v with
    | none => rfl
    | some v => exact ih v
  | raw => exact ((Nat.zero_add _).trans (RawPod.sized v)).symm
  | pointer =>
    change 24 = 0 + frame 16
    decide
  | _ => exact (Nat.zero_add _).symm

lemma frame_lt (n : ℕ) : frame n < n + 16 := by
  unfold frame pad8
  split_ifs <;> omega

lemma not_overflow_of_lt {t : PodTy E} {v : t.Val} (h : t.bodyLength v < 2 ^ 32) (room : ℕ) :
    ¬ t.Overflow v room := by
  induction t generalizing room with
  | array p =>
    have hlt := frame_lt (8 + p.podSize * List.length (α := p.Val) v)
    change 8 + p.podSize * List.length (α := p.Val) v < 2 ^ 32 at h
    change ¬ ArrayOverflow p v room
    unfold ArrayOverflow usizeBound
    rw [Nat.mod_eq_of_lt (by omega)]
    omega
  | choice p =>
    have hlt := frame_lt (choiceSize p v)
    change choiceSize p v < 2 ^ 32 at h
    change ¬ usizeBound ≤ 16 + frame (choiceSize p v)
    unfold usizeBound
    omega
  | property k t ih => exact fun hover => ih h (room - 8) hover.2
  | option t ih =>
    cases v with
    | none => exact id
    | some v => exact ih h room
  | _ => exact id

lemma encode_fst {t : PodTy E} {v : t.Val} {data : List UInt8} (h : ¬ t.Overflow v data.length) :
    (t.encode v data).1 = if t.need v ≤ data.length then .ok (t.size v) else .error .noSpace := by
  refine Ends.result (R := fun r _ => r = if t.need v ≤ data.length then .ok (t.size v)
    else .error .noSpace) ((t.encode_ends v data).mono ?_ ?_)
  · rintro n data' ⟨rfl, hneed, -, -⟩
    exact (if_pos hneed).symm
  · rintro f data' ⟨-, ⟨-, hover⟩ | ⟨rfl, -, hneed⟩⟩
    · exact absurd hover h
    · exact (if_neg (Nat.not_le_of_lt hneed)).symm

/-- There is a length from which on encoding gives it, and below which there is no space. -/
def OneLength (t : PodTy E) (v : t.Val) : Prop :=
  ∃ n, ∀ data, (t.encode v data).1 = if n ≤ data.length then .ok n else .error .noSpace

/-- **The length of an encoding.** Values with a body that a header can tell the length of have one
length that they ask for and say that they take, unless they are choices or made of them. -/
theorem oneLength_iff (t : PodTy E) (v : t.Val) (h : t.bodyLength v < 2 ^ 32) :
    t.OneLength v ↔ t.Choiceless v := by
  rw [← need_eq_size_iff]
  constructor
  · rintro ⟨n, hn⟩
    have hrun : ∀ len, (if t.need v ≤ len then .ok (t.size v) else .error .noSpace : Read ℕ) =
        if n ≤ len then .ok n else .error .noSpace := by
      intro len
      have hlen : (List.replicate len (0 : UInt8)).length = len := List.length_replicate
      have hresult := hn (List.replicate len 0)
      rwa [encode_fst (not_overflow_of_lt h _), hlen] at hresult
    have hle := t.size_le_need v
    -- where it is given all that it asks for it says what it takes, which must then be enough
    have hsize : n = t.size v := by
      have hneed := hrun (t.need v)
      rw [if_pos (Nat.le_refl _)] at hneed
      split_ifs at hneed
      exact (Except.ok.inj hneed).symm
    have hsmall := hrun (t.size v)
    rw [if_pos (Nat.le_of_eq hsize)] at hsmall
    split_ifs at hsmall with hroom
    omega
  · intro heq
    refine ⟨t.size v, fun data => ?_⟩
    rw [encode_fst (not_overflow_of_lt h _), heq]

theorem oneLength_flag : (PodTy.prim (.bool : Prim Enums.plain)).OneLength true :=
  (oneLength_iff _ _ (by decide)).2 trivial

/-- A choice of one boolean takes 32 bytes and is refused a buffer of that length. -/
theorem not_oneLength_choice :
    (PodTy.choice (.bool : Prim Enums.plain)).bodyLength (Choice.none true) < 2 ^ 32 ∧
      ¬ (PodTy.choice (.bool : Prim Enums.plain)).OneLength (Choice.none true) := by
  refine ⟨by decide, ?_⟩
  rintro ⟨n, hn⟩
  have hlong := hn (List.replicate 48 0)
  have hshort := hn (List.replicate 32 0)
  have hfits : ((PodTy.choice (.bool : Prim Enums.plain)).encode (Choice.none true)
      (List.replicate 48 0)).1 = .ok 32 := by rfl
  have hrefused : ((PodTy.choice (.bool : Prim Enums.plain)).encode (Choice.none true)
      (List.replicate 32 0)).1 = .error .noSpace := by rfl
  rw [hfits] at hlong
  rw [hrefused] at hshort
  split_ifs at hlong
  cases hlong
  exact absurd hshort (by decide)

/-! ### What headers say -/

lemma wordAt_image (t : PodTy E) (v : t.Val) (old post : List UInt8) :
    wordAt (t.image v old ++ post) (t.start v) 4 = t.bodyLength v % 2 ^ 32 := by
  have hpod : ∀ (n : ℕ) (type : PodType) (body padding : List UInt8),
      wordAt (podOf n type body padding ++ post) 0 4 = n % 2 ^ 32 := by
    intro n type body padding
    rw [podOf, List.append_assoc]
    exact wordAt_append (List.length_nil (α := UInt8)) 4 n _
  induction t generalizing old with
  | prim _ | string | bytes | pointer | array _ | choice _ => exact hpod _ _ _ _
  | property k t ih =>
    change wordAt (word (E.into v.key).toNat ++ (word v.flags.bits.toNat ++
      t.image v.value (old.drop 8)) ++ post) (8 + t.start v.value) 4 = _
    rw [List.append_assoc, List.append_assoc, ← List.append_assoc, ← wordAt_drop,
      List.drop_left' (by simp)]
    exact ih v.value _
  | option t ih =>
    cases v with
    | none => exact hpod _ _ _ _
    | some v => exact ih v old
  | raw =>
    have hlong := RawPod.long_enough v
    change wordAt (RawPod.data v ++ post) 0 4 = wordAt (RawPod.data v) 0 4 % 2 ^ 32
    have hlt : wordAt (RawPod.data v) 0 4 < 2 ^ 32 := wordAt_lt _ 0 4
    rw [Nat.mod_eq_of_lt hlt, wordAt, wordAt, List.drop_zero, List.drop_zero,
      List.take_append_of_le_length (by omega)]

/-- The header says how long the body is that was written, and a value whose body is too long for
that is refused with an error. -/
def Exact (t : PodTy E) (v : t.Val) (data : List UInt8) : Prop :=
  (∀ n out, t.encode v data = (.ok n, out) →
    wordAt out (t.start v) 4 = t.bodyLength v ∧ n = t.start v + frame (t.bodyLength v)) ∧
  (2 ^ 32 ≤ t.bodyLength v → ∃ e out, t.encode v data = (.error (.error e), out))

lemma exact_iff (t : PodTy E) (v : t.Val) (data : List UInt8) :
    t.Exact v data ↔ t.bodyLength v < 2 ^ 32 ∨
      ¬ t.Overflow v data.length ∧ data.length < t.need v := by
  have hends := t.encode_ends v data
  unfold Ends at hends
  unfold Exact
  generalize t.encode v data = r at hends
  obtain ⟨f | n, out⟩ := r
  · obtain ⟨-, ⟨rfl, hover⟩ | ⟨rfl, hover, hneed⟩⟩ := hends
    · constructor
      · rintro ⟨-, hlong⟩
        refine .inl (Nat.lt_of_not_le fun hle => ?_)
        obtain ⟨e, out', h⟩ := hlong hle
        cases h
      · rintro (hlt | ⟨hclear, -⟩)
        · exact absurd hover (not_overflow_of_lt hlt _)
        · exact absurd hover hclear
    · exact iff_of_true ⟨fun n' out' h => (nomatch h), fun _ => ⟨_, _, rfl⟩⟩ (.inr ⟨hover, hneed⟩)
  · obtain ⟨hn, hneed, -, hout⟩ := hends
    have hword : wordAt out (t.start v) 4 = t.bodyLength v % 2 ^ 32 := by
      rw [hout]
      exact t.wordAt_image v data _
    constructor
    · rintro ⟨-, hlong⟩
      refine .inl (Nat.lt_of_not_le fun hle => ?_)
      obtain ⟨e, out', h⟩ := hlong hle
      cases h
    · rintro (hlt | ⟨-, hshort⟩)
      · refine ⟨fun n' out' h => ?_, fun hle => by omega⟩
        cases h
        rw [hword, Nat.mod_eq_of_lt hlt, hn, t.size_eq]
        exact ⟨rfl, rfl⟩
      · omega

/-- The body of a byte string that is one byte too long is said to be empty. -/
lemma encode_overlong {bs data : List UInt8} (hbs : bs.length = 2 ^ 32)
    (hdata : frame (2 ^ 32) ≤ data.length) :
    ∃ n out, (PodTy.bytes : PodTy E).encode bs data = (.ok n, out) ∧ wordAt out 0 4 = 0 := by
  have hends := (PodTy.bytes : PodTy E).encode_ends bs data
  unfold Ends at hends
  generalize (PodTy.bytes : PodTy E).encode bs data = r at hends
  obtain ⟨f | n, out⟩ := r
  · obtain ⟨-, ⟨-, hover⟩ | ⟨-, -, hneed⟩⟩ := hends
    · exact hover.elim
    · change data.length < frame bs.length at hneed
      rw [hbs] at hneed
      exact absurd hneed (Nat.not_lt.2 hdata)
  · obtain ⟨-, -, -, hout⟩ := hends
    refine ⟨n, out, rfl, ?_⟩
    have hword := (PodTy.bytes : PodTy E).wordAt_image bs data (data.drop n)
    rw [← hout] at hword
    refine hword.trans ?_
    change bs.length % 2 ^ 32 = 0
    rw [hbs, Nat.mod_self]

end PodTy

/-! ### Structs and objects -/

/-- What is pushed says how long its body is, which is behind its first two words, and it is
refused with an error where that is too long to be said. -/
def Builder.Exact (m : Build) (body : ℕ) (done rest : List UInt8) : Prop :=
  (∀ b, m (.at done rest) = (.ok (), b) → b.error = none →
    wordAt b.data done.length 4 = body ∧ b.pos = done.length + (8 + body)) ∧
  (2 ^ 32 ≤ body → ∃ b, m (.at done rest) = (.ok (), b) ∧ b.error.isSome = true)

/-- What is laid out with a header whose first word is the size of what is behind its second. -/
lemma Lays.exact_iff {m : Build} {l : Layout} (h : Lays m l) {body : ℕ} (hsize : l.size = 8 + body)
    (himage : ∀ old, ∃ tail, l.image old = word body ++ tail) (done rest : List UInt8) :
    Builder.Exact m body done rest ↔ body < 2 ^ 32 ∨
      ¬ l.Cramped (done.length + rest.length) rest.length ∧ ¬ l.Fits rest.length := by
  have hends := h.inside done rest
  unfold Ends at hends
  unfold Builder.Exact
  generalize m (.at done rest) = r at hends
  obtain ⟨f | u, b⟩ := r
  · obtain ⟨rfl, hcramped⟩ := hends
    constructor
    · rintro ⟨-, hlong⟩
      refine .inl (Nat.lt_of_not_le fun hle => ?_)
      obtain ⟨b', h, -⟩ := hlong hle
      cases h
    · rintro (hlt | ⟨hclear, -⟩)
      · exact ⟨fun b' h => (nomatch h), fun hle => by omega⟩
      · exact absurd hcramped hclear
  · obtain ⟨hclear, ⟨hfit, hb⟩ | ⟨hfit, hfull⟩⟩ := hends
    · have hlen := l.image_length (l.size_le hfit)
      constructor
      · rintro ⟨-, hlong⟩
        refine .inl (Nat.lt_of_not_le fun hle => ?_)
        obtain ⟨b', h, herror⟩ := hlong hle
        cases h
        rw [hb] at herror
        cases herror
      · rintro (hlt | ⟨-, hshort⟩)
        · refine ⟨fun b' h _ => ?_, fun hle => by omega⟩
          cases h
          obtain ⟨tail, htail⟩ := himage rest
          subst hb
          constructor
          · change wordAt (done ++ l.image rest ++ rest.drop l.size) done.length 4 = body
            rw [List.append_assoc, htail, List.append_assoc, wordAt_append rfl]
            exact Nat.mod_eq_of_lt hlt
          · change (done ++ l.image rest).length = _
            rw [List.length_append, hlen, hsize]
        · exact absurd hfit hshort
    · refine iff_of_true ⟨fun b' h herror => ?_, fun _ => ⟨b, rfl, ?_⟩⟩ (.inr ⟨hclear, hfit⟩)
      · cases h
        rw [hfull.1] at herror
        cases herror
      · rw [hfull.1]
        rfl

/-- **Sizes.** Whatever is encoded into whatever buffer, its header says how long its body is and
what is too long for that is refused, exactly when the body is shorter than 4 GiB or there is no
room for it and no length overflows and no header is written beyond the end in finding that out. -/
theorem exact_sizes_iff (E : Enums) :
    (∀ (t : PodTy E) (v : t.Val) (data : List UInt8), t.Exact v data ↔
      t.bodyLength v < 2 ^ 32 ∨ ¬ t.Overflow v data.length ∧ data.length < t.need v) ∧
    (∀ (members : Items E) (done rest : List UInt8),
      Builder.Exact (Builder.pushStruct members.push) members.layout.size done rest ↔
        members.layout.size < 2 ^ 32 ∨
          ¬ members.layout.struct.Cramped (done.length + rest.length) rest.length ∧
            ¬ members.layout.struct.Fits rest.length) ∧
    ∀ (type : ObjectType) (id : UInt32) (k : E.Name) (props : List (Entry E k))
      (done rest : List UInt8),
      Builder.Exact (Builder.pushObject type id (pushEntries props)) (8 + (entriesLayout props).size)
          done rest ↔
        8 + (entriesLayout props).size < 2 ^ 32 ∨
          ¬ ((entriesLayout props).object type id).Cramped (done.length + rest.length) rest.length ∧
            ¬ ((entriesLayout props).object type id).Fits rest.length := by
  refine ⟨PodTy.exact_iff, ?_, ?_⟩
  · intro members done rest
    exact members.push_lays.struct.exact_iff rfl (fun old => ⟨_, List.append_assoc ..⟩) done rest
  · intro type id k props done rest
    refine ((pushEntries_lays props).object type id).exact_iff ?_
      (fun old => ⟨_, List.append_assoc ..⟩) done rest
    change 16 + (entriesLayout props).size = 8 + (8 + (entriesLayout props).size)
    omega

/-- Of a byte string of 4 GiB the header says that it is empty. -/
theorem encode_fourGiB :
    ∃ n out, (PodTy.bytes : PodTy Enums.plain).encode (List.replicate (2 ^ 32) (0 : UInt8))
        (List.replicate (frame (2 ^ 32)) 0) = (.ok n, out) ∧ wordAt out 0 4 = 0 :=
  PodTy.encode_overlong List.length_replicate (Nat.le_of_eq List.length_replicate.symm)

end PipewireNative.Pod
