import PipewireNative.Pod.Image

/-!
Decoding reads an image back, whatever follows it: the value is the one that was encoded, and the
size is that of the image.
-/

namespace PipewireNative.Pod

open Lib Lib.Word Prog

variable {E : Enums}

/-! ### Reading where it was written -/

section Reading

variable {n m i j : ℕ} {type : PodType} {body padding rest pre post : List UInt8}

lemma podTotalSize_frame (hn : n < 2 ^ 32) : podTotalSize n = .ok (frame n) := by
  refine podTotalSize_eq_ok.2 ⟨?_, rfl⟩
  have hpad : pad8 n < 8 := by
    unfold pad8
    split_ifs <;> omega
  unfold usizeBound
  omega

lemma podOf_append : podOf n type body padding ++ rest =
    word n ++ (word type.toNat ++ (body ++ (padding ++ rest))) := by
  simp only [podOf, List.append_assoc]

lemma podOf_size (hn : n < 2 ^ 32) :
    (u32At (podOf n type body padding ++ rest) 0 : Read _) = .ok (.ofNat n) := by
  rw [podOf_append]
  exact u32At_zero hn

lemma podOf_type :
    (u32At (podOf n type body padding ++ rest) 4 : Read _) = .ok (.ofNat type.toNat) := by
  rw [podOf_append]
  exact u32At_append (leBytes_length 4 n) type.toNat_lt

lemma podOf_slice : (slice (podOf n type body padding ++ rest) (i + 8) (j + 8) : Read _) =
    slice (body ++ (padding ++ rest)) i j := by
  rw [podOf_append]
  exact (slice_word (i := i + 4) (j := j + 4)).trans slice_word

lemma podOf_u32At : (u32At (podOf n type body padding ++ rest) (i + 8) : Read _) =
    u32At (body ++ (padding ++ rest)) i := by
  unfold u32At
  rw [Nat.add_right_comm, podOf_slice]

lemma podOf_u64At : (u64At (podOf n type body padding ++ rest) (i + 8) : Read _) =
    u64At (body ++ (padding ++ rest)) i := by
  unfold u64At
  rw [Nat.add_right_comm, podOf_slice]

lemma podOf_body (hbody : body.length = m) :
    (slice (podOf n type body padding ++ rest) 8 (8 + m) : Read _) = .ok body := by
  rw [Nat.add_comm 8 m]
  exact (podOf_slice (i := 0)).trans (slice_zero (by omega))

lemma podOf_long_enough (type : PodType) (rest : List UInt8) (hbody : body.length = n)
    (hpadding : padding.length = pad8 n) :
    ¬ (podOf n type body padding ++ rest).length < frame n := by
  rw [List.length_append, podOf_length hbody hpadding]
  omega

lemma eight_le_frame : 8 ≤ frame n := by
  unfold frame
  omega

lemma toNat_ofNat (h : n < 2 ^ 32) : (UInt32.ofNat n).toNat = n := UInt32.toNat_ofNat_of_lt' h

end Reading

/-! ### Primitives -/

lemma u32At_word (w : UInt32) : (u32At (word w.toNat) 0 : Read _) = .ok w := by
  have h : (u32At (word w.toNat ++ []) 0 : Read _) = .ok (.ofNat w.toNat) := u32At_zero w.toNat_lt
  rwa [List.append_nil, UInt32.ofNat_toNat] at h

lemma u64At_long (w : UInt64) : (u64At (long w.toNat) 0 : Read _) = .ok w := by
  have h : (u64At (long w.toNat ++ []) 0 : Read _) = .ok (.ofNat w.toNat) := u64At_zero w.toNat_lt
  rwa [List.append_nil, UInt64.ofNat_toNat] at h

lemma u32At_words (v w : UInt32) : (u32At (word v.toNat ++ word w.toNat) 0 : Read _) = .ok v ∧
    (u32At (word v.toNat ++ word w.toNat) 4 : Read _) = .ok w := by
  constructor
  · rw [u32At_zero v.toNat_lt, UInt32.ofNat_toNat]
  · have h : (u32At (word v.toNat ++ (word w.toNat ++ [])) 4 : Read _) = .ok (.ofNat w.toNat) :=
      u32At_append (leBytes_length 4 v.toNat) w.toNat_lt
    rwa [List.append_nil, UInt32.ofNat_toNat] at h

namespace Prim

variable (p : Prim E)

lemma podSize_lt : p.podSize < 2 ^ 32 := by cases p <;> simp [podSize]

theorem decodeBody_body (hE : E.Lawful) (v : p.Val) : p.decodeBody (p.body v) = .ok v := by
  cases p with
  | unit => rfl
  | bool =>
    cases v with
    | false | true => rfl
  | id n =>
    simp only [body, decodeBody, u32At_word, except_ok_bind, hE n v]
    rfl
  | int =>
    simp only [body, decodeBody, u32At_word, except_ok_bind]
    rfl
  | long =>
    simp only [body, decodeBody, u64At_long, except_ok_bind]
    rfl
  | float =>
    simp only [body, decodeBody, u32At_word, except_ok_bind]
    rfl
  | double | fd =>
    simp only [body, decodeBody, u64At_long, except_ok_bind]
    rfl
  | rectangle | fraction =>
    simp only [body, decodeBody, (u32At_words _ _).1, (u32At_words _ _).2, except_ok_bind]
    rfl

theorem decode_image (hE : E.Lawful) (v : p.Val) (rest : List UInt8) :
    p.decode (p.image v ++ rest) = .ok (v, frame p.podSize) := by
  have hbody := p.body_length v
  have hpadding := zeros_length (pad8 p.podSize)
  have hlong := podOf_long_enough p.podType rest hbody hpadding
  have height := eight_le_frame (n := p.podSize)
  have hsize := toNat_ofNat p.podSize_lt
  unfold decode image
  rw [rejectIf_bind (by omega), podOf_size p.podSize_lt, except_ok_bind, hsize,
    rejectIf_bind (by simp), podOf_type, except_ok_bind, toNat_ofNat p.podType.toNat_lt,
    rejectIf_bind (by simp), podTotalSize_frame p.podSize_lt, except_ok_bind,
    rejectIf_bind hlong, podOf_body hbody, except_ok_bind, p.decodeBody_body hE, except_ok_bind]
  rfl

end Prim

/-! ### Strings, bytes and pointers -/

lemma utf8Lossy_utf8 (s : String) : utf8Lossy (utf8 s) = s := by
  have h : String.fromUTF8? ⟨(utf8 s).toArray⟩ = some s := by
    unfold String.fromUTF8? utf8
    rw [Array.toArray_toList, dif_pos s.isValidUTF8]
    rfl
  unfold utf8Lossy
  rw [h]

theorem decodeString_image {s : String} (hs : (utf8 s).length + 1 < 2 ^ 32) (rest : List UInt8) :
    decodeString (stringImage s ++ rest) = .ok (s, frame ((utf8 s).length + 1)) := by
  have hbody : (utf8 s ++ [0]).length = (utf8 s).length + 1 := by simp
  have hlong := podOf_long_enough .string rest hbody (zeros_length _)
  have height := eight_le_frame (n := (utf8 s).length + 1)
  have hpos : ¬ UInt32.ofNat ((utf8 s).length + 1) = 0 := by
    intro h
    have := congrArg UInt32.toNat h
    rw [toNat_ofNat hs] at this
    simp at this
  unfold decodeString stringImage
  rw [rejectIf_bind (by omega), podOf_size hs, except_ok_bind, rejectIf_bind hpos, toNat_ofNat hs,
    podTotalSize_frame hs, except_ok_bind, rejectIf_bind hlong, podOf_type, except_ok_bind,
    toNat_ofNat PodType.string.toNat_lt, rejectIf_bind (by simp)]
  have hend : 8 + ((utf8 s).length + 1) = (utf8 s).length + 1 + 8 := by omega
  have hnul : 8 + ((utf8 s).length + 1) - 1 = (utf8 s).length + 8 := by omega
  rw [hnul, hend, podOf_slice (i := 0), podOf_slice, List.append_assoc, slice_zero rfl,
    except_ok_bind, slice_append rfl (by simp), except_ok_bind, rejectIf_bind (by simp),
    utf8Lossy_utf8]
  rfl

theorem decodeBytes_image {bs : List UInt8} (hbs : bs.length < 2 ^ 32) (rest : List UInt8) :
    decodeBytes (bytesImage bs ++ rest) = .ok (bs, frame bs.length) := by
  have hlong := podOf_long_enough .bytes rest (rfl : bs.length = _) (zeros_length _)
  have height := eight_le_frame (n := bs.length)
  unfold decodeBytes bytesImage
  rw [rejectIf_bind (by omega), podOf_size hbs, except_ok_bind, toNat_ofNat hbs,
    podTotalSize_frame hbs, except_ok_bind, rejectIf_bind hlong, podOf_type, except_ok_bind,
    toNat_ofNat PodType.bytes.toNat_lt, rejectIf_bind (by simp), podOf_body rfl, except_ok_bind]
  rfl

theorem decodePointer_image (p : Pointer) (rest : List UInt8) :
    decodePointer (pointerImage p ++ rest) = .ok (p, 24) := by
  have hlong : ¬ (pointerImage p ++ rest).length < 24 := by
    simp [pointerImage, podOf]
    omega
  have htype : (u32At (pointerImage p ++ rest) 8 : Read _) = .ok (.ofNat p.type.toNat) := by
    refine (podOf_u32At (i := 0)).trans ?_
    rw [List.append_assoc]
    exact u32At_zero p.type.toNat_lt
  have hptr : (u64At (pointerImage p ++ rest) 16 : Read _) = .ok p.ptr := by
    refine (podOf_u64At (i := 8)).trans ?_
    rw [List.append_assoc, List.append_assoc]
    refine (u64At_word_append (i := 4)).trans ?_
    rw [u64At_append (by simp) p.ptr.toNat_lt, UInt64.ofNat_toNat]
  have hsize : (u32At (pointerImage p ++ rest) 0 : Read _) = .ok (.ofNat 16) := podOf_size (by decide)
  have hkind : (u32At (pointerImage p ++ rest) 4 : Read _) = .ok (.ofNat PodType.pointer.toNat) :=
    podOf_type
  unfold decodePointer
  rw [rejectIf_bind (by omega), hsize, except_ok_bind, toNat_ofNat (by decide),
    podTotalSize_frame (by decide), except_ok_bind, rejectIf_bind, hkind, except_ok_bind,
    rejectIf_bind (by decide), htype, except_ok_bind, toNat_ofNat p.type.toNat_lt,
    PodType.tryFrom_toNat]
  · simp only [hptr, except_ok_bind]
    rfl
  · simp only [ptrSize, Nat.reduceAdd, ne_eq, not_true_eq_false, false_or]
    exact hlong

/-! ### Arrays and choices -/

namespace Prim

variable {p : Prim E} {pre post : List UInt8} {base i : ℕ}

lemma child_bodies (hE : E.Lawful) (hpre : pre.length = base) (done : List p.Val) (v : p.Val)
    (vs : List p.Val) :
    p.child (pre ++ (p.bodies (done ++ v :: vs) ++ post)) base done.length = .ok v := by
  have hsplit : pre ++ (p.bodies (done ++ v :: vs) ++ post) =
      (pre ++ p.bodies done) ++ (p.body v ++ (p.bodies vs ++ post)) := by
    simp only [bodies, List.flatMap_append, List.flatMap_cons, List.append_assoc]
  unfold child
  rw [hsplit, slice_append, except_ok_bind, p.decodeBody_body hE]
  · rw [List.length_append, bodies_length, hpre, Nat.mul_comm]
  · rw [body_length]

lemma children_bodies (hE : E.Lawful) (hpre : pre.length = base) (done vs : List p.Val) :
    p.children (pre ++ (p.bodies (done ++ vs) ++ post)) base done.length vs.length = .ok vs := by
  induction vs generalizing done with
  | nil => rfl
  | cons v vs ih =>
    have hnext := ih (done ++ [v])
    rw [List.append_assoc, List.singleton_append, List.length_append, List.length_singleton] at hnext
    simp only [List.length_cons, children, child_bodies hE hpre, hnext, except_ok_bind]
    rfl

end Prim

section Arrays

variable {p : Prim E}

theorem decodeArray_image (hE : E.Lawful) (hp : p.podSize ≠ 0) {vs : List p.Val}
    (hvs : 8 + p.podSize * vs.length < 2 ^ 32) {old : List UInt8}
    (hold : frame (8 + p.podSize * vs.length) ≤ old.length) (rest : List UInt8) :
    decodeArray p (arrayImage p vs old ++ rest) =
      .ok (vs, frame (8 + p.podSize * vs.length)) := by
  have hbody := arrayBody_length p vs
  have hpadding : ((old.drop (16 + p.podSize * vs.length)).take
      (pad8 (8 + p.podSize * vs.length))).length = pad8 (8 + p.podSize * vs.length) := by
    unfold frame at hold
    exact kept_length (by omega)
  unfold arrayImage
  generalize (old.drop (16 + p.podSize * vs.length)).take (pad8 (8 + p.podSize * vs.length)) = padding
    at hpadding
  have hlong := podOf_long_enough .array rest hbody hpadding
  have hsixteen : 16 ≤ frame (8 + p.podSize * vs.length) := by
    unfold frame
    omega
  have hchild : (u32At (podOf (8 + p.podSize * vs.length) .array
      (word p.podSize ++ (word p.podType.toNat ++ p.bodies vs)) padding ++ rest) 8 : Read _) =
      .ok (.ofNat p.podSize) := by
    refine (podOf_u32At (i := 0)).trans ?_
    rw [List.append_assoc]
    exact u32At_zero p.podSize_lt
  have htype : (u32At (podOf (8 + p.podSize * vs.length) .array
      (word p.podSize ++ (word p.podType.toNat ++ p.bodies vs)) padding ++ rest) 12 : Read _) =
      .ok (.ofNat p.podType.toNat) := by
    refine (podOf_u32At (i := 4)).trans ?_
    rw [List.append_assoc, List.append_assoc]
    exact u32At_append (leBytes_length 4 _) p.podType.toNat_lt
  have helems : (slice (podOf (8 + p.podSize * vs.length) .array
      (word p.podSize ++ (word p.podType.toNat ++ p.bodies vs)) padding ++ rest) 16
      (16 + p.podSize * vs.length) : Read _) = .ok (p.bodies vs) := by
    rw [Nat.add_comm 16]
    refine (podOf_slice (i := 8) (j := p.podSize * vs.length + 8)).trans ?_
    rw [List.append_assoc, List.append_assoc]
    refine (slice_word (i := 4) (j := p.podSize * vs.length + 4)).trans ?_
    refine (slice_word (i := 0)).trans ?_
    exact slice_zero (p.bodies_length vs)
  have hvals : p.children (p.bodies vs) 0 0 vs.length = .ok vs := by
    have h : p.children ([] ++ (p.bodies ([] ++ vs) ++ [])) 0 [].length vs.length = .ok vs :=
      Prim.children_bodies hE rfl [] vs
    rwa [List.append_nil] at h
  have hpos : ¬ (UInt32.ofNat p.podSize = 0 ∨ (UInt32.ofNat p.podSize).toNat ≠ p.podSize) := by
    rw [toNat_ofNat p.podSize_lt, ← UInt32.toNat_inj, toNat_ofNat p.podSize_lt]
    simpa using hp
  unfold decodeArray
  rw [rejectIf_bind (by omega), podOf_size hvs, except_ok_bind, toNat_ofNat hvs,
    rejectIf_bind (by omega), podTotalSize_frame hvs, except_ok_bind, rejectIf_bind hlong,
    podOf_type, except_ok_bind, toNat_ofNat PodType.array.toNat_lt, PodType.tryFrom_toNat,
    rejectIf_bind (by simp), hchild, except_ok_bind, rejectIf_bind hpos, htype, except_ok_bind]
  simp only [toNat_ofNat p.podType.toNat_lt, PodType.tryFrom_toNat, toNat_ofNat p.podSize_lt,
    Nat.add_sub_cancel_left]
  rw [rejectIf_bind (by simp), rejectIf_bind (by simp), helems, except_ok_bind,
    Nat.mul_div_cancel_left _ (Nat.pos_of_ne_zero hp), hvals, except_ok_bind]
  rfl

lemma ofChildren_values {α : Type} (c : Choice α) (child : ℕ → Read α)
    (alternatives : ℕ → Read (List α))
    (hchild : ∀ done v vs, c.values = done ++ v :: vs → child done.length = .ok v)
    (halts : ∀ v vs, c.values = v :: vs → alternatives vs.length = .ok vs) :
    Choice.ofChildren c.kind c.values.length child alternatives = .ok c := by
  cases c with
  | none value =>
    have h0 : child 0 = .ok value := hchild [] value [] rfl
    simp only [Choice.ofChildren, Choice.kind, Choice.values, h0]
    rfl
  | range default min max =>
    have h0 : child 0 = .ok default := hchild [] _ _ rfl
    have h1 : child 1 = .ok min := hchild [default] _ _ rfl
    have h2 : child 2 = .ok max := hchild [default, min] _ _ rfl
    simp only [Choice.ofChildren, Choice.kind, Choice.values, h0, h1, h2]
    rfl
  | step default min max stride =>
    have h0 : child 0 = .ok default := hchild [] _ _ rfl
    have h1 : child 1 = .ok min := hchild [default] _ _ rfl
    have h2 : child 2 = .ok max := hchild [default, min] _ _ rfl
    have h3 : child 3 = .ok stride := hchild [default, min, max] _ _ rfl
    simp only [Choice.ofChildren, Choice.kind, Choice.values, h0, h1, h2, h3]
    rfl
  | enum default alts =>
    have h0 : child 0 = .ok default := hchild [] _ _ rfl
    have hrest : alternatives alts.length = .ok alts := halts default alts rfl
    simp only [Choice.ofChildren, Choice.kind, Choice.values, List.length_cons, Nat.add_sub_cancel, h0,
      hrest]
    rfl
  | flags default set =>
    have h0 : child 0 = .ok default := hchild [] _ _ rfl
    have h1 : child 1 = .ok set := hchild [default] _ _ rfl
    simp only [Choice.ofChildren, Choice.kind, Choice.values, h0, h1]
    rfl

theorem decodeChoice_image (hE : E.Lawful) (hp : p.podSize ≠ 0) {c : Choice p.Val}
    (hc : choiceSize p c < 2 ^ 32) {old : List UInt8}
    (hold : frame (choiceSize p c) ≤ old.length) (rest : List UInt8) :
    decodeChoice p (choiceImage p c old ++ rest) = .ok (c, frame (choiceSize p c)) := by
  have hbody := choiceBody_length p c
  have hpadding : ((old.drop (8 + choiceSize p c)).take (pad8 (choiceSize p c))).length =
      pad8 (choiceSize p c) := kept_length hold
  have hkind : c.kind < 2 ^ 32 := by cases c <;> simp [Choice.kind]
  unfold choiceImage
  generalize (old.drop (8 + choiceSize p c)).take (pad8 (choiceSize p c)) = padding at hpadding
  generalize hdata : podOf (choiceSize p c) .choice (word c.kind ++ (word 0 ++ (word p.podSize ++
    (word p.podType.toNat ++ p.bodies c.values)))) padding ++ rest = data
  have hlong : ¬ data.length < frame (choiceSize p c) := by
    rw [← hdata]
    exact podOf_long_enough .choice rest hbody hpadding
  have hsize : 16 ≤ choiceSize p c ∧ 24 ≤ frame (choiceSize p c) := by
    unfold frame choiceSize
    omega
  -- the words of the header, and where the bodies begin
  have h0 : (u32At data 0 : Read _) = .ok (.ofNat (choiceSize p c)) := by
    rw [← hdata]
    exact podOf_size hc
  have h4 : (u32At data 4 : Read _) = .ok (.ofNat PodType.choice.toNat) := by
    rw [← hdata]
    exact podOf_type
  have hwords : data = word (choiceSize p c) ++ (word PodType.choice.toNat ++ (word c.kind ++
      (word 0 ++ (word p.podSize ++ (word p.podType.toNat ++ (p.bodies c.values ++
        (padding ++ rest))))))) := by
    rw [← hdata]
    simp only [podOf, List.append_assoc]
  have h8 : (u32At data 8 : Read _) = .ok (.ofNat c.kind) := by
    rw [hwords]
    refine (u32At_word_append (i := 4)).trans ?_
    exact u32At_append (leBytes_length 4 _) hkind
  have h16 : (u32At data 16 : Read _) = .ok (.ofNat p.podSize) := by
    rw [hwords]
    refine (u32At_word_append (i := 12)).trans ?_
    refine (u32At_word_append (i := 8)).trans ?_
    refine (u32At_word_append (i := 4)).trans ?_
    exact u32At_append (leBytes_length 4 _) p.podSize_lt
  have h20 : (u32At data 20 : Read _) = .ok (.ofNat p.podType.toNat) := by
    rw [hwords]
    refine (u32At_word_append (i := 16)).trans ?_
    refine (u32At_word_append (i := 12)).trans ?_
    refine (u32At_word_append (i := 8)).trans ?_
    refine (u32At_word_append (i := 4)).trans ?_
    exact u32At_append (leBytes_length 4 _) p.podType.toNat_lt
  have hbodies : data = (word (choiceSize p c) ++ (word PodType.choice.toNat ++ (word c.kind ++
      (word 0 ++ (word p.podSize ++ word p.podType.toNat))))) ++ (p.bodies c.values ++
        (padding ++ rest)) := by
    rw [hwords]
    simp only [List.append_assoc]
  have hpre : (word (choiceSize p c) ++ (word PodType.choice.toNat ++ (word c.kind ++
      (word 0 ++ (word p.podSize ++ word p.podType.toNat))))).length = 24 := by simp
  have hpos : ¬ (UInt32.ofNat p.podSize = 0 ∨ (UInt32.ofNat p.podSize).toNat ≠ p.podSize) := by
    rw [toNat_ofNat p.podSize_lt, ← UInt32.toNat_inj, toNat_ofNat p.podSize_lt]
    simpa using hp
  have hcount : (choiceSize p c - 16) / p.podSize = c.values.length := by
    unfold choiceSize
    rw [Nat.add_sub_cancel_left, Nat.mul_div_cancel_left _ (Nat.pos_of_ne_zero hp)]
  have hmod : (choiceSize p c - 16) % p.podSize = 0 := by
    unfold choiceSize
    rw [Nat.add_sub_cancel_left, Nat.mul_mod_right]
  have hvals : Choice.ofChildren c.kind c.values.length (p.child data 24) (p.children data 24 1) =
      .ok c := by
    refine ofChildren_values c _ _ ?_ ?_
    · intro done v vs hsplit
      rw [hbodies, hsplit]
      exact Prim.child_bodies hE hpre done v vs
    · intro v vs hsplit
      rw [hbodies, hsplit]
      exact Prim.children_bodies hE hpre [v] vs
  unfold decodeChoice
  rw [rejectIf_bind (by omega), h0, except_ok_bind, toNat_ofNat hc, rejectIf_bind (by omega),
    podTotalSize_frame hc, except_ok_bind, rejectIf_bind hlong, h4, except_ok_bind,
    toNat_ofNat PodType.choice.toNat_lt, rejectIf_bind (by simp), h8, except_ok_bind, h16,
    except_ok_bind, rejectIf_bind hpos, h20, except_ok_bind, toNat_ofNat p.podType.toNat_lt,
    rejectIf_bind (by simp), toNat_ofNat p.podSize_lt]
  simp only [toNat_ofNat hkind]
  rw [rejectIf_bind (by simp [hmod]), hcount, hvals, except_ok_bind]
  rfl

end Arrays

/-! ### All of them -/

namespace RawPod

lemma eq_of_data {r r' : RawPod} (ht : r.type = r'.type) (hd : r.data = r'.data) : r = r' := by
  cases r
  cases r'
  cases ht
  cases hd
  rfl

/-- What is wrapped: a header of a type there is, and as many bytes as it says. -/
lemma wrap_eq_ok {data : List UInt8} {r : RawPod} : wrap data = .ok r ↔
    8 ≤ data.length ∧ frame (wordAt data 0 4) ≤ data.length ∧
      PodType.tryFrom (wordAt data 4 4) = some r.type ∧
      r.data = data.take (frame (wordAt data 0 4)) := by
  have hn : wordAt data 0 4 < 2 ^ 32 := wordAt_lt data 0 4
  have ht : wordAt data 4 4 < 2 ^ 32 := wordAt_lt data 4 4
  unfold wrap
  split_ifs with hlen
  · simp only [false_iff]
    omega
  · have hle : 8 ≤ data.length := Nat.le_of_not_lt hlen
    have h0 : (u32At data 0 : Read _) = .ok (.ofNat (wordAt data 0 4)) :=
      u32At_eq_ok.2 ⟨by omega, toNat_ofNat hn⟩
    have h4 : (u32At data 4 : Read _) = .ok (.ofNat (wordAt data 4 4)) :=
      u32At_eq_ok.2 ⟨by omega, toNat_ofNat ht⟩
    split
    · rename_i f hf
      rw [h0] at hf
      cases hf
    rename_i w hw
    rw [h0] at hw
    cases hw
    split
    · rename_i f hf
      rw [toNat_ofNat hn, podTotalSize_frame hn] at hf
      cases hf
    rename_i total htotal
    rw [toNat_ofNat hn, podTotalSize_frame hn] at htotal
    cases htotal
    split_ifs with hroom
    · simp only [false_iff]
      omega
    split
    · rename_i f hf
      rw [h4] at hf
      cases hf
    rename_i w hw
    rw [h4] at hw
    cases hw
    split
    · rename_i htype
      rw [toNat_ofNat ht] at htype
      simp [htype]
    · rename_i type htype
      rw [toNat_ofNat ht] at htype
      simp only [Except.ok.injEq]
      constructor
      · rintro rfl
        exact ⟨hle, Nat.le_of_not_lt hroom, htype, rfl⟩
      · rintro ⟨-, -, hrtype, hrdata⟩
        rw [htype] at hrtype
        exact eq_of_data (Option.some.inj hrtype) hrdata.symm

lemma wrap_data (r : RawPod) (rest : List UInt8) : wrap (r.data ++ rest) = .ok r := by
  have hlen := r.long_enough
  have hword : ∀ i, i + 4 ≤ r.data.length → wordAt (r.data ++ rest) i 4 = wordAt r.data i 4 := by
    intro i hi
    have htake : (r.data ++ rest).take r.data.length = r.data := List.take_left
    rw [← wordAt_take hi, htake]
  have hsize : frame (wordAt (r.data ++ rest) 0 4) = r.data.length := by
    rw [hword 0 (by omega)]
    exact r.sized
  refine wrap_eq_ok.2 ⟨?_, ?_, ?_, ?_⟩
  · rw [List.length_append]
    omega
  · rw [hsize, List.length_append]
    omega
  · rw [hword 4 (by omega)]
    exact r.typed
  · rw [hsize, List.take_left]

lemma decode_data (r : RawPod) (rest : List UInt8) :
    decode (r.data ++ rest) = .ok (r, r.data.length) := by
  unfold decode
  rw [wrap_data, except_ok_bind]
  rfl

end RawPod

namespace PodTy

/-- A pod that stands for nothing is not read as a value. -/
def RefusesNone : PodTy E → Prop
  | .prim p => p.podSize ≠ 0
  | .string | .bytes | .pointer | .array _ | .choice _ => True
  | .property .. | .option _ | .raw => False

instance decidableRefusesNone : (t : PodTy E) → Decidable t.RefusesNone
  | .prim p => inferInstanceAs (Decidable (p.podSize ≠ 0))
  | .string | .bytes | .pointer | .array _ | .choice _ => .isTrue trivial
  | .property .. | .option _ | .raw => .isFalse id

/-- Types whose values are read as they were written: arrays and choices over types that are not
empty, and options over types that are told from nothing. -/
def Readable : PodTy E → Prop
  | .array p | .choice p => p.podSize ≠ 0
  | .property _ t => t.Readable
  | .option t => t.Readable ∧ t.RefusesNone
  | _ => True

/-- The length of a body fits the word it is written into. -/
def Bounded : (t : PodTy E) → t.Val → Prop
  | .string, s => (utf8 s).length + 1 < 2 ^ 32
  | .bytes, (bs : List UInt8) => bs.length < 2 ^ 32
  | .array p, (vs : List p.Val) => 8 + p.podSize * vs.length < 2 ^ 32
  | .choice p, c => choiceSize p c < 2 ^ 32
  | .property _ t, v => t.Bounded v.value
  | .option t, some v => t.Bounded v
  | _, _ => True

/-- No flags of a property but those that have names. -/
def KnownFlags : (t : PodTy E) → t.Val → Prop
  | .property _ t, v => v.flags.Known ∧ t.KnownFlags v.value
  | .option t, some v => t.KnownFlags v
  | _, _ => True

lemma image_length (t : PodTy E) (v : t.Val) (old : List UInt8) (hold : t.size v ≤ old.length) :
    (t.image v old).length = t.size v := by
  induction t generalizing old with
  | prim p => exact podOf_length (p.body_length v) (zeros_length _)
  | string => exact podOf_length (by simp) (zeros_length _)
  | bytes => exact podOf_length rfl (zeros_length _)
  | pointer => exact podOf_length (n := 16) (by simp) rfl
  | array p =>
    refine podOf_length (arrayBody_length p v) ?_
    change frame (8 + p.podSize * List.length v) ≤ _ at hold
    unfold frame at hold
    exact kept_length (by omega)
  | choice p => exact podOf_length (choiceBody_length p v) (kept_length hold)
  | property k t ih =>
    change 8 + t.size v.value ≤ old.length at hold
    have h := ih v.value (old.drop 8) (by rw [List.length_drop]; omega)
    simp only [image, size, List.length_append, leBytes_length, h]
    omega
  | option t ih =>
    cases v with
    | none => exact podOf_length (n := 0) rfl rfl
    | some v => exact ih v old hold
  | raw => rfl

lemma decode_none {t : PodTy E} (ht : t.RefusesNone) (rest : List UInt8) :
    ∃ e, t.decode ((Prim.unit : Prim E).image () ++ rest) = .error (.error e) := by
  have hlong : ¬ (podOf 0 .none [] [] ++ rest).length < frame 0 :=
    podOf_long_enough PodType.none rest rfl rfl
  change ∃ e, t.decode (podOf 0 .none [] [] ++ rest) = _
  have h0 : (u32At (podOf 0 .none [] [] ++ rest) 0 : Read _) = .ok (.ofNat 0) :=
    podOf_size (by decide)
  have h4 : (u32At (podOf 0 .none [] [] ++ rest) 4 : Read _) = .ok (.ofNat PodType.none.toNat) :=
    podOf_type
  generalize podOf 0 .none [] [] ++ rest = data at hlong h0 h4
  change ¬ data.length < 8 at hlong
  have hzero : UInt32.ofNat 0 = 0 := rfl
  have hframe : ¬ data.length < frame (UInt32.ofNat 0).toNat := hlong
  cases t with
  | prim p =>
    have hne : (UInt32.ofNat 0).toNat ≠ p.podSize := fun h => ht h.symm
    simp only [decode, Prim.decode]
    rw [rejectIf_bind hlong, h0, except_ok_bind, rejectIf_bind_of hne]
    exact ⟨_, rfl⟩
  | string =>
    simp only [decode, decodeString]
    rw [rejectIf_bind hlong, h0, except_ok_bind, rejectIf_bind_of hzero]
    exact ⟨_, rfl⟩
  | bytes =>
    simp only [decode, decodeBytes]
    rw [rejectIf_bind hlong, h0, except_ok_bind, podTotalSize_frame (by decide), except_ok_bind,
      rejectIf_bind hframe, h4, except_ok_bind, rejectIf_bind_of (by decide)]
    exact ⟨_, rfl⟩
  | pointer =>
    simp only [decode, decodePointer]
    rw [rejectIf_bind hlong, h0, except_ok_bind, podTotalSize_frame (by decide), except_ok_bind,
      rejectIf_bind_of (.inl (by decide))]
    exact ⟨_, rfl⟩
  | array p =>
    simp only [decode, decodeArray]
    by_cases hshort : data.length < 16
    · rw [rejectIf_bind_of hshort]
      exact ⟨_, rfl⟩
    · rw [rejectIf_bind hshort, h0, except_ok_bind, rejectIf_bind_of (by decide)]
      exact ⟨_, rfl⟩
  | choice p =>
    simp only [decode, decodeChoice]
    by_cases hshort : data.length < 24
    · rw [rejectIf_bind_of hshort]
      exact ⟨_, rfl⟩
    · rw [rejectIf_bind hshort, h0, except_ok_bind, rejectIf_bind_of (by decide)]
      exact ⟨_, rfl⟩
  | _ => exact ht.elim

theorem decode_image (hE : E.Lawful) {t : PodTy E} (ht : t.Readable) {v : t.Val}
    (hv : t.Bounded v) (hk : t.KnownFlags v) {old : List UInt8} (hold : t.size v ≤ old.length)
    (rest : List UInt8) : t.decode (t.image v old ++ rest) = .ok (v, t.size v) := by
  induction t generalizing old with
  | prim p => exact p.decode_image hE v rest
  | string => exact decodeString_image hv rest
  | bytes => exact decodeBytes_image hv rest
  | pointer => exact decodePointer_image v rest
  | array p => exact decodeArray_image hE ht hv hold rest
  | choice p => exact decodeChoice_image hE ht hv hold rest
  | property k t ih =>
    obtain ⟨key, flags, value⟩ := v
    have hroom : t.size value ≤ (old.drop 8).length := by
      change 8 + t.size value ≤ _ at hold
      rw [List.length_drop]
      omega
    have hvalue : t.decode (t.image value (old.drop 8) ++ rest) = .ok (value, t.size value) :=
      ih ht hv hk.2 hroom
    simp only [image, List.append_assoc]
    generalize t.image value (old.drop 8) ++ rest = tail at hvalue ⊢
    have h4 : (u32At (word (E.into key).toNat ++ (word flags.bits.toNat ++ tail)) 4 : Read _) =
        .ok flags.bits := by
      rw [u32At_append (leBytes_length 4 _) flags.bits.toNat_lt, UInt32.ofNat_toNat]
    have htail : (slice (word (E.into key).toNat ++ (word flags.bits.toNat ++ tail)) 8
        (word (E.into key).toNat ++ (word flags.bits.toNat ++ tail)).length : Read _) =
        .ok tail := by
      rw [← List.append_assoc]
      refine slice_eq_ok.2 ⟨?_, Nat.le_refl _, ?_⟩
      · simp only [List.length_append, leBytes_length]
        omega
      · rw [List.drop_left' (by simp), List.length_append]
        simp
    unfold decode
    rw [rejectIf_bind (by simp only [List.length_append, leBytes_length]; omega), u32At_zero (E.into key).toNat_lt,
      UInt32.ofNat_toNat,
      except_ok_bind]
    simp only [hE k key, h4, except_ok_bind, PropertyFlags.fromBits_bits hk.1, htail]
    rw [hvalue]
    rfl
  | option t ih =>
    cases v with
    | none =>
      obtain ⟨e, he⟩ := decode_none ht.2 rest
      have hnone := (Prim.unit : Prim E).decode_image hE () rest
      simp only [decode, image, he, hnone]
      rfl
    | some v =>
      have hsome := ih ht.1 hv hk hold
      simp only [decode, image, hsome]
      rfl
  | raw => exact RawPod.decode_data v rest

end PodTy

end PipewireNative.Pod
