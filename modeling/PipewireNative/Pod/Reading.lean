import PipewireNative.Pod.Layout
import PipewireNative.Pod.Parser

/-!
Reading bytes from where a parser is. `Reads` says that a program reads some bytes as a value,
whatever is before and behind them; programs one behind the other read bytes one behind the other,
and a struct or an object is read by what reads its body.
-/

namespace PipewireNative.Pod

open Lib Lib.Word Prog

variable {E : Enums} {ω α β : Type}

namespace Parser

/-- A parser between what is read and what is not. -/
def between (pre post : List UInt8) : Parser := ⟨pre ++ post, pre.length⟩

lemma left_between (pre post : List UInt8) : (Parser.between pre post).left = .ok post := by
  unfold left Parser.between
  have h : (slice (pre ++ (post ++ [])) pre.length (pre.length + post.length) : Read _) =
      .ok post := slice_append rfl rfl
  rwa [List.append_nil, ← List.length_append] at h

lemma available_between (pre post : List UInt8) : (Parser.between pre post).available = post.length := by
  simp [available, Parser.between]

lemma u32At_between (pre post : List UInt8) (i : ℕ) :
    (u32At (Parser.between pre post).data ((Parser.between pre post).pos + i) : Read _) =
      u32At post i := u32At_skip

lemma u32At_between_zero (pre post : List UInt8) :
    (u32At (Parser.between pre post).data (Parser.between pre post).pos : Read _) =
      u32At post 0 := u32At_between pre post 0

lemma slice_between (pre post : List UInt8) (i j : ℕ) :
    (slice (Parser.between pre post).data ((Parser.between pre post).pos + i)
      ((Parser.between pre post).pos + i + j) : Read _) = slice post i (i + j) := by
  simp only [Parser.between]
  rw [Nat.add_assoc, Nat.add_comm pre.length, Nat.add_comm pre.length]
  exact slice_skip rfl

end Parser

/-- A program reads the bytes, and no others, as a value. -/
def Reads (m : Pop ω α) (bytes : List UInt8) (a : α) : Prop :=
  ∀ pre post w, pre.length + bytes.length < usizeBound →
    m (.between pre (bytes ++ post), w) = (.ok a, (.between (pre ++ bytes) post, w))

/-- A program reads all there is as a value. -/
def ReadsAll (m : Pop ω α) (bytes : List UInt8) (a : α) : Prop :=
  ∀ w, ∃ q, m (.new bytes, w) = (.ok a, (q, w))

/-- A program reads the last bytes as a value. -/
def ReadsEnd (m : Pop ω α) (bytes : List UInt8) (a : α) : Prop :=
  ∀ pre w, pre.length + bytes.length < usizeBound →
    m (.between pre bytes, w) = (.ok a, (.between (pre ++ bytes) [], w))

namespace ReadsEnd

lemma bind {m : Pop ω α} {f : α → Pop ω β} {bytes bytes' : List UInt8} {a : α} {b : β}
    (hm : Reads m bytes a) (hf : ReadsEnd (f a) bytes' b) :
    ReadsEnd (m >>= f) (bytes ++ bytes') b := by
  intro pre w hlen
  rw [List.length_append] at hlen
  rw [bind_ok (hm pre bytes' w (by omega)), hf (pre ++ bytes) w (by rw [List.length_append]; omega),
    List.append_assoc]

lemma finished (f : Parser → Fault) (a : α) : ReadsEnd (do
    let q ← Parser.here
    Prog.failIf (q.available ≠ 0) (f q)
    Pure.pure a : Pop ω α) [] a := by
  intro pre w _
  rw [Parser.here_bind, failIf_bind (by rw [Parser.available_between]; simp), List.append_nil]
  rfl

lemma all {m : Pop ω α} {bytes : List UInt8} {a : α} (hm : ReadsEnd m bytes a)
    (hlen : bytes.length < usizeBound) : ReadsAll m bytes a := by
  intro w
  exact ⟨_, hm [] w (by simpa using hlen)⟩

end ReadsEnd

namespace Reads

lemma pure (a : α) : Reads (Pure.pure a : Pop ω α) [] a := by
  intro pre post w _
  rw [List.nil_append, List.append_nil]
  rfl

lemma bind {m : Pop ω α} {f : α → Pop ω β} {bytes bytes' : List UInt8} {a : α} {b : β}
    (hm : Reads m bytes a) (hf : Reads (f a) bytes' b) : Reads (m >>= f) (bytes ++ bytes') b := by
  intro pre post w hlen
  rw [List.length_append] at hlen
  rw [List.append_assoc, bind_ok (hm pre (bytes' ++ post) w (by omega)),
    hf (pre ++ bytes) post w (by rw [List.length_append]; omega), List.append_assoc]

lemma bind_nil {m : Pop ω α} {f : α → Pop ω β} {bytes : List UInt8} {a : α} {b : β}
    (hm : Reads m bytes a) (hf : Reads (f a) [] b) : Reads (m >>= f) bytes b := by
  have h := hm.bind hf
  rwa [List.append_nil] at h

lemma nil_bind {m : Pop ω α} {f : α → Pop ω β} {bytes : List UInt8} {a : α} {b : β}
    (hm : Reads m [] a) (hf : Reads (f a) bytes b) : Reads (m >>= f) bytes b := hm.bind hf

lemma map {m : Pop ω α} {bytes : List UInt8} {a : α} (hm : Reads m bytes a) (f : α → β) :
    Reads (m >>= fun a => Pure.pure (f a)) bytes (f a) := hm.bind_nil (pure (f a))

lemma ofExcept {r : Read α} {a : α} (h : r = .ok a) : Reads (Prog.ofExcept r : Pop ω α) [] a := by
  subst h
  exact pure a

lemma failIf {c : Prop} [Decidable c] {f : Fault} (h : ¬ c) :
    Reads (Prog.failIf c f : Pop ω Unit) [] () := ofExcept (rejectIf_eq_ok.2 h)

lemma all {m : Pop ω α} {bytes : List UInt8} {a : α} (hm : Reads m bytes a)
    (hlen : bytes.length < usizeBound) : ReadsAll m bytes a := by
  intro w
  have h := hm [] [] w (by simpa using hlen)
  rw [List.append_nil] at h
  exact ⟨_, h⟩

lemma popPod {t : PodTy E} {bytes : List UInt8} {v : t.Val}
    (h : ∀ rest, t.decode (bytes ++ rest) = .ok (v, bytes.length)) :
    Reads (Parser.popPod t : Pop ω t.Val) bytes v := by
  intro pre post w hlen
  have hdata : (Parser.between pre (bytes ++ post)).available = bytes.length + post.length := by
    rw [Parser.available_between, List.length_append]
  unfold Parser.popPod Parser.popWith
  rw [Parser.here_bind, ofExcept_bind (Parser.left_between pre _), ofExcept_bind (h post),
    failIf_bind (by simp only [hdata]; omega),
    failIf_bind (by simp only [Parser.between]; omega), Parser.advance_bind]
  simp only [Parser.between, List.append_assoc, List.length_append]
  rfl

lemma popRawPod (r : RawPod) : Reads (Parser.popRawPod : Pop ω RawPod) r.data r := by
  intro pre post w _
  unfold Parser.popRawPod
  rw [Parser.here_bind, ofExcept_bind (Parser.left_between pre _),
    ofExcept_bind (r.wrap_data post), Parser.advance_bind]
  simp only [Parser.between, List.append_assoc, List.length_append]
  rfl

/-- A closure with a parser of its own leaves the parser it was given by as it was. -/
lemma nested {f : Pop ω α} {body : List UInt8} {a : α} (hf : ReadsAll f body a) (q : Parser)
    (w : ω) : Parser.nested body f (q, w) = (.ok a, (q, w)) := by
  obtain ⟨q', hq'⟩ := hf w
  unfold Parser.nested zoom
  rw [hq']

lemma popStruct {f : Pop ω α} {n : ℕ} {body padding : List UInt8} {a : α}
    (hf : ReadsAll f body a) (hn : body.length = n) (hbody : n < 2 ^ 32)
    (hpadding : padding.length = pad8 n) :
    Reads (Parser.popStruct f) (podOf n .struct body padding) (a, frame n) := by
  subst hn
  intro pre post w _
  have hlong := podOf_long_enough .struct post (rfl : body.length = _) hpadding
  have hlen : (podOf body.length .struct body padding).length = frame body.length :=
    podOf_length rfl hpadding
  have height := eight_le_frame (n := body.length)
  have hsize := (Parser.u32At_between_zero pre (podOf body.length .struct body padding ++ post)).trans
    (podOf_size hbody)
  have htype := (Parser.u32At_between pre (podOf body.length .struct body padding ++ post) 4).trans
    podOf_type
  have hslice := (Parser.slice_between pre (podOf body.length .struct body padding ++ post) 8
    body.length).trans (podOf_body rfl)
  unfold Parser.popStruct
  rw [Parser.here_bind, failIf_bind (by rw [Parser.available_between]; omega), ofExcept_bind hsize,
    toNat_ofNat hbody, ofExcept_bind (podTotalSize_frame hbody),
    failIf_bind (by rw [Parser.available_between]; exact hlong), ofExcept_bind htype,
    failIf_bind (by rw [toNat_ofNat PodType.struct.toNat_lt]; simp), ofExcept_bind hslice,
    bind_ok (nested hf _ w), Parser.advance_bind]
  simp only [Parser.between, List.append_assoc, List.length_append, hlen]
  rfl

lemma objectHeader_object (hE : E.Lawful) (type : ObjectType) {i : E.Name} (id : E.T i) {n : ℕ}
    {body padding : List UInt8} (hn : 8 + n < 2 ^ 32) (hbody : body.length = n)
    (hpadding : padding.length = pad8 (8 + n)) (pre post : List UInt8) :
    Parser.objectHeader i (.between pre (podOf (8 + n) .object
      (word type.toNat ++ (word (E.into id).toNat ++ body)) padding ++ post)) =
        .ok ((8 + n, frame (8 + n)), type, id) := by
  have hbody' : (word type.toNat ++ (word (E.into id).toNat ++ body)).length = 8 + n := by
    simp only [List.length_append, leBytes_length]
    omega
  have hlong := podOf_long_enough .object post hbody' hpadding
  have hsixteen : 16 ≤ frame (8 + n) := by
    unfold frame
    omega
  have h0 : (u32At (podOf (8 + n) .object (word type.toNat ++ (word (E.into id).toNat ++ body))
      padding ++ post) 0 : Read _) = .ok (.ofNat (8 + n)) := podOf_size hn
  have h4 : (u32At (podOf (8 + n) .object (word type.toNat ++ (word (E.into id).toNat ++ body))
      padding ++ post) 4 : Read _) = .ok (.ofNat PodType.object.toNat) := podOf_type
  have h8 : (u32At (podOf (8 + n) .object (word type.toNat ++ (word (E.into id).toNat ++ body))
      padding ++ post) 8 : Read _) = .ok (.ofNat type.toNat) := by
    refine (podOf_u32At (i := 0)).trans ?_
    rw [List.append_assoc]
    exact u32At_zero type.toNat_lt
  have h12 : (u32At (podOf (8 + n) .object (word type.toNat ++ (word (E.into id).toNat ++ body))
      padding ++ post) 12 : Read _) = .ok (E.into id) := by
    refine (podOf_u32At (i := 4)).trans ?_
    rw [List.append_assoc, List.append_assoc, u32At_append (leBytes_length 4 _)
      (E.into id).toNat_lt, UInt32.ofNat_toNat]
  unfold Parser.objectHeader
  rw [rejectIf_bind (by rw [Parser.available_between]; omega), Parser.u32At_between_zero, h0,
    except_ok_bind, toNat_ofNat hn, rejectIf_bind (by omega), podTotalSize_frame hn, except_ok_bind,
    rejectIf_bind (by rw [Parser.available_between]; exact hlong), Parser.u32At_between, h4,
    except_ok_bind, toNat_ofNat PodType.object.toNat_lt, rejectIf_bind (by simp),
    Parser.u32At_between, h8, except_ok_bind, toNat_ofNat type.toNat_lt, ObjectType.tryFrom_toNat]
  simp only [Parser.u32At_between, h12, except_ok_bind, hE i id]
  rfl

lemma objectBody {f : Pop ω α} {q : Parser} {body : List UInt8} {a : α} (hf : ReadsAll f body a)
    {size total : ℕ} (hslice : (slice q.data (q.pos + 16) (q.pos + 16 + size - 8) : Read _) = .ok body)
    (w : ω) : Parser.objectBody size total f (q, w) =
      (.ok (a, total), (⟨q.data, q.pos + 16 + (size - 8 + pad8 size)⟩, w)) := by
  unfold Parser.objectBody
  simp only [Parser.advance_bind, Parser.here_bind]
  rw [ofExcept_bind hslice, bind_ok (nested hf _ w), Parser.advance_bind]
  rfl

lemma popObject (hE : E.Lawful) (type : ObjectType) {i : E.Name} {id : E.T i}
    {f : E.T i → Pop ω α} {n : ℕ} {body padding : List UInt8} {a : α}
    (hf : ReadsAll (f id) body a) (hn : body.length = n) (hbody : 8 + n < 2 ^ 32)
    (hpadding : padding.length = pad8 (8 + n)) :
    Reads (Parser.popObject type i f) (podOf (8 + n) .object
      (word type.toNat ++ (word (E.into id).toNat ++ body)) padding) (a, frame (8 + n)) := by
  subst hn
  intro pre post w _
  have hheader := objectHeader_object hE type id hbody rfl hpadding pre post
  have hlen : (podOf (8 + body.length) .object (word type.toNat ++ (word (E.into id).toNat ++ body))
      padding).length = frame (8 + body.length) := by
    refine podOf_length ?_ hpadding
    simp only [List.length_append, leBytes_length]
    omega
  have hslice : (slice (Parser.between pre (podOf (8 + body.length) .object (word type.toNat ++
      (word (E.into id).toNat ++ body)) padding ++ post)).data (pre.length + 16)
      (pre.length + 16 + (8 + body.length) - 8) : Read _) = .ok body := by
    rw [(by omega : pre.length + 16 + (8 + body.length) - 8 = pre.length + 16 + body.length)]
    refine (Parser.slice_between pre _ 16 body.length).trans ?_
    rw [Nat.add_comm 16]
    refine (podOf_slice (i := 8) (j := body.length + 8)).trans ?_
    rw [List.append_assoc, List.append_assoc]
    refine (slice_word (i := 4) (j := body.length + 4)).trans ?_
    refine (slice_word (i := 0)).trans ?_
    exact slice_zero rfl
  unfold Parser.popObject
  rw [Parser.here_bind, ofExcept_bind hheader, failIf_bind (by simp), objectBody hf hslice]
  have hend : pre.length + 16 + (8 + body.length - 8 + pad8 (8 + body.length)) =
      pre.length + frame (8 + body.length) := by
    unfold frame
    omega
  simp only [Parser.between, List.append_assoc, List.length_append, hlen, hend]

end Reads

end PipewireNative.Pod
