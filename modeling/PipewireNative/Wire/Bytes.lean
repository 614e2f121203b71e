import PipewireNative.Pod.Flat
import PipewireNative.Wire.Method

/-!
The bytes of what the messages are made of: written by the pushes, read by the pops.
-/

namespace PipewireNative.Wire

open Lib Lib.Word Prog Pod

/-! ### Values -/

/-- The bytes of a value. -/
abbrev bytesOf (t : PodTy .plain) (v : t.Val) : List UInt8 := t.plainBytes v

def intBytes (value : UInt32) : List UInt8 := bytesOf (.prim .int) value.toInt32

def countBytes (n : ℕ) : List UInt8 := bytesOf (.prim .int) (Int32.ofNat n)

def longBytes (value : UInt64) : List UInt8 := bytesOf (.prim .long) value.toInt64

def idBytes (value : UInt32) : List UInt8 := bytesOf (.prim (.id ())) value

def fdBytes (value : Int32) : List UInt8 := bytesOf (.prim .fd) ⟨value.toInt64⟩

def boolBytes (value : Bool) : List UInt8 := bytesOf (.prim .bool) value

def noneBytes : List UInt8 := bytesOf (.prim .unit) ()

def stringBytes (value : String) : List UInt8 := bytesOf .string value

lemma pushPrim_writes (p : Prim .plain) (v : p.Val) :
    Writes (Builder.pushPrim p v) (bytesOf (.prim p) v) := Writes.pod (t := .prim p) trivial v

lemma pushInt_writes (value : UInt32) : Writes (pushInt value) (intBytes value) :=
  pushPrim_writes .int value.toInt32

lemma pushCount_writes (n : ℕ) : Writes (pushCount n) (countBytes n) := pushPrim_writes .int (Int32.ofNat n)

lemma pushLong_writes (value : UInt64) : Writes (pushLong value) (longBytes value) :=
  pushPrim_writes .long value.toInt64

lemma pushId_writes (value : UInt32) : Writes (pushId value) (idBytes value) := pushPrim_writes (.id ()) value

lemma pushFd_writes (value : Int32) : Writes (pushFd value) (fdBytes value) := pushPrim_writes .fd ⟨value.toInt64⟩

lemma pushBool_writes (value : Bool) : Writes (pushBool value) (boolBytes value) := pushPrim_writes .bool value

lemma pushNone_writes : Writes pushNone noneBytes := pushPrim_writes .unit ()

lemma pushString_writes (value : String) : Writes (pushString value) (stringBytes value) :=
  Writes.pod (E := .plain) (t := .string) trivial value

lemma pushRaw_writes (value : RawPod) : Writes (pushRaw value) value.data :=
  Writes.pod (E := .plain) (t := .raw) trivial value

lemma popPrim_reads (p : Prim .plain) (v : p.Val) :
    Reads (Parser.popPrim p : Parse p.Val) (bytesOf (.prim p) v) v :=
  Reads.plain (t := .prim p) Enums.plain_lawful trivial trivial trivial

lemma popI32_reads (value : Int32) : Reads popI32 (bytesOf (.prim .int) value) value :=
  popPrim_reads .int value

lemma popInt_reads (value : UInt32) : Reads popInt (intBytes value) value := by
  have h := (popI32_reads value.toInt32).map Int32.toUInt32
  rwa [UInt32.toUInt32_toInt32] at h

lemma popLong_reads (value : UInt64) : Reads popLong (longBytes value) value := by
  have h := (popPrim_reads .long value.toInt64).map Int64.toUInt64
  rwa [UInt64.toUInt64_toInt64] at h

lemma popId_reads (value : UInt32) : Reads popId (idBytes value) value :=
  popPrim_reads (.id ()) value

lemma popFd_reads (value : Int32) : Reads popFd (fdBytes value) value.toInt64 :=
  (popPrim_reads .fd ⟨value.toInt64⟩).map Fd.value

lemma popBool_reads (value : Bool) : Reads popBool (boolBytes value) value :=
  popPrim_reads .bool value

lemma popString_reads {value : String} (h : (stringBytes value).length < 2 ^ 32) :
    Reads popString (stringBytes value) value := by
  refine Reads.plain (t := .string) Enums.plain_lawful trivial trivial ?_
  have hlen : (stringBytes value).length = frame ((utf8 value).length + 1) :=
    PodTy.Simple.length_plainBytes (E := .plain) (t := .string) trivial value
  unfold frame at hlen
  change (utf8 value).length + 1 < 2 ^ 32
  omega

lemma popDirection_reads (value : Direction) :
    Reads popDirection (intBytes value.code) value := by
  refine (popI32_reads value.code.toInt32).bind_nil (.ofExcept ?_)
  cases value <;> rfl

lemma countOf_ofNat {n max : ℕ} {name : String} (hmax : n ≤ max) (hn : n ≤ i32Max) :
    countOf (Int32.ofNat n) max name = .ok n := by
  have hlt : n < 2 ^ 31 := by
    unfold i32Max at hn
    omega
  have hint : (Int32.ofNat n).toInt = n := Int32.toInt_ofNat_of_lt hlt
  have hnat : (Int32.ofNat n).toNatClampNeg = n := by
    rw [← Int32.toNat_toInt, hint]
    rfl
  have hneg : ¬ Int32.ofNat n < 0 := by
    rw [Int32.lt_iff_toInt_lt, hint]
    exact Int.not_lt.2 (Int.natCast_nonneg n)
  unfold countOf
  rw [rejectIf_bind hneg]
  simp only [hnat]
  rw [rejectIf_bind (Nat.not_lt.2 hmax)]
  rfl

lemma popCount_reads {n max : ℕ} {name : String} (hmax : n ≤ max) (hn : n ≤ i32Max) :
    Reads (popCount max name) (countBytes n) n :=
  (popI32_reads (Int32.ofNat n)).bind_nil (.ofExcept (countOf_ofNat hmax hn))

lemma ensureCount_eq_ok {value max : ℕ} {name : String} {u : Unit} :
    ensureCount value max name = .ok u ↔ value ≤ max ∧ value ≤ i32Max := by
  unfold ensureCount
  rw [rejectIf_eq_ok]
  omega

/-! ### Lists -/

lemma pushEach_writes {α : Type} {push : α → Build} {bytes : α → List UInt8}
    (h : ∀ v, Writes (push v) (bytes v)) (vs : List α) :
    Writes (pushEach push vs) (vs.flatMap bytes) := by
  induction vs with
  | nil => exact .pure
  | cons v vs ih => exact (h v).bind ih

lemma popEach_reads {α : Type} {pop : Parse α} {bytes : α → List UInt8} {vs : List α}
    (h : ∀ v ∈ vs, Reads pop (bytes v) v) :
    Reads (popEach pop vs.length) (vs.flatMap bytes) vs := by
  induction vs with
  | nil => exact .pure []
  | cons v vs ih =>
    have hrest := ih fun v hv => h v (List.mem_cons_of_mem _ hv)
    exact (h v List.mem_cons_self).bind (hrest.map (v :: ·))

lemma length_le_flatMap {α : Type} (bytes : α → List UInt8) {v : α} {vs : List α} (h : v ∈ vs) :
    (bytes v).length ≤ (vs.flatMap bytes).length := by
  obtain ⟨pre, post, rfl⟩ := List.append_of_mem h
  simp only [List.flatMap_append, List.flatMap_cons, List.length_append]
  omega

/-! ### Payloads -/

/-- A payload: a struct of the bytes. -/
def payloadOf (bytes : List UInt8) : List UInt8 := podOf bytes.length .struct bytes []

lemma length_payloadOf (bytes : List UInt8) : (payloadOf bytes).length = 8 + bytes.length := by
  simp only [payloadOf, podOf, List.append_nil, List.length_append, leBytes_length]
  omega

lemma pad8_eq_zero {n : ℕ} (h : n % 8 = 0) : pad8 n = 0 := by
  unfold pad8
  rw [if_neg (by simpa using h)]

lemma parseAll_reads {α : Type} {parse : Parse α} {bytes : List UInt8} {a : α}
    (h : Reads parse bytes a) : ReadsEnd (parseAll parse) bytes a := by
  have hall := ReadsEnd.bind h (f := fun value => do
    let q ← Parser.here
    .failIf (q.available ≠ 0) (.invalid s!"{q.available} trailing bytes in ClientNode struct")
    pure value) (ReadsEnd.finished _ a)
  rwa [List.append_nil] at hall

/-- A payload is parsed by what reads its bytes. -/
theorem parsePayload_of_reads {α : Type} {parse : Parse α} {bytes : List UInt8} {a : α}
    (h : Reads parse bytes a) (hmod : bytes.length % 8 = 0) (hlen : bytes.length < 2 ^ 32) :
    parsePayload (payloadOf bytes) parse = .ok a := by
  have hpadding : ([] : List UInt8).length = pad8 bytes.length := (pad8_eq_zero hmod).symm
  have hsize : frame bytes.length = (payloadOf bytes).length := by
    rw [length_payloadOf, frame, ← hpadding, List.length_nil, Nat.add_zero]
  have husize : 8 + bytes.length < usizeBound := by
    unfold usizeBound
    omega
  have hread := Reads.popStruct ((parseAll_reads h).all (by omega)) rfl hlen hpadding [] [] ()
    (by
      change 0 + (payloadOf bytes).length < usizeBound
      rw [length_payloadOf]
      omega)
  rw [List.append_nil] at hread
  change Parser.popStruct (parseAll parse) (.new (payloadOf bytes), ()) = _ at hread
  unfold parsePayload
  rw [hread]
  simp only [hsize, ne_eq, not_true_eq_false, if_false]

end PipewireNative.Wire
