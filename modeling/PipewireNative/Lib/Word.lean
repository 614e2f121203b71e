import Mathlib.Algebra.Order.BigOperators.Group.List
import Mathlib.Algebra.Order.Ring.Nat
import Mathlib.Tactic.Common
import Mathlib.Data.List.Basic
import Mathlib.Data.Int.Notation
import Mathlib.Data.Nat.Notation

/-!
Machine words as strings of bytes, least significant byte first: writing a number into a fixed
number of bytes, reading it back, and the signed reading of an unsigned word.
-/

namespace PipewireNative.Lib.Word

/-- The `n` bytes of the number `v`, least significant first. -/
def leBytes : ℕ → ℕ → List UInt8
  | 0, _ => []
  | n + 1, v => UInt8.ofNat v :: leBytes n (v / 256)

/-- The number of a string of bytes, least significant first. -/
def leVal : List UInt8 → ℕ
  | [] => 0
  | b :: bs => b.toNat + 256 * leVal bs

@[simp] lemma leBytes_length (n v : ℕ) : (leBytes n v).length = n := by
  induction n generalizing v with
  | zero => rfl
  | succ n ih => simp [leBytes, ih]

/-- **Round trip.** Reading back `n` bytes gives the number modulo `256 ^ n`. -/
theorem leVal_leBytes (n v : ℕ) : leVal (leBytes n v) = v % 256 ^ n := by
  induction n generalizing v with
  | zero => simp [leBytes, leVal, Nat.mod_one]
  | succ n ih =>
    have h : (UInt8.ofNat v).toNat = v % 256 := by simp
    simp only [leBytes, leVal, ih, h]
    rw [Nat.pow_succ, Nat.mul_comm (256 ^ n) 256, Nat.mod_mul]

lemma leVal_leBytes_of_lt {n v : ℕ} (h : v < 256 ^ n) : leVal (leBytes n v) = v := by
  rw [leVal_leBytes, Nat.mod_eq_of_lt h]

lemma leBytes_inj {n a b : ℕ} (ha : a < 256 ^ n) (hb : b < 256 ^ n)
    (h : leBytes n a = leBytes n b) : a = b := by
  rw [← leVal_leBytes_of_lt ha, h, leVal_leBytes_of_lt hb]

lemma leBytes_leVal (bs : List UInt8) : leBytes bs.length (leVal bs) = bs := by
  induction bs with
  | nil => rfl
  | cons b bs ih =>
    have hb : b.toNat < 256 := b.toNat_lt
    have hdiv : (b.toNat + 256 * leVal bs) / 256 = leVal bs := by omega
    have hbyte : UInt8.ofNat (b.toNat + 256 * leVal bs) = b := by
      apply UInt8.toNat_inj.1
      simp only [UInt8.toNat_ofNat']
      omega
    simp only [List.length_cons, leBytes, leVal, hdiv, hbyte, ih]

theorem leVal_lt (bs : List UInt8) : leVal bs < 256 ^ bs.length := by
  induction bs with
  | nil => simp [leVal]
  | cons b bs ih =>
    have hb : b.toNat < 256 := b.toNat_lt
    simp only [leVal, List.length_cons, Nat.pow_succ]
    omega

/-- The number the `n` bytes at a place of a string make. -/
def wordAt (bs : List UInt8) (i n : ℕ) : ℕ := leVal ((bs.drop i).take n)

lemma wordAt_append {pre : List UInt8} {i : ℕ} (h : pre.length = i) (n v : ℕ) (post : List UInt8) :
    wordAt (pre ++ (leBytes n v ++ post)) i n = v % 256 ^ n := by
  unfold wordAt
  rw [List.drop_left' h, List.take_left' (leBytes_length n v), leVal_leBytes]

lemma wordAt_lt (bs : List UInt8) (i n : ℕ) : wordAt bs i n < 256 ^ n := by
  have h := leVal_lt ((bs.drop i).take n)
  exact Nat.lt_of_lt_of_le h (Nat.pow_le_pow_right (by decide) (List.length_take_le _ _))

lemma wordAt_drop (bs : List UInt8) (k i n : ℕ) : wordAt (bs.drop k) i n = wordAt bs (k + i) n := by
  unfold wordAt
  rw [List.drop_drop]

/-- The signed reading of a word of 32 bits. -/
def asI32 (v : ℕ) : ℤ := if v < 2 ^ 31 then v else (v : ℤ) - 2 ^ 32

/-- The word of 32 bits of a signed number. -/
def ofI32 (i : ℤ) : ℕ := (i % 2 ^ 32).toNat

lemma ofI32_lt (i : ℤ) : ofI32 i < 2 ^ 32 := by
  unfold ofI32; omega

lemma asI32_ofI32 {i : ℤ} (h₁ : -2 ^ 31 ≤ i) (h₂ : i < 2 ^ 31) : asI32 (ofI32 i) = i := by
  unfold asI32 ofI32
  split <;> omega

lemma ofI32_asI32 {v : ℕ} (h : v < 2 ^ 32) : ofI32 (asI32 v) = v := by
  unfold asI32 ofI32
  split <;> omega

end PipewireNative.Lib.Word
