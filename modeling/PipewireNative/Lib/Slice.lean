import PipewireNative.Lib.Word
import PipewireNative.Lib.Prog

/-!
Slices of bytes, as programs take and write them: an index out of range is a panic. A read is
known where the string it reads from is split around it, and writes one behind the other build a
string up from its beginning.
-/

namespace PipewireNative.Lib

open Word Prog

/-- Errors with one that stands for a panic. -/
class Panics (ε : Type) where
  panic : ε

variable {ε α : Type} [Panics ε]

/-! ### Reading -/

/-- `&data[i..j]`. -/
def slice (data : List UInt8) (i j : ℕ) : Except ε (List UInt8) :=
  if i ≤ j ∧ j ≤ data.length then .ok ((data.drop i).take (j - i)) else .error Panics.panic

/-- The `u32` at a place. -/
def u32At (data : List UInt8) (i : ℕ) : Except ε UInt32 := do
  let bytes ← slice data i (i + 4)
  pure (.ofNat (leVal bytes))

/-- The `u64` at a place. -/
def u64At (data : List UInt8) (i : ℕ) : Except ε UInt64 := do
  let bytes ← slice data i (i + 8)
  pure (.ofNat (leVal bytes))

section Reading

variable {data pre mid post bytes : List UInt8} {i j n : ℕ}

lemma slice_eq_ok : (slice data i j : Except ε _) = .ok bytes ↔
    i ≤ j ∧ j ≤ data.length ∧ (data.drop i).take (j - i) = bytes := by
  unfold slice
  split_ifs with h
  · simp [h]
  · constructor
    · simp
    · rintro ⟨hij, hj, -⟩
      exact absurd ⟨hij, hj⟩ h

lemma u32At_eq_ok {w : UInt32} : (u32At data i : Except ε _) = .ok w ↔
    i + 4 ≤ data.length ∧ w.toNat = wordAt data i 4 := by
  have hlt : wordAt data i 4 < 2 ^ 32 := wordAt_lt data i 4
  have hw : ∀ v < 2 ^ 32, UInt32.ofNat v = w ↔ w.toNat = v := by
    intro v hv
    rw [← UInt32.toNat_inj, UInt32.toNat_ofNat_of_lt' hv]
    exact eq_comm
  simp only [u32At, except_bind_eq_ok, slice_eq_ok, pure, Except.pure, Except.ok.injEq]
  constructor
  · rintro ⟨bytes, ⟨-, hle, rfl⟩, h⟩
    rw [Nat.add_sub_cancel_left] at h
    exact ⟨hle, (hw _ hlt).1 h⟩
  · rintro ⟨hle, h⟩
    refine ⟨_, ⟨Nat.le_add_right i 4, hle, rfl⟩, ?_⟩
    rw [Nat.add_sub_cancel_left]
    exact (hw _ hlt).2 h

lemma u64At_eq_ok {w : UInt64} : (u64At data i : Except ε _) = .ok w ↔
    i + 8 ≤ data.length ∧ w.toNat = wordAt data i 8 := by
  have hlt : wordAt data i 8 < 2 ^ 64 := wordAt_lt data i 8
  have hw : ∀ v < 2 ^ 64, UInt64.ofNat v = w ↔ w.toNat = v := by
    intro v hv
    rw [← UInt64.toNat_inj, UInt64.toNat_ofNat_of_lt' hv]
    exact eq_comm
  simp only [u64At, except_bind_eq_ok, slice_eq_ok, pure, Except.pure, Except.ok.injEq]
  constructor
  · rintro ⟨bytes, ⟨-, hle, rfl⟩, h⟩
    rw [Nat.add_sub_cancel_left] at h
    exact ⟨hle, (hw _ hlt).1 h⟩
  · rintro ⟨hle, h⟩
    refine ⟨_, ⟨Nat.le_add_right i 8, hle, rfl⟩, ?_⟩
    rw [Nat.add_sub_cancel_left]
    exact (hw _ hlt).2 h

lemma slice_of_le (hij : i ≤ j) (hj : j ≤ data.length) :
    (slice data i j : Except ε _) = .ok ((data.drop i).take (j - i)) :=
  slice_eq_ok.2 ⟨hij, hj, rfl⟩

lemma u32At_of_le (h : i + 4 ≤ data.length) :
    (u32At data i : Except ε _) = .ok (.ofNat (wordAt data i 4)) :=
  u32At_eq_ok.2 ⟨h, UInt32.toNat_ofNat_of_lt' (wordAt_lt data i 4)⟩

lemma u64At_of_le (h : i + 8 ≤ data.length) :
    (u64At data i : Except ε _) = .ok (.ofNat (wordAt data i 8)) :=
  u64At_eq_ok.2 ⟨h, UInt64.toNat_ofNat_of_lt' (wordAt_lt data i 8)⟩

lemma wordAt_take {len : ℕ} (h : i + n ≤ len) : wordAt (data.take len) i n = wordAt data i n := by
  unfold wordAt
  rw [List.drop_take, List.take_take, Nat.min_eq_left (by omega)]

lemma slice_append (hi : pre.length = i) (hj : i + mid.length = j) :
    (slice (pre ++ (mid ++ post)) i j : Except ε _) = .ok mid := by
  refine slice_eq_ok.2 ⟨by omega, ?_, ?_⟩
  · simp only [List.length_append]
    omega
  · rw [List.drop_left' hi, List.take_left' (by omega)]

lemma u32At_append (hi : pre.length = i) (hn : n < 2 ^ 32) :
    (u32At (pre ++ (leBytes 4 n ++ post)) i : Except ε _) = .ok (.ofNat n) := by
  refine u32At_eq_ok.2 ⟨?_, ?_⟩
  · simp only [List.length_append, leBytes_length]
    omega
  · rw [wordAt_append hi, UInt32.toNat_ofNat_of_lt' hn]
    exact (Nat.mod_eq_of_lt hn).symm

lemma u64At_append (hi : pre.length = i) (hn : n < 2 ^ 64) :
    (u64At (pre ++ (leBytes 8 n ++ post)) i : Except ε _) = .ok (.ofNat n) := by
  refine u64At_eq_ok.2 ⟨?_, ?_⟩
  · simp only [List.length_append, leBytes_length]
    omega
  · rw [wordAt_append hi, UInt64.toNat_ofNat_of_lt' hn]
    exact (Nat.mod_eq_of_lt hn).symm

lemma slice_zero (hj : mid.length = j) : (slice (mid ++ post) 0 j : Except ε _) = .ok mid := by
  refine slice_eq_ok.2 ⟨Nat.zero_le j, ?_, ?_⟩
  · rw [List.length_append]
    omega
  · rw [List.drop_zero, Nat.sub_zero, List.take_left' hj]

lemma slice_skip (hpre : pre.length = n) :
    (slice (pre ++ post) (i + n) (j + n) : Except ε _) = slice post i j := by
  have hiff : (i + n ≤ j + n ∧ j + n ≤ (pre ++ post).length) ↔ i ≤ j ∧ j ≤ post.length := by
    rw [List.length_append]
    omega
  have hdrop : (pre ++ post).drop (i + n) = post.drop i := by
    rw [Nat.add_comm, ← List.drop_drop, List.drop_left' hpre]
  unfold slice
  simp only [hiff, hdrop, Nat.add_sub_add_right]

lemma u32At_skip : (u32At (pre ++ post) (pre.length + i) : Except ε _) = u32At post i := by
  unfold u32At
  rw [Nat.add_comm pre.length, Nat.add_right_comm, slice_skip rfl]

lemma slice_word {v : ℕ} :
    (slice (leBytes n v ++ post) (i + n) (j + n) : Except ε _) = slice post i j :=
  slice_skip (leBytes_length n v)

lemma u32At_word_append {v : ℕ} :
    (u32At (leBytes n v ++ post) (i + n) : Except ε _) = u32At post i := by
  unfold u32At
  rw [Nat.add_right_comm, slice_word]

lemma u64At_word_append {v : ℕ} :
    (u64At (leBytes n v ++ post) (i + n) : Except ε _) = u64At post i := by
  unfold u64At
  rw [Nat.add_right_comm, slice_word]

lemma u32At_zero (hn : n < 2 ^ 32) :
    (u32At (leBytes 4 n ++ post) 0 : Except ε _) = .ok (.ofNat n) :=
  u32At_append (List.length_nil (α := UInt8)) hn

lemma u64At_zero (hn : n < 2 ^ 64) :
    (u64At (leBytes 8 n ++ post) 0 : Except ε _) = .ok (.ofNat n) :=
  u64At_append (List.length_nil (α := UInt8)) hn

end Reading

/-! ### Reading without a panic -/

/-- A computation does not panic, and its value is as said. -/
def Calm (r : Except ε α) (Q : α → Prop) : Prop :=
  match r with
  | .ok a => Q a
  | .error e => e ≠ Panics.panic

section Calm

variable {β : Type} {r : Except ε α} {Q Q' : α → Prop}

lemma calm_error {e : ε} : Calm (.error e : Except ε α) Q ↔ e ≠ Panics.panic := Iff.rfl

lemma calm_pure {a : α} : Calm (pure a : Except ε α) Q ↔ Q a := Iff.rfl

lemma Calm.mono (h : Calm r Q) (hQ : ∀ a, Q a → Q' a) : Calm r Q' := by
  cases r with
  | error e => exact h
  | ok a => exact hQ a h

lemma Calm.ok (h : Calm r Q) {a : α} (hr : r = .ok a) : Q a := by
  subst hr
  exact h

lemma Calm.ne_panic (h : Calm r Q) : r ≠ .error Panics.panic := by
  rintro rfl
  exact h rfl

lemma calm_bind {f : α → Except ε β} {Q : β → Prop} :
    Calm (r >>= f) Q ↔ Calm r fun a => Calm (f a) Q := by
  cases r <;> rfl

lemma calm_rejectIf {c : Prop} [Decidable c] {e : ε} {f : Unit → Except ε β} {Q : β → Prop}
    (he : e ≠ Panics.panic) (h : ¬ c → Calm (f ()) Q) : Calm (rejectIf c e >>= f) Q := by
  by_cases hc : c
  · rw [rejectIf_bind_of hc]
    exact he
  · rw [rejectIf_bind hc]
    exact h hc

/-- A computation that does not panic, with its errors shown as others. -/
lemma Calm.mapError {ε' : Type} [Panics ε'] (h : Calm r Q) {f : ε → ε'}
    (hf : ∀ e, f e = Panics.panic → e = Panics.panic) : Calm (r.mapError f) Q := by
  cases r with
  | ok a => exact h
  | error e => exact fun hpanic => h (hf e hpanic)

lemma Calm.ends (h : Calm r Q) {σ : Type} {s : σ} {Q' : α → σ → Prop} {E : ε → σ → Prop}
    (hQ : ∀ a, Q a → Q' a s) (hE : ∀ e, e ≠ Panics.panic → E e s) :
    (ofExcept r : Prog σ ε α).Ends s Q' E := by
  rw [ends_ofExcept]
  cases r with
  | error e => exact hE e h
  | ok a => exact hQ a h

end Calm

/-! ### Writing -/

/-- `data[i..i + bytes.len()].copy_from_slice(bytes)`. -/
def write (i : ℕ) (bytes : List UInt8) : Prog (List UInt8) ε Unit := fun data =>
  if i + bytes.length ≤ data.length then
    (.ok (), data.take i ++ (bytes ++ data.drop (i + bytes.length)))
  else (.error Panics.panic, data)

/-- An operation on `&mut data[i..]`. -/
def within (i : ℕ) (p : Prog (List UInt8) ε α) : Prog (List UInt8) ε α := fun data =>
  if i ≤ data.length then
    let r := p (data.drop i)
    (r.1, data.take i ++ r.2)
  else (.error Panics.panic, data)

section Writing

variable {done rest bytes : List UInt8} {i : ℕ} {p : Prog (List UInt8) ε α}

lemma ends_write {Q : Unit → List UInt8 → Prop} {E : ε → List UInt8 → Prop}
    (hi : done.length = i) (hfit : bytes.length ≤ rest.length) :
    (write i bytes).Ends (done ++ rest) Q E ↔ Q () (done ++ bytes ++ rest.drop bytes.length) := by
  have hlen : i + bytes.length ≤ (done ++ rest).length := by
    rw [List.length_append]
    omega
  have hrun : (write i bytes : Prog (List UInt8) ε Unit) (done ++ rest) =
      (.ok (), done ++ bytes ++ rest.drop bytes.length) := by
    unfold write
    rw [if_pos hlen, List.take_left' hi, ← List.drop_drop, List.drop_left' hi, List.append_assoc]
  rw [ends_of_run hrun, ends_ofExcept]

lemma ends_within {Q : α → List UInt8 → Prop} {E : ε → List UInt8 → Prop} (hi : done.length = i) :
    (within i p).Ends (done ++ rest) Q E ↔
      p.Ends rest (fun a rest' => Q a (done ++ rest')) (fun e rest' => E e (done ++ rest')) := by
  have hlen : i ≤ (done ++ rest).length := by
    rw [List.length_append]
    omega
  have hrun : within i p (done ++ rest) = ((p rest).1, done ++ (p rest).2) := by
    unfold within
    rw [if_pos hlen, List.drop_left' hi, List.take_left' hi]
  rw [ends_of_run hrun, ends_ofExcept]
  unfold Ends
  generalize p rest = r
  obtain ⟨r | r, s⟩ := r <;> rfl

lemma write_ends (i : ℕ) (bytes data : List UInt8) :
    (write i bytes : Prog (List UInt8) ε Unit).Ends data
      (fun _ data' => data'.length = data.length ∧ i + bytes.length ≤ data.length)
      (fun e _ => e = Panics.panic) := by
  unfold Ends write
  split_ifs with h
  · refine ⟨?_, h⟩
    simp only [List.length_append, List.length_take, List.length_drop]
    omega
  · rfl

lemma ends_within_out {data : List UInt8} {Q : α → List UInt8 → Prop} {E : ε → List UInt8 → Prop}
    (h : data.length < i) : (within i p).Ends data Q E ↔ E Panics.panic data := by
  have hrun : within i p data = (.error Panics.panic, data) := if_neg (Nat.not_le_of_lt h)
  rw [ends_of_run hrun, ends_ofExcept]

lemma ends_write_zero {Q : Unit → List UInt8 → Prop} {E : ε → List UInt8 → Prop}
    (hfit : bytes.length ≤ rest.length) :
    (write 0 bytes).Ends rest Q E ↔ Q () (bytes ++ rest.drop bytes.length) :=
  ends_write (List.length_nil (α := UInt8)) hfit

end Writing

end PipewireNative.Lib
