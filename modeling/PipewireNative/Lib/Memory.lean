import PipewireNative.Lib.Word

/-!
Byte-addressed memories, one address space for each backing object: reading and writing strings
of bytes and words, byte intervals, and when a write leaves a word elsewhere as it was.
-/

namespace PipewireNative.Lib

open Word

/-- The bytes of every object, by object and address. -/
abbrev Memory (ι : Type) := ι → ℕ → UInt8

/-- An address in an object. -/
structure Loc (ι : Type) where
  obj : ι
  addr : ℕ
  deriving DecidableEq, Repr

namespace Memory

variable {ι : Type}

/-- The `n` bytes from an address on. -/
def read (m : Memory ι) (l : Loc ι) (n : ℕ) : List UInt8 :=
  (List.range n).map fun i => m l.obj (l.addr + i)

/-- The number spelled by the `n` bytes from an address on. -/
def word (m : Memory ι) (l : Loc ι) (n : ℕ) : ℕ := leVal (m.read l n)

/-- The memory with a string of bytes stored at an address. -/
def write [DecidableEq ι] (m : Memory ι) (l : Loc ι) (bs : List UInt8) : Memory ι := fun o a =>
  if o = l.obj ∧ l.addr ≤ a ∧ a < l.addr + bs.length then bs.getD (a - l.addr) 0 else m o a

/-- The memory with the number `v` stored in the `n` bytes at an address. -/
def setWord [DecidableEq ι] (m : Memory ι) (l : Loc ι) (n v : ℕ) : Memory ι :=
  m.write l (leBytes n v)

@[simp] lemma read_length (m : Memory ι) (l : Loc ι) (n : ℕ) : (m.read l n).length = n := by
  simp [read]

theorem word_lt (m : Memory ι) (l : Loc ι) (n : ℕ) : m.word l n < 256 ^ n := by
  have := leVal_lt (m.read l n)
  rwa [read_length] at this

lemma word_lt32 (m : Memory ι) (l : Loc ι) : m.word l 4 < 2 ^ 32 := m.word_lt l 4

end Memory

/-! ### Places that do not meet -/

/-- The `n` bytes at `l` and the `n'` bytes at `l'` have no byte in common. -/
def Apart {ι : Type} (l : Loc ι) (n : ℕ) (l' : Loc ι) (n' : ℕ) : Prop :=
  l.obj = l'.obj → l.addr + n ≤ l'.addr ∨ l'.addr + n' ≤ l.addr

section Apart

variable {ι : Type} {l l' : Loc ι} {n n' : ℕ}

instance [DecidableEq ι] : Decidable (Apart l n l' n') := by unfold Apart; infer_instance

lemma Apart.symm (h : Apart l n l' n') : Apart l' n' l n := fun e => (h e.symm).symm

/-- Two words at multiples of eight are the same place or have no byte in common. -/
lemma apart_of_aligned (h : 8 ∣ l.addr) (h' : 8 ∣ l'.addr) (hne : l ≠ l') : Apart l 4 l' 4 := by
  intro ho
  have : l.addr ≠ l'.addr := fun ha => hne (by
    rcases l with ⟨o, a⟩; rcases l' with ⟨o', a'⟩; simp_all)
  omega

/-- A word at an odd multiple of four never meets one at a multiple of eight. -/
lemma apart_of_odd (h : l.addr % 8 = 4) (h' : 8 ∣ l'.addr) : Apart l 4 l' 4 := by
  intro _; omega

end Apart

namespace Memory

variable {ι : Type} [DecidableEq ι] {m : Memory ι} {l l' : Loc ι} {n : ℕ} {bs : List UInt8}

/-- What is stored is read back. -/
theorem read_write_same (h : bs.length = n) : (m.write l bs).read l n = bs := by
  subst h
  refine List.ext_getElem (by simp) fun i h₁ h₂ => ?_
  have hi : i < bs.length := by simpa using h₂
  simp [read, write, hi, List.getD_eq_getElem?_getD]

/-- A store leaves the bytes it does not reach as they were. -/
theorem read_write_apart (h : Apart l bs.length l' n) : (m.write l bs).read l' n = m.read l' n := by
  refine List.map_congr_left fun i hi => ?_
  have hi' := List.mem_range.mp hi
  unfold write
  rw [if_neg]
  rintro ⟨ho, h₁, h₂⟩
  have := h ho.symm
  omega

theorem word_write_apart (h : Apart l bs.length l' n) : (m.write l bs).word l' n = m.word l' n := by
  unfold word; rw [read_write_apart h]

theorem word_setWord_same {v : ℕ} (h : v < 256 ^ n) : (m.setWord l n v).word l n = v := by
  unfold word setWord
  rw [read_write_same (leBytes_length n v), leVal_leBytes_of_lt h]

theorem word_setWord_apart {n' v : ℕ} (h : Apart l n l' n') :
    (m.setWord l n v).word l' n' = m.word l' n' :=
  word_write_apart (by rwa [leBytes_length])

/-- Storing what is there changes nothing. -/
theorem write_read (m : Memory ι) (l : Loc ι) (n : ℕ) : m.write l (m.read l n) = m := by
  funext o a
  unfold write
  split_ifs with h
  · obtain ⟨rfl, hle, hlt⟩ := h
    rw [read_length] at hlt
    have hi : a - l.addr < n := by omega
    have ha : l.addr + (a - l.addr) = a := by omega
    simp [read, List.getD_eq_getElem?_getD, hi, ha]
  · rfl

/-- A word that is stored changes nothing exactly when it is there. -/
theorem setWord_eq_self_iff {v : ℕ} (h : v < 256 ^ n) : m.setWord l n v = m ↔ m.word l n = v := by
  constructor
  · intro heq
    rw [← heq]
    exact word_setWord_same h
  · rintro rfl
    have hbytes := leBytes_leVal (m.read l n)
    rw [read_length] at hbytes
    unfold setWord word
    rw [hbytes, write_read]

end Memory

/-! ### Byte intervals -/

/-- The bytes `[start, stop)` of an object. -/
structure Span (ι : Type) where
  obj : ι
  start : ℕ
  stop : ℕ
  deriving DecidableEq, Repr

namespace Span

variable {ι : Type}

/-- Whether two intervals have a byte in common, when neither is empty. -/
def overlaps [DecidableEq ι] (s t : Span ι) : Bool :=
  decide (s.obj = t.obj) && decide (s.start < t.stop) && decide (t.start < s.stop)

/-- The two intervals, when of one object, are disjoint byte ranges. -/
def Disjoint (s t : Span ι) : Prop :=
  s.obj = t.obj → s.stop ≤ t.start ∨ t.stop ≤ s.start

/-- The `n` bytes at `l` lie in the interval. -/
def Covers (s : Span ι) (l : Loc ι) (n : ℕ) : Prop :=
  s.obj = l.obj ∧ s.start ≤ l.addr ∧ l.addr + n ≤ s.stop

lemma Disjoint.symm {s t : Span ι} (h : s.Disjoint t) : t.Disjoint s := fun e => (h e.symm).symm

lemma overlaps_eq_false [DecidableEq ι] {s t : Span ι} : s.overlaps t = false ↔ s.Disjoint t := by
  unfold overlaps Disjoint
  by_cases ho : s.obj = t.obj
  · simp only [ho, decide_true, Bool.true_and, forall_const, Bool.and_eq_false_iff,
      decide_eq_false_iff_not, Nat.not_lt]
    exact or_comm
  · simp [ho]

instance [DecidableEq ι] (s t : Span ι) : Decidable (s.Disjoint t) :=
  decidable_of_iff (s.overlaps t = false) overlaps_eq_false

lemma Disjoint.apart {s t : Span ι} (h : s.Disjoint t) {l l' : Loc ι} {n n' : ℕ}
    (hl : s.Covers l n) (hl' : t.Covers l' n') : Apart l n l' n' := by
  obtain ⟨ho, h₁, h₂⟩ := hl
  obtain ⟨ho', h₁', h₂'⟩ := hl'
  intro he
  rcases h (by rw [ho, ho', he]) with h | h
  · exact Or.inl (by omega)
  · exact Or.inr (by omega)

lemma Disjoint.of_covers {s t : Span ι} (h : s.Disjoint t) {l : Loc ι} {n : ℕ}
    (hl : t.Covers l n) : s.Disjoint ⟨l.obj, l.addr, l.addr + n⟩ := by
  obtain ⟨ho, h₁, h₂⟩ := hl
  intro he
  rcases h (he.trans ho.symm) with h | h
  · exact Or.inl (by simp only; omega)
  · exact Or.inr (by simp only; omega)

end Span

/-! ### Memories that agree on an interval -/

namespace Memory

variable {ι : Type} {r t : Span ι} {m m' m'' : Memory ι}

/-- The two memories have the same bytes in the interval. -/
def Agree (r : Span ι) (m m' : Memory ι) : Prop :=
  ∀ a, r.start ≤ a → a < r.stop → m r.obj a = m' r.obj a

lemma Agree.refl (r : Span ι) (m : Memory ι) : Agree r m m := fun _ _ _ => rfl

lemma Agree.trans (h : Agree r m m') (h' : Agree r m' m'') : Agree r m m'' :=
  fun a h₁ h₂ => (h a h₁ h₂).trans (h' a h₁ h₂)

lemma Agree.read (h : Agree r m m') {l : Loc ι} {n : ℕ} (hl : r.Covers l n) :
    m.read l n = m'.read l n := by
  obtain ⟨ho, h₁, h₂⟩ := hl
  refine List.map_congr_left fun i hi => ?_
  have hi' := List.mem_range.mp hi
  rw [← ho]
  exact h _ (by omega) (by omega)

lemma Agree.word (h : Agree r m m') {l : Loc ι} {n : ℕ} (hl : r.Covers l n) :
    m.word l n = m'.word l n := by
  unfold Memory.word; rw [h.read hl]

lemma Agree.of_covers (h : Agree r m m') {l : Loc ι} {n : ℕ} (hl : r.Covers l n) :
    Agree ⟨l.obj, l.addr, l.addr + n⟩ m m' := by
  obtain ⟨ho, h₁, h₂⟩ := hl
  intro a ha₁ ha₂
  simp only at ha₁ ha₂ ⊢
  rw [← ho]
  exact h a (by omega) (by omega)

variable [DecidableEq ι] {l : Loc ι} {bs : List UInt8}

lemma Agree.write (h : Agree r m m') : Agree r (m.write l bs) (m'.write l bs) := by
  intro a h₁ h₂
  unfold Memory.write
  rw [h a h₁ h₂]

lemma Agree.write_beside (h : Agree r m m')
    (hd : r.Disjoint ⟨l.obj, l.addr, l.addr + bs.length⟩) : Agree r (m.write l bs) m' := by
  intro a h₁ h₂
  unfold Memory.write
  rw [if_neg]
  · exact h a h₁ h₂
  · rintro ⟨ho, h₃, h₄⟩
    rcases hd ho with hd | hd
    · simp only at hd; omega
    · simp only at hd; omega

end Memory

end PipewireNative.Lib
