import PipewireNative.Wire.Payload

/-!
The buffer of the encoder grows until the payload fits.
-/

namespace PipewireNative.Wire

open Lib Prog Pod

/-- The error of a payload that fits no buffer. -/
def payloadTooLong : Fault :=
  invalidInput s!"ClientNode payload exceeds {maxEncodeCapacity} byte limit"

section Loop

variable {build : Build} {capacity : ℕ} {hpos : 0 < capacity}

lemma encodeFrom_of_ok {bytes : List UInt8}
    (h : Builder.run (Builder.pushStruct build) (List.replicate capacity 0) = .ok bytes) :
    encodeFrom build capacity hpos = .ok bytes := by
  unfold encodeFrom
  rw [h]

lemma encodeFrom_of_panic
    (h : Builder.run (Builder.pushStruct build) (List.replicate capacity 0) = .error .panic) :
    encodeFrom build capacity hpos = .error .panic := by
  unfold encodeFrom
  rw [h]
  rfl

lemma encodeFrom_of_noSpace {next : ℕ} (hnext : 0 < next) (hlt : capacity < maxEncodeCapacity)
    (hdouble : min (2 * capacity) maxEncodeCapacity = next)
    (h : Builder.run (Builder.pushStruct build) (List.replicate capacity 0) = .error .noSpace) :
    encodeFrom build capacity hpos = encodeFrom build next hnext := by
  have hsame : min (min (2 * capacity) (usizeBound - 1)) maxEncodeCapacity = next := by
    unfold usizeBound maxEncodeCapacity at *
    omega
  subst hsame
  rw [encodeFrom, h]
  simp only [Fault.noSpace, if_pos hlt]

lemma encodeFrom_of_noSpace_last (hle : maxEncodeCapacity ≤ capacity)
    (h : Builder.run (Builder.pushStruct build) (List.replicate capacity 0) = .error .noSpace) :
    encodeFrom build capacity hpos = .error payloadTooLong := by
  rw [encodeFrom, h]
  simp only [Fault.noSpace, if_neg (Nat.not_lt.2 hle)]
  rfl

lemma run_of_encodeFrom {bytes : List UInt8} (h : encodeFrom build capacity hpos = .ok bytes) :
    ∃ last, capacity ≤ last ∧ last ≤ max capacity maxEncodeCapacity ∧
      Builder.run (Builder.pushStruct build) (List.replicate last 0) = .ok bytes := by
  induction capacity, hpos using encodeFrom.induct build with
  | case1 capacity hpos out hrun =>
    rw [encodeFrom, hrun] at h
    cases h
    exact ⟨capacity, Nat.le_refl _, by omega, hrun⟩
  | case2 capacity hpos hrun hlt ih =>
    rw [encodeFrom, hrun] at h
    simp only [if_pos hlt] at h
    obtain ⟨last, hle, hmax, hlast⟩ := ih h
    unfold usizeBound maxEncodeCapacity at *
    exact ⟨last, by omega, by omega, hlast⟩
  | case3 capacity hpos hrun hlt =>
    rw [encodeFrom, hrun] at h
    simp only [if_neg hlt] at h
    cases h
  | case4 capacity hpos f hne hrun =>
    rw [encodeFrom, hrun] at h
    match f with
    | .error (.invalid message) => cases h
    | .error .noSpace => exact (hne rfl).elim
    | .panic => cases h

end Loop

/-! ### Methods -/

/-- The capacities that are tried. -/
def capacityAt (k : ℕ) : ℕ := initialEncodeCapacity * 2 ^ k

lemma capacityAt_pos (k : ℕ) : 0 < capacityAt k :=
  Nat.mul_pos (by decide) (Nat.pow_pos (by decide))

lemma capacityAt_last : capacityAt 14 = maxEncodeCapacity := by decide

lemma capacityAt_succ (k : ℕ) : capacityAt (k + 1) = 2 * capacityAt k := by
  unfold capacityAt
  rw [Nat.pow_succ, ← Nat.mul_assoc, Nat.mul_comm]

lemma capacityAt_le {j k : ℕ} (h : j ≤ k) : capacityAt j ≤ capacityAt k :=
  Nat.mul_le_mul_left _ (Nat.pow_le_pow_right (by decide) h)

namespace Method

/-- A buffer that is tried ends right before the information. -/
def Cramped (m : Method) : Prop :=
  m.HasInfo ∧ ∃ k ≤ 14, capacityAt k = 8 + m.headBytes.length

lemma headBytes_mod_eight (m : Method) : m.headBytes.length % 8 = 0 := by
  cases m with
  | update value => exact ((pushInt_writes _).bind (pushParams_writes value.params)).1
  | portUpdate value =>
    exact ((pushInt_writes _).bind ((pushInt_writes _).bind ((pushInt_writes _).bind
      (pushParams_writes value.params)))).1
  | setActive value => exact (pushBool_writes value.active).1

lemma tight_capacityAt {m : Method} {k : ℕ} :
    m.Tight (capacityAt k) ↔ m.HasInfo ∧ capacityAt k = 8 + m.headBytes.length := by
  have hhead := m.headBytes_mod_eight
  have hcapacity : capacityAt k % 8 = 0 := by
    unfold capacityAt initialEncodeCapacity
    omega
  unfold Tight
  refine and_congr_right fun _ => ?_
  omega

lemma Tight.lt_length {m : Method} {capacity : ℕ} (h : m.Tight capacity) :
    capacity < m.encoding.length := Nat.lt_of_lt_of_le h.2.2 h.1.lt_length

/-- **The loop from one of its capacities on.** It panics if one of those left is tight. -/
theorem encodeFrom_capacityAt (m : Method) {k : ℕ} (hk : k ≤ 14) :
    (∃ j, k ≤ j ∧ j ≤ 14 ∧ m.Tight (capacityAt j)) ∧
        encodeFrom m.push (capacityAt k) (capacityAt_pos k) = .error .panic ∨
      (¬ ∃ j, k ≤ j ∧ j ≤ 14 ∧ m.Tight (capacityAt j)) ∧
        encodeFrom m.push (capacityAt k) (capacityAt_pos k) =
          if m.encoding.length ≤ maxEncodeCapacity then .ok m.encoding
          else .error payloadTooLong := by
  -- by induction on how many capacities are left
  induction hleft : 14 - k generalizing k with
  | zero =>
    obtain rfl : k = 14 := by omega
    have hrun := m.run_push (List.replicate (capacityAt 14) 0)
    have honly : (∃ j, 14 ≤ j ∧ j ≤ 14 ∧ m.Tight (capacityAt j)) ↔ m.Tight (capacityAt 14) := by
      constructor
      · rintro ⟨j, hj, hj', htight⟩
        obtain rfl : j = 14 := by omega
        exact htight
      · exact fun htight => ⟨14, Nat.le_refl _, Nat.le_refl _, htight⟩
    rw [List.length_replicate] at hrun
    rw [honly]
    split_ifs at hrun with htight hfit
    · exact .inl ⟨htight, encodeFrom_of_panic hrun⟩
    · rw [capacityAt_last] at hfit
      rw [if_pos hfit]
      exact .inr ⟨htight, encodeFrom_of_ok hrun⟩
    · rw [capacityAt_last] at hfit
      rw [if_neg hfit]
      exact .inr ⟨htight, encodeFrom_of_noSpace_last (Nat.le_of_eq capacityAt_last.symm) hrun⟩
  | succ left ih =>
    have hrun := m.run_push (List.replicate (capacityAt k) 0)
    have hk' : k + 1 ≤ 14 := by omega
    have hleft' : 14 - (k + 1) = left := by omega
    have hlast := capacityAt_le hk'
    have hpos := capacityAt_pos k
    rw [capacityAt_last, capacityAt_succ] at hlast
    have hstep : (∃ j, k ≤ j ∧ j ≤ 14 ∧ m.Tight (capacityAt j)) ↔
        m.Tight (capacityAt k) ∨ ∃ j, k + 1 ≤ j ∧ j ≤ 14 ∧ m.Tight (capacityAt j) := by
      constructor
      · rintro ⟨j, hkj, hj, htight⟩
        rcases Nat.eq_or_lt_of_le hkj with rfl | hlt
        · exact .inl htight
        · exact .inr ⟨j, hlt, hj, htight⟩
      · rintro (htight | ⟨j, hkj, hj, htight⟩)
        · exact ⟨k, Nat.le_refl k, hk, htight⟩
        · exact ⟨j, by omega, hj, htight⟩
    rw [List.length_replicate] at hrun
    split_ifs at hrun with htight hfit
    · exact .inl ⟨hstep.2 (.inl htight), encodeFrom_of_panic hrun⟩
    · refine .inr ⟨?_, ?_⟩
      · rintro ⟨j, hkj, -, hj⟩
        have hlt := hj.lt_length
        have hmono := capacityAt_le hkj
        omega
      · rw [if_pos (by omega)]
        exact encodeFrom_of_ok hrun
    · have hnext : encodeFrom m.push (capacityAt k) (capacityAt_pos k) =
          encodeFrom m.push (capacityAt (k + 1)) (capacityAt_pos (k + 1)) := by
        refine encodeFrom_of_noSpace _ (by omega) ?_ hrun
        rw [capacityAt_succ]
        omega
      simp only [hstep, htight, false_or, hnext]
      exact ih hk' hleft'

lemma cramped_iff {m : Method} :
    m.Cramped ↔ ∃ j, 0 ≤ j ∧ j ≤ 14 ∧ m.Tight (capacityAt j) := by
  simp only [tight_capacityAt]
  constructor
  · rintro ⟨hinfo, k, hk, heq⟩
    exact ⟨k, Nat.zero_le k, hk, hinfo, heq⟩
  · rintro ⟨k, -, hk, hinfo, heq⟩
    exact ⟨hinfo, k, hk, heq⟩

/-- The payload of a method. -/
theorem encodePayload_push (m : Method) :
    m.Cramped ∧ encodePayload m.push = .error .panic ∨
      ¬ m.Cramped ∧ encodePayload m.push =
        if m.encoding.length ≤ maxEncodeCapacity then .ok m.encoding
        else .error payloadTooLong := by
  rw [cramped_iff]
  exact m.encodeFrom_capacityAt (Nat.zero_le 14)

lemma eq_encoding_of_encodeFrom {m : Method} {capacity : ℕ} {hpos : 0 < capacity}
    {bytes : List UInt8} (h : encodeFrom m.push capacity hpos = .ok bytes) : bytes = m.encoding := by
  obtain ⟨last, -, -, hrun⟩ := run_of_encodeFrom h
  rw [m.run_push] at hrun
  split_ifs at hrun
  exact (Except.ok.inj hrun).symm

/-- **Encoding a method.** The whole encoding up to 16 MiB, and otherwise an error, is what comes
out exactly when no buffer that is tried ends right before the information; the bytes do not depend
on the capacity that is tried first. -/
theorem encodeMethodWithLimits_eq_iff (m : Method) (limits : Limits)
    (hvalid : validateMethod m limits = .ok ()) :
    (encodeMethodWithLimits m limits = (if m.encoding.length ≤ maxEncodeCapacity then
        .ok m.encoding else .error (.io .invalidInput
          s!"ClientNode payload exceeds {maxEncodeCapacity} byte limit")) ∧
      ∀ c c' (hc : 0 < c) (hc' : 0 < c') bytes bytes', encodeFrom m.push c hc = .ok bytes →
        encodeFrom m.push c' hc' = .ok bytes' → bytes = bytes') ↔ ¬ m.Cramped := by
  have hsame : ∀ c c' (hc : 0 < c) (hc' : 0 < c') bytes bytes',
      encodeFrom m.push c hc = .ok bytes → encodeFrom m.push c' hc' = .ok bytes' →
        bytes = bytes' := by
    intro c c' hc hc' bytes bytes' h h'
    rw [eq_encoding_of_encodeFrom h, eq_encoding_of_encodeFrom h']
  rw [and_iff_left hsame, encodeMethodWithLimits, hvalid, except_ok_bind]
  rcases m.encodePayload_push with ⟨hcramped, hpanic⟩ | ⟨hclear, hok⟩
  · rw [hpanic]
    simp only [hcramped, not_true_eq_false, iff_false]
    split_ifs
    · simp
    · simp
  · rw [hok]
    simp only [hclear, not_false_eq_true, iff_true]
    rfl

end Method

/-- A parameter of so many bytes. -/
def zeroParam (n : ℕ) (hn : n < 2 ^ 32) (hmod : pad8 n = 0) : RawPod :=
  .of n .bytes (List.replicate n 0) [] hn List.length_replicate hmod.symm

/-- An update with one parameter, with which the information begins at the 1024th byte. -/
def crampedUpdate : Method :=
  .update ⟨0, [zeroParam 976 (by decide) (by decide)], some ⟨0, 0, 0, 0, [], []⟩⟩

/-- It is valid, and its encoding panics. -/
theorem encode_crampedUpdate : validateMethod crampedUpdate .standard = .ok () ∧
    crampedUpdate.encoding.length ≤ maxEncodeCapacity ∧
    encodeMethodWithLimits crampedUpdate .standard = .error .panic := by
  have hvalid : validateMethod crampedUpdate .standard = .ok () := by decide +kernel
  have hhead : crampedUpdate.headBytes.length = 1016 := by decide +kernel
  have hcramped : crampedUpdate.Cramped := ⟨rfl, 0, by decide, by rw [hhead]; rfl⟩
  refine ⟨hvalid, by decide +kernel, ?_⟩
  rw [encodeMethodWithLimits, hvalid, except_ok_bind]
  exact crampedUpdate.encodePayload_push.elim (·.2) fun h => absurd hcramped h.1

/-- An update with a parameter and information; more changes are announced than there are kinds of,
but none of parameters. -/
def namedUpdate : Method :=
  .update ⟨3, [zeroParam 16 (by decide) (by decide)],
    some ⟨0, 1, 0xfb, 0, [("node.name", "tone")], [⟨4, 2⟩]⟩⟩

lemma namedUpdate_not_cramped : ¬ namedUpdate.Cramped := by
  rintro ⟨-, k, hk, hcapacity⟩
  have hhead : namedUpdate.headBytes.length = 56 := by decide +kernel
  rw [hhead, capacityAt] at hcapacity
  have hpos : 0 < 2 ^ k := Nat.two_pow_pos k
  unfold initialEncodeCapacity at hcapacity
  omega

theorem encode_namedUpdate :
    encodeMethodWithLimits namedUpdate .standard = .ok namedUpdate.encoding := by
  have h := (namedUpdate.encodeMethodWithLimits_eq_iff .standard (by decide +kernel)).2
    namedUpdate_not_cramped
  rw [h.1, if_pos (by decide +kernel)]

end PipewireNative.Wire
