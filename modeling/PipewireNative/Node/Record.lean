import PipewireNative.Node.Transport

/-!
The accesses of the owner to an activation record, each with what it leaves: reading the version
and the status, taking the record out of scheduling, and moving its status word.
-/

namespace PipewireNative.Node

open Lib Prog World

/-! ### Regions that hold a record -/

/-- An interval that can hold an activation record. -/
def IsRecord (r : MemoryInterval) : Prop := 8 ∣ r.start ∧ r.start + Abi.size ≤ r.stop

/-- The status word of the record in an interval. -/
def statusOf (r : MemoryInterval) : Addr := ⟨r.obj, r.start⟩

def versionOf (r : MemoryInterval) : Addr := ⟨r.obj, r.start + Abi.serverVersion⟩

lemma IsRecord.covers_status {r : MemoryInterval} (h : IsRecord r) : r.Covers (statusOf r) 4 := by
  have := h.2
  simp only [Abi.size] at this
  exact ⟨rfl, Nat.le_refl _, by simp only [statusOf]; omega⟩

lemma IsRecord.covers_version {r : MemoryInterval} (h : IsRecord r) :
    r.Covers (versionOf r) 4 := by
  have := h.2
  simp only [Abi.size] at this
  exact ⟨rfl, by simp [versionOf], by simp only [versionOf, Abi.serverVersion]; omega⟩

lemma TransportGeneration.isRecord (t : TransportGeneration) : IsRecord t.interval := by
  refine ⟨t.aligned, ?_⟩
  have := t.fits
  simp only [interval, MemoryMapping.interval, MemoryMapping.len] at this ⊢
  omega

lemma ActivationView.isRecord (v : ActivationView) : IsRecord v.region.interval := by
  refine ⟨v.offset_dvd, ?_⟩
  have := v.fits
  simp only [MemoryMapping.interval, MemoryMapping.len] at this ⊢
  omega

/-! ### What commands do to the world -/

namespace World

def Reads : Action → Prop
  | .load _ _ _ _ => True
  | _ => False

/-- Nothing that could schedule anything: besides loads and exchanges that fail, the records of
`R` may be taken out of scheduling and told the version of the client. -/
def Calm (R : MemoryInterval → Prop) : Action → Prop
  | .load _ _ _ _ => True
  | .store f l bs => f = .clientVersion ∧ bs.length = 4 ∧
    ∃ r, R r ∧ l = ⟨r.obj, r.start + Abi.clientVersion⟩
  | .exchange _ _ expected _ seen => seen ≠ expected
  | .swap _ l desired _ =>
    desired = ActivationStatus.inactive.code ∧ ∃ r, R r ∧ l = statusOf r
  | _ => False

lemma Reads.calm {R : MemoryInterval → Prop} {a : Action} (h : Reads a) : Calm R a := by
  cases a <;> trivial

lemma Calm.mono {R R' : MemoryInterval → Prop} {a : Action} (h : Calm R a)
    (hR : ∀ r, R r → R' r) : Calm R' a := by
  cases a with
  | store _ l bs => obtain ⟨hf, hl, r, hr, e⟩ := h; exact ⟨hf, hl, r, hR r hr, e⟩
  | swap _ l d s => obtain ⟨hd, r, hr, e⟩ := h; exact ⟨hd, r, hR r hr, e⟩
  | _ => exact h

/-- The record in `r` has been taken out of scheduling, its status word being a status. -/
def Deactivated (r : MemoryInterval) (w w' : World) : Prop :=
  ∃ w₁, Steps Reads w w₁ ∧ w₁.mem.word (statusOf r) 4 ≤ 4 ∧
    w' = w₁.perform (.swap .status (statusOf r) ActivationStatus.inactive.code
      (w₁.mem.word (statusOf r) 4))

/-- An access to the record in `r` has been refused: the version of the server was not the one
supported, or the status word was no status. -/
def Refused (r : MemoryInterval) (w w' : World) : Prop :=
  ∃ w₁, Steps Reads w w₁ ∧
    (w₁.mem.word (versionOf r) 4 ≠ 1 ∨ 4 < w₁.mem.word (statusOf r) 4) ∧
    Steps (Calm (· = r)) w₁ w'

/-- The status word of the record in `r` has been moved from `source` to `target`. -/
def Moved (r : MemoryInterval) (source target : ActivationStatus) (w w' : World) : Prop :=
  ∃ w₁, Steps Reads w w₁ ∧ w₁.mem.word (statusOf r) 4 = source.code ∧
    w' = w₁.perform (.exchange .status (statusOf r) source.code target.code source.code)

section Accesses

variable {r : MemoryInterval} {w w₀ w' : World}

lemma Deactivated.steps (h : Deactivated r w w') : Steps (Calm (· = r)) w w' := by
  obtain ⟨w₁, hs, -, rfl⟩ := h
  exact (hs.mono fun _ => Reads.calm).tail (.own _ _ rfl ⟨rfl, r, rfl, rfl⟩)

lemma Refused.steps (h : Refused r w w') : Steps (Calm (· = r)) w w' := by
  obtain ⟨w₁, hs, -, hs'⟩ := h
  exact (hs.mono fun _ => Reads.calm).trans hs'

lemma Moved.head {a b : ActivationStatus} (h₀ : Steps Reads w w₀) (h : Moved r a b w₀ w') :
    Moved r a b w w' := by
  obtain ⟨w₁, hs, hrest⟩ := h
  exact ⟨w₁, h₀.trans hs, hrest⟩

lemma Deactivated.status (h : Deactivated r w w') :
    w'.mem.word (statusOf r) 4 = ActivationStatus.inactive.code := by
  obtain ⟨w₁, -, -, rfl⟩ := h
  exact Memory.word_setWord_same (ActivationStatus.code_lt _)

lemma Moved.status {a b : ActivationStatus} (h : Moved r a b w w') :
    w'.mem.word (statusOf r) 4 = b.code := by
  obtain ⟨w₁, -, -, rfl⟩ := h
  simp only [perform_mem, effect, if_true]
  exact Memory.word_setWord_same (ActivationStatus.code_lt _)

end Accesses

end World

/-! ### The view -/

namespace ActivationView

variable (v : ActivationView) (w : World)

/-- One load, and then the view exactly when the version is the one supported. -/
theorem fromRawParts_ends (m : MemoryMapping) :
    (fromRawParts m).Ends w
      (fun v w' => v.region = m ∧ Steps Reads w w' ∧ w'.mem.word (versionOf m.interval) 4 = 1)
      (fun _ w' => Steps Reads w w' ∧
        (IsRecord m.interval → w'.mem.word (versionOf m.interval) 4 ≠ 1)) := by
  have hptr := m.ptr_ne
  have hmod := m.ptr_mod
  have hstep : Steps Reads w (w.interfere.perform
      (.load .serverVersion (m.at_ Abi.serverVersion) 4
        (w.interfere.mem.word (m.at_ Abi.serverVersion) 4))) :=
    (steps_interfere _ w).tail (.own _ _ rfl trivial)
  unfold fromRawParts
  rw [if_neg hptr]
  split_ifs with hsize halign
  · simp only [ends_bind, ends_load, ends_failIf, ends_pure]
    exact ⟨fun h => ⟨hstep, fun _ => h⟩, fun h => ⟨trivial, hstep, not_not.mp h⟩⟩
  · refine ⟨.refl, fun hr => absurd ?_ halign⟩
    have := hr.1
    simp only [MemoryMapping.interval, Abi.align] at this ⊢
    omega
  · refine ⟨.refl, fun hr => absurd ?_ hsize⟩
    have := hr.2
    simp only [MemoryMapping.interval, MemoryMapping.len] at this ⊢
    omega

/-- The exchange of a transition: it moves the status word, or leaves it and tells what it is. -/
theorem transition_ends (source target : ActivationStatus) :
    (v.transition source target).Ends w
      (fun _ w' => Moved v.region.interval source target w w')
      (fun e w' => ∃ w₁, Steps Reads w w₁ ∧
        w₁.mem.word (statusOf v.region.interval) 4 ≠ source.code ∧
        w' = w₁.perform (.exchange .status (statusOf v.region.interval) source.code target.code
          (w₁.mem.word (statusOf v.region.interval) 4)) ∧
        ((∃ actual, e = .invalidTransition source actual) ∨
          4 < w₁.mem.word (statusOf v.region.interval) 4)) := by
  unfold transition
  simp only [ends_bind, ends_compareExchange, ends_ite, ends_pure,
    ends_ofExcept, ends_fail]
  refine ⟨fun h => ⟨w.interfere, steps_interfere _ w, h, ?_⟩, fun h => ?_⟩
  · rw [h]; rfl
  · split
    · rename_i actual _
      exact ⟨w.interfere, steps_interfere _ w, h, rfl, Or.inl ⟨actual, rfl⟩⟩
    · rename_i e he
      refine ⟨w.interfere, steps_interfere _ w, h, rfl, Or.inr ?_⟩
      by_contra hle
      obtain ⟨s, hs⟩ := activationStatus_isOk.2 (Nat.not_lt.mp hle)
      exact absurd (he.symm.trans hs) (by simp)

end ActivationView

/-! ### The accesses of a transport generation -/

namespace TransportGeneration

variable (t : TransportGeneration) (w : World)

lemma activationView_ends : t.activationView.Ends w
    (fun v w' => v.region = t.activation ∧ Steps Reads w w') (fun _ w' => Refused t.interval w w') := by
  unfold activationView
  rw [ends_mapErr]
  refine (ActivationView.fromRawParts_ends w t.activation).mono
    (fun v w' h => ⟨h.1, h.2.1⟩) fun e w' h => ?_
  exact ⟨w', h.1, Or.inl (h.2 t.isRecord), .refl⟩

/-- The status read is the status there is. -/
theorem status_ends : t.status.Ends w
    (fun st w' => Steps Reads w w' ∧ w'.mem.word (statusOf t.interval) 4 = st.code)
    (fun _ w' => Refused t.interval w w') := by
  unfold status
  rw [ends_bind]
  refine (t.activationView_ends w).mono (fun v w' h => ?_) fun _ _ h => h
  obtain ⟨hv, hs⟩ := h
  simp only [ends_mapErr, ActivationView.status, ends_bind, ends_load,
    ends_ofExcept]
  have hs' : Steps Reads w w'.interfere := hs.trans (steps_interfere _ w')
  have hat : v.at_ Abi.status = statusOf t.interval := by rw [ActivationView.at_, hv]; rfl
  rw [hat]
  split
  · rename_i st hst
    exact ⟨hs'.tail (.own _ _ rfl trivial), activationStatus_ok.1 hst⟩
  · rename_i e he
    refine ⟨w'.interfere, hs', Or.inr ?_, .single (.own _ _ rfl trivial)⟩
    by_contra hle
    obtain ⟨st, hst⟩ := activationStatus_isOk.2 (Nat.not_lt.mp hle)
    exact absurd (he.symm.trans hst) (by simp)

/-- **Deactivation.** Either the record is out of scheduling, or it was refused. -/
theorem deactivate_ends : t.deactivate.Ends w (fun _ w' => Deactivated t.interval w w')
    (fun _ w' => Refused t.interval w w') := by
  unfold deactivate
  rw [ends_bind]
  refine (t.activationView_ends w).mono (fun v w' h => ?_) fun _ _ h => h
  obtain ⟨hv, hs⟩ := h
  simp only [ends_mapErr, ActivationView.deactivate, ends_bind, ends_swap,
    ends_ofExcept]
  have hs' : Steps Reads w w'.interfere := hs.trans (steps_interfere _ w')
  have hat : v.at_ Abi.status = statusOf t.interval := by rw [ActivationView.at_, hv]; rfl
  rw [hat]
  split
  · rename_i st hst
    exact ⟨w'.interfere, hs', activationStatus_isOk.1 ⟨st, hst⟩, rfl⟩
  · rename_i e he
    refine ⟨w'.interfere, hs', Or.inr ?_, .single (.own _ _ rfl ⟨rfl, _, rfl, rfl⟩)⟩
    by_contra hle
    obtain ⟨st, hst⟩ := activationStatus_isOk.2 (Nat.not_lt.mp hle)
    exact absurd (he.symm.trans hst) (by simp)

/-- Dropping a generation leaves its record out of scheduling, or was refused. -/
theorem drop_ends {ε : Type} : (t.drop : Prog World ε Unit).Ends w
    (fun _ w' => Deactivated t.interval w w' ∨ Refused t.interval w w') (fun _ _ => False) := by
  unfold drop
  simp only [ends_bind, ends_attempt, ends_pure]
  exact (t.deactivate_ends w).mono (fun _ _ h => Or.inl h) fun _ _ h => Or.inr h

theorem markReady_ends : t.markReady.Ends w
    (fun _ w' => Moved t.interval .inactive .finished w w')
    (fun _ w' => Steps (Calm (· = t.interval)) w w') := by
  unfold markReady
  rw [ends_bind]
  refine (t.activationView_ends w).mono (fun v w' h => ?_) fun _ _ h => h.steps
  obtain ⟨hv, hs⟩ := h
  rw [ends_mapErr]
  have hi : v.region.interval = t.interval := by rw [hv]; rfl
  have ht := v.transition_ends w' .inactive .finished
  rw [hi] at ht
  refine ht.mono (fun _ w'' h => h.head hs) fun e w'' h => ?_
  obtain ⟨w₁, hs', hne, rfl, -⟩ := h
  exact (Steps.mono (hs.trans hs') fun _ => Reads.calm).tail (.own _ _ rfl hne)

end TransportGeneration

end PipewireNative.Node
