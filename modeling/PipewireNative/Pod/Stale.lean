import PipewireNative.Pod.Space

/-!
What was in a buffer before. Two buffers of one length give the same bytes unless there is an array
or a choice that needs padding, which nobody writes.
-/

namespace PipewireNative.Pod

open Lib Lib.Word Prog

variable {E : Enums}

/-! ### Bytes that do not depend on the buffer -/

/-- Two buffers of so many bytes make the same. -/
def Alike (f : List UInt8 → List UInt8) (room : ℕ) : Prop :=
  ∀ old old' : List UInt8, old.length = room → old'.length = room → f old = f old'

section Alike

variable {f g : List UInt8 → List UInt8} {room : ℕ}

lemma alike_const (bytes : List UInt8) (room : ℕ) : Alike (fun _ => bytes) room :=
  fun _ _ _ _ => rfl

lemma alike_kept {k m : ℕ} (h : k + m ≤ room) :
    Alike (fun old => (old.drop k).take m) room ↔ m = 0 := by
  constructor
  · intro halike
    have hsame := halike (List.replicate room 0) (List.replicate room 1) List.length_replicate
      List.length_replicate
    simp only [List.drop_replicate, List.take_replicate, List.replicate_inj] at hsame
    have hmin : min m (room - k) = m := Nat.min_eq_left (by omega)
    rw [hmin] at hsame
    exact hsame.2.resolve_right (by decide)
  · rintro rfl
    intro old old' _ _
    simp

lemma alike_append_left (bytes : List UInt8) : Alike (fun old => bytes ++ f old) room ↔ Alike f room := by
  unfold Alike
  simp only [List.append_cancel_left_eq]

lemma alike_drop {n : ℕ} (h : n ≤ room) : Alike (fun old => f (old.drop n)) room ↔ Alike f (room - n) := by
  constructor
  · intro halike old old' hold hold'
    have hfill : (List.replicate n (0 : UInt8)).length = n := List.length_replicate
    have hsame := halike (List.replicate n 0 ++ old) (List.replicate n 0 ++ old')
      (by rw [List.length_append]; omega) (by rw [List.length_append]; omega)
    simpa only [List.drop_left' hfill] using hsame
  · intro halike old old' hold hold'
    exact halike _ _ (by rw [List.length_drop, hold]) (by rw [List.length_drop, hold'])

lemma alike_append {n : ℕ} (h : ∀ old : List UInt8, old.length = room → (f old).length = n) :
    Alike (fun old => f old ++ g old) room ↔ Alike f room ∧ Alike g room := by
  constructor
  · intro halike
    have hparts : ∀ old old' : List UInt8, old.length = room → old'.length = room →
        f old = f old' ∧ g old = g old' := fun old old' hold hold' =>
      List.append_inj (halike old old' hold hold') ((h old hold).trans (h old' hold').symm)
    exact ⟨fun old old' hold hold' => (hparts old old' hold hold').1,
      fun old old' hold hold' => (hparts old old' hold hold').2⟩
  · rintro ⟨hf, hg⟩ old old' hold hold'
    exact congrArg₂ (· ++ ·) (hf old old' hold hold') (hg old old' hold hold')

end Alike

lemma alike_podOf {n k m room : ℕ} {type : PodType} {body : List UInt8} (h : k + m ≤ room) :
    Alike (fun old => podOf n type body ((old.drop k).take m)) room ↔ m = 0 := by
  unfold podOf
  rw [alike_append_left, alike_append_left, alike_append_left, alike_kept h]

namespace PodTy

/-- A value whose arrays and choices need no padding. -/
def Unpadded : (t : PodTy E) → t.Val → Prop
  | .array p, (vs : List p.Val) => pad8 (8 + p.podSize * vs.length) = 0
  | .choice p, c => pad8 (choiceSize p c) = 0
  | .property _ t, v => t.Unpadded v.value
  | .option t, some v => t.Unpadded v
  | _, _ => True

lemma alike_image_iff (t : PodTy E) (v : t.Val) {room : ℕ} (h : t.size v ≤ room) :
    Alike (t.image v) room ↔ t.Unpadded v := by
  induction t generalizing room with
  | array p =>
    refine alike_podOf ?_
    change frame (8 + p.podSize * List.length (α := p.Val) v) ≤ room at h
    unfold frame at h
    omega
  | choice p =>
    refine alike_podOf ?_
    change frame (choiceSize p v) ≤ room at h
    unfold frame at h
    omega
  | property k t ih =>
    change 8 + t.size v.value ≤ room at h
    change Alike (fun old => word (E.into v.key).toNat ++ (word v.flags.bits.toNat ++
      t.image v.value (old.drop 8))) room ↔ t.Unpadded v.value
    rw [alike_append_left, alike_append_left, alike_drop (by omega)]
    exact ih v.value (by omega)
  | option t ih =>
    cases v with
    | none => exact iff_of_true (alike_const _ _) trivial
    | some v => exact ih v h
  | _ => exact iff_of_true (alike_const _ _) trivial

end PodTy

namespace Items

/-- No array and no choice that is pushed needs padding. -/
def Unpadded : Items E → Prop
  | done => True
  | pod t v next => t.Unpadded v ∧ next.Unpadded
  | struct members next => members.Unpadded ∧ next.Unpadded
  | object _ _ _ k props next =>
    (∀ e ∈ props, (PodTy.property k e.1).Unpadded e.2) ∧ next.Unpadded

end Items

namespace Layout

variable {l m : Layout} {room : ℕ}

lemma alike_append (h : l.size ≤ room) : Alike (l.append m).image room ↔
    Alike l.image room ∧ Alike m.image (room - l.size) := by
  change Alike (fun old => l.image old ++ m.image (old.drop l.size)) room ↔ _
  rw [Pod.alike_append fun old hold => l.image_length (by rw [hold]; exact h), alike_drop h]

lemma alike_headed {n : ℕ} {header : ℕ → List UInt8} {hheader : ∀ size, (header size).length = n}
    (h : n ≤ room) : Alike (headed n header hheader l).image room ↔ Alike l.image (room - n) := by
  change Alike (fun old => header l.size ++ l.image (old.drop n)) room ↔ _
  rw [alike_append_left, alike_drop h]

end Layout

namespace Items

lemma alike_entries_iff {k : E.Name} (props : List (Entry E k)) {room : ℕ}
    (h : (entriesLayout props).size ≤ room) : Alike (entriesLayout props).image room ↔
      ∀ e ∈ props, (PodTy.property k e.1).Unpadded e.2 := by
  induction props generalizing room with
  | nil => exact iff_of_true (alike_const _ _) (by simp)
  | cons e props ih =>
    change (PodTy.property k e.1).size e.2 + (entriesLayout props).size ≤ room at h
    have hnext : (entriesLayout props).size ≤ room - (Layout.pod (.property k e.1) e.2).size :=
      Nat.le_sub_of_add_le' h
    change Alike ((Layout.pod (.property k e.1) e.2).append (entriesLayout props)).image room ↔ _
    rw [Layout.alike_append (Nat.le_trans (Nat.le_add_right _ _) h), ih hnext, List.forall_mem_cons]
    exact and_congr (PodTy.alike_image_iff _ _ (Nat.le_trans (Nat.le_add_right _ _) h)) Iff.rfl

lemma alike_layout_iff (items : Items E) {room : ℕ} (h : items.layout.size ≤ room) :
    Alike items.layout.image room ↔ items.Unpadded := by
  induction items generalizing room with
  | done => exact iff_of_true (alike_const _ _) trivial
  | pod t v next ih =>
    change t.size v + next.layout.size ≤ room at h
    have hnext : next.layout.size ≤ room - (Layout.pod t v).size := Nat.le_sub_of_add_le' h
    change Alike ((Layout.pod t v).append next.layout).image room ↔ _
    rw [Layout.alike_append (Nat.le_trans (Nat.le_add_right _ _) h), ih hnext]
    exact and_congr (t.alike_image_iff v (Nat.le_trans (Nat.le_add_right _ _) h)) Iff.rfl
  | struct members next ihm ihn =>
    change 8 + members.layout.size + next.layout.size ≤ room at h
    have hnext : next.layout.size ≤ room - members.layout.struct.size := Nat.le_sub_of_add_le' h
    change Alike (members.layout.struct.append next.layout).image room ↔ _
    rw [Layout.alike_append (Nat.le_trans (Nat.le_add_right _ _) h), ihn hnext,
      Layout.struct, Layout.alike_headed (by omega), ihm (by omega)]
    exact Iff.rfl
  | object type i id k props next ih =>
    change 16 + (entriesLayout props).size + next.layout.size ≤ room at h
    have hnext : next.layout.size ≤ room - ((entriesLayout props).object type (E.into id)).size :=
      Nat.le_sub_of_add_le' h
    change Alike (((entriesLayout props).object type (E.into id)).append next.layout).image room ↔ _
    rw [Layout.alike_append (Nat.le_trans (Nat.le_add_right _ _) h), ih hnext,
      Layout.object, Layout.alike_headed (by omega), alike_entries_iff props (by omega)]
    exact Iff.rfl

end Items

/-! ### What comes out of two buffers -/

/-- What a buffer of so many bytes is given does not depend on what was in it. -/
def PodTy.Leakless (t : PodTy E) (v : t.Val) (len : ℕ) : Prop :=
  ∀ data data' : List UInt8, data.length = len → data'.length = len →
    ∀ n out, t.encode v data = (.ok n, out) →
      ∃ out', t.encode v data' = (.ok n, out') ∧ out'.take n = out.take n

/-- What is built in a buffer of so many bytes does not depend on what was in it. -/
def Items.Leakless (items : Items E) (len : ℕ) : Prop :=
  ∀ data data' : List UInt8, data.length = len → data'.length = len →
    ∀ out, items.build data = .ok out → items.build data' = .ok out

lemma PodTy.encode_eq {t : PodTy E} {v : t.Val} {data : List UInt8}
    (hover : ¬ t.Overflow v data.length) (hneed : t.need v ≤ data.length) :
    t.encode v data = (.ok (t.size v), t.image v data ++ data.drop (t.size v)) := by
  have hends := t.encode_ends v data
  unfold Ends at hends
  generalize t.encode v data = r at hends
  obtain ⟨f | n, out⟩ := r
  · obtain ⟨-, ⟨-, h⟩ | ⟨-, -, h⟩⟩ := hends
    · exact absurd h hover
    · omega
  · obtain ⟨rfl, -, -, rfl⟩ := hends
    rfl

lemma PodTy.leakless_iff (t : PodTy E) (v : t.Val) (len : ℕ) :
    t.Leakless v len ↔ (¬ t.Overflow v len ∧ t.need v ≤ len → t.Unpadded v) := by
  have htake : ∀ data : List UInt8, t.need v ≤ data.length →
      (t.image v data ++ data.drop (t.size v)).take (t.size v) = t.image v data := fun data hneed =>
    List.take_left' (t.image_length v data (Nat.le_trans (t.size_le_need v) hneed))
  constructor
  · rintro hsame ⟨hover, hneed⟩
    refine (t.alike_image_iff v (Nat.le_trans (t.size_le_need v) hneed)).1 ?_
    intro old old' hold hold'
    subst hold
    obtain ⟨out', hrun, hout⟩ := hsame old old' rfl hold' _ _ (encode_eq hover hneed)
    rw [encode_eq (by rwa [hold']) (by rwa [hold'])] at hrun
    cases hrun
    rw [htake old hneed, htake old' (by rwa [hold'])] at hout
    exact hout.symm
  · intro hwhole data data' hdata hdata' n out hrun
    obtain ⟨rfl, hneed, hover, rfl⟩ := (t.encode_ends v data).run_ok hrun
    rw [hdata] at hover hneed
    refine ⟨_, encode_eq (by rwa [hdata']) (by rwa [hdata']), ?_⟩
    rw [htake data (by rwa [hdata]), htake data' (by rwa [hdata'])]
    exact (t.alike_image_iff v (Nat.le_trans (t.size_le_need v) hneed)).2 (hwhole ⟨hover, hneed⟩)
      _ _ hdata' hdata

lemma Items.leakless_iff (items : Items E) (len : ℕ) :
    items.Leakless len ↔
      (¬ items.layout.Cramped len len ∧ items.layout.Fits len → items.Unpadded) := by
  have hbuild : ∀ data : List UInt8, data.length = len → ¬ items.layout.Cramped len len →
      items.layout.Fits len → items.build data = .ok (items.layout.image data) := by
    rintro data rfl hclear hfit
    rcases items.push_lays.run data with ⟨-, -, hrun⟩ | ⟨-, hnot, -⟩ | ⟨hcramped, -⟩
    · exact hrun
    · exact absurd hfit hnot
    · exact absurd hcramped hclear
  constructor
  · rintro hsame ⟨hclear, hfit⟩
    refine (items.alike_layout_iff (items.layout.size_le hfit)).1 ?_
    intro old old' hold hold'
    have hrun := hsame old old' hold hold' _ (hbuild old hold hclear hfit)
    rw [hbuild old' hold' hclear hfit] at hrun
    exact (Except.ok.inj hrun).symm
  · intro hwhole data data' hdata hdata' out hrun
    unfold build at hrun
    rcases items.push_lays.run data with ⟨hclear, hfit, h⟩ | ⟨-, -, h⟩ | ⟨-, h⟩
    · rw [hdata] at hclear hfit
      rw [h] at hrun
      cases hrun
      rw [hbuild data' hdata' hclear hfit]
      exact congrArg _ ((items.alike_layout_iff (items.layout.size_le hfit)).2
        (hwhole ⟨hclear, hfit⟩) _ _ hdata' hdata)
    · rw [h] at hrun
      cases hrun
    · rw [h] at hrun
      cases hrun

/-- **Two buffers.** Whatever they held, the bytes that come out of them are the same exactly when
no array and no choice that is written needs padding. -/
theorem leakless_iff_unpadded (E : Enums) :
    (∀ (t : PodTy E) (v : t.Val) (len : ℕ), t.Leakless v len ↔
      (¬ t.Overflow v len ∧ t.need v ≤ len → t.Unpadded v)) ∧
    ∀ (items : Items E) (len : ℕ), items.Leakless len ↔
      (¬ items.layout.Cramped len len ∧ items.layout.Fits len → items.Unpadded) :=
  ⟨PodTy.leakless_iff, Items.leakless_iff⟩

/-- The padding of an array of one number is what was in the buffer. -/
theorem not_leakless_oneInt :
    ¬ (PodTy.array (.int : Prim Enums.plain)).Leakless [(7 : Int32)] 24 := by
  intro h
  obtain ⟨out', hrun, hout⟩ := h (List.replicate 24 0) (List.replicate 24 1) rfl rfl _ _ rfl
  cases hrun
  exact absurd hout (by decide)

end PipewireNative.Pod
