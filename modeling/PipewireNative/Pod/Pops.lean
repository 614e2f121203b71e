import PipewireNative.Pod.Calm
import PipewireNative.Pod.Parser

/-!
How the pops of a parser end, one rule for each: they do not panic where their closures do not,
they move the parser by what its header declares, and what they give to a closure lies inside the
body.
-/

namespace PipewireNative.Pod

open Lib Lib.Word Prog

variable {E : Enums} {ω α : Type}

namespace Parser

/-- The parser is in its data. -/
def Inside (q : Parser) : Prop := q.pos ≤ q.data.length

/-- The size that the header at the parser declares. -/
def declared (q : Parser) : ℕ := wordAt q.data q.pos 4

lemma declared_lt (q : Parser) : q.declared < 2 ^ 32 := wordAt_lt q.data q.pos 4

lemma declared_drop (q : Parser) : Pod.declared (q.data.drop q.pos) = q.declared :=
  wordAt_drop q.data q.pos 0 4

lemma u32At_declared {q : Parser} (h : q.pos + 4 ≤ q.data.length) :
    (u32At q.data q.pos : Read _) = .ok (.ofNat q.declared) := u32At_of_le h

lemma toNat_declared (q : Parser) : (UInt32.ofNat q.declared).toNat = q.declared :=
  toNat_ofNat q.declared_lt

/-- Bytes of the body that is declared, all of which is there. -/
def Body (q : Parser) (bytes : List UInt8) : Prop :=
  q.pos + 8 + q.declared ≤ q.data.length ∧ ∃ i, 8 ≤ i ∧ i + bytes.length ≤ 8 + q.declared ∧
    bytes = (q.data.drop (q.pos + i)).take bytes.length

/-- A parser of the same data, in it. -/
def Near (q q' : Parser) : Prop := q'.data = q.data ∧ q'.Inside

/-- The parser moved by so many bytes, in its data. -/
def Moved (q : Parser) (n : ℕ) (q' : Parser) : Prop :=
  q' = ⟨q.data, q.pos + n⟩ ∧ q.pos + n ≤ q.data.length

variable {q : Parser} {w : ω}

lemma Inside.near (h : q.Inside) : q.Near q := ⟨rfl, h⟩

lemma Near.trans {q' q'' : Parser} (h : q.Near q') (h' : q'.Near q'') : q.Near q'' :=
  ⟨h'.1.trans h.1, h'.2⟩

lemma Moved.near {n : ℕ} {q' : Parser} (h : q.Moved n q') : q.Near q' := by
  obtain ⟨rfl, hle⟩ := h
  exact ⟨rfl, hle⟩

lemma body_take {i n : ℕ} (hroom : q.pos + 8 + q.declared ≤ q.data.length) (hi : 8 ≤ i)
    (hn : i + n ≤ 8 + q.declared) : q.Body ((q.data.drop (q.pos + i)).take n) := by
  have hlen : ((q.data.drop (q.pos + i)).take n).length = n := by
    rw [List.length_take, List.length_drop]
    omega
  refine ⟨hroom, i, hi, ?_, ?_⟩
  · rw [hlen]
    exact hn
  · rw [hlen]

lemma left_inside (h : q.Inside) : q.left = .ok (q.data.drop q.pos) := by
  unfold left
  rw [slice_of_le h (Nat.le_refl _), List.take_of_length_le (Nat.le_of_eq List.length_drop)]

lemma ends_here {Q : Parser → Parser × ω → Prop} {F : Fault → Parser × ω → Prop} :
    (here : Pop ω Parser).Ends (q, w) Q F ↔ Q q (q, w) := Iff.rfl

lemma ends_advance {n : ℕ} {Q : Unit → Parser × ω → Prop} {F : Fault → Parser × ω → Prop} :
    (advance n : Pop ω Unit).Ends (q, w) Q F ↔ Q () (⟨q.data, q.pos + n⟩, w) := Iff.rfl

lemma ends_nested {body : List UInt8} {f : Pop ω α} {Q : α → Parser × ω → Prop}
    {F : Fault → Parser × ω → Prop} : (nested body f).Ends (q, w) Q F ↔
      f.Ends (.new body, w) (fun a s => Q a (q, s.2)) (fun e s => F e (q, s.2)) := ends_zoom

lemma ends_outside {f : Prog ω Fault α} {Q : α → Parser × ω → Prop}
    {F : Fault → Parser × ω → Prop} : (outside f).Ends (q, w) Q F ↔
      f.Ends w (fun a w' => Q a (q, w')) (fun e w' => F e (q, w')) := ends_zoom

variable {R : Fault → ω → Prop}

/-! ### Values and raw pods -/

theorem popWith_ends {decode : List UInt8 → Read (α × ℕ)} {T : ℕ → Prop}
    (h : Calm (decode (q.data.drop q.pos)) fun r => T r.2 ∧ r.2 ≤ (q.data.drop q.pos).length)
    (hq : q.Inside) (hR : ∀ f, f ≠ .panic → R f w) :
    (popWith decode : Pop ω α).Ends (q, w)
      (fun _ s => (∃ n, T n ∧ q.Moved n s.1) ∧ s.2 = w) (fun f s => q.Near s.1 ∧ R f s.2) := by
  have hinvalid : ∀ m, R (.invalid m) w := fun m => hR _ (by simp [Fault.invalid])
  unfold popWith
  rw [ends_bind, ends_here, ends_ofExcept_bind (left_inside hq), ends_bind]
  refine h.ends ?_ fun f hf => ⟨hq.near, hR f hf⟩
  rintro ⟨v, n⟩ ⟨htakes, hle⟩
  rw [List.length_drop] at hle
  refine ends_failIf_bind ⟨hq.near, hinvalid _⟩ fun _ => ?_
  refine ends_failIf_bind ⟨hq.near, hinvalid _⟩ fun _ => ?_
  rw [ends_bind, ends_advance, ends_pure]
  unfold Inside at hq
  exact ⟨⟨n, htakes, rfl, by omega⟩, rfl⟩

theorem popPod_ends (t : PodTy E) (hq : q.Inside) (hR : ∀ f, f ≠ .panic → R f w) :
    (popPod t : Pop ω t.Val).Ends (q, w)
      (fun _ s => (∃ n, t.Takes (q.data.drop q.pos) n ∧ q.Moved n s.1) ∧ s.2 = w)
      (fun f s => q.Near s.1 ∧ R f s.2) := popWith_ends (t.decode_calm _) hq hR

lemma wrap_calm (hq : q.Inside) : Calm (RawPod.wrap (q.data.drop q.pos)) fun r =>
    r.data = (q.data.drop q.pos).take (frame q.declared) ∧ r.size = frame q.declared ∧
      q.pos + frame q.declared ≤ q.data.length := by
  refine (RawPod.wrap_calm (q.data.drop q.pos)).mono ?_
  rintro r ⟨hdata, hle⟩
  rw [declared_drop] at hdata hle
  refine ⟨hdata, ?_, ?_⟩
  · rw [RawPod.size, hdata, List.length_take_of_le hle]
  · rw [List.length_drop] at hle
    unfold Inside at hq
    omega

theorem popRawPod_ends (hq : q.Inside) (hR : ∀ f, f ≠ .panic → R f w) :
    (popRawPod : Pop ω RawPod).Ends (q, w)
      (fun r s => r.data = (q.data.drop q.pos).take (frame q.declared) ∧
        q.Moved (frame q.declared) s.1 ∧ s.2 = w)
      (fun f s => q.Near s.1 ∧ R f s.2) := by
  unfold popRawPod
  rw [ends_bind, ends_here, ends_ofExcept_bind (left_inside hq), ends_bind]
  refine (wrap_calm hq).ends ?_ fun f hf => ⟨hq.near, hR f hf⟩
  rintro r ⟨hdata, hsize, hle⟩
  rw [ends_bind, ends_advance, ends_pure, hsize]
  exact ⟨hdata, ⟨rfl, hle⟩, rfl⟩

/-! ### Structs and objects -/

theorem popStruct_ends {f : Pop ω α} {Q : α → ω → Prop} (hq : q.Inside)
    (hR : ∀ f, f ≠ .panic → R f w)
    (hf : ∀ body, q.Body body → f.Ends (.new body, w) (fun a s => Q a s.2) fun e s => R e s.2) :
    (popStruct f).Ends (q, w) (fun r s => q.Moved (frame q.declared) s.1 ∧ Q r.1 s.2)
      (fun e s => q.Near s.1 ∧ R e s.2) := by
  have hinvalid : ∀ m, R (.invalid m) w := fun m => hR _ (by simp [Fault.invalid])
  have hframe : frame q.declared = 8 + q.declared + pad8 q.declared := rfl
  unfold popStruct
  rw [ends_bind, ends_here]
  refine ends_failIf_bind ⟨hq.near, hinvalid _⟩ fun hlen => ?_
  unfold available at hlen
  rw [ends_ofExcept_bind (u32At_declared (by omega)), toNat_declared,
    ends_ofExcept_bind (podTotalSize_frame q.declared_lt)]
  refine ends_failIf_bind ⟨hq.near, hinvalid _⟩ fun htotal => ?_
  unfold available at htotal
  rw [ends_ofExcept_bind (u32At_of_le (by omega))]
  refine ends_failIf_bind ⟨hq.near, hinvalid _⟩ fun _ => ?_
  rw [ends_ofExcept_bind (slice_of_le (by omega) (by omega)), ends_bind, ends_nested,
    Nat.add_sub_cancel_left]
  refine (hf _ (body_take (by omega) (Nat.le_refl 8) (by omega))).mono ?_ fun e s he => ⟨hq.near, he⟩
  intro a s ha
  rw [ends_bind, ends_advance, ends_pure]
  exact ⟨⟨rfl, by omega⟩, ha⟩

theorem objectHeader_calm (i : E.Name) (q : Parser) :
    Calm (objectHeader i q) fun h => h.1 = (q.declared, frame q.declared) ∧ 8 ≤ q.declared ∧
      q.pos + frame q.declared ≤ q.data.length := by
  have hframe : frame q.declared = 8 + q.declared + pad8 q.declared := rfl
  unfold objectHeader
  refine calm_check fun hlen => ?_
  unfold available at hlen
  rw [u32At_declared (by omega), except_ok_bind, toNat_declared]
  refine calm_check fun height => ?_
  rw [podTotalSize_frame q.declared_lt, except_ok_bind]
  refine calm_check fun htotal => ?_
  unfold available at htotal
  rw [u32At_of_le (by omega), except_ok_bind]
  refine calm_check fun _ => ?_
  rw [u32At_of_le (by omega), except_ok_bind]
  split
  · exact calm_invalid
  · rw [u32At_of_le (by omega), except_ok_bind]
    split
    · exact calm_invalid
    · exact ⟨rfl, by omega, by omega⟩

lemma objectBody_ends {f : Pop ω α} {Q : α → ω → Prop} (height : 8 ≤ q.declared)
    (hroom : q.pos + frame q.declared ≤ q.data.length)
    (hf : ∀ body, q.Body body → f.Ends (.new body, w) (fun a s => Q a s.2) fun e s => R e s.2) :
    (objectBody q.declared (frame q.declared) f).Ends (q, w)
      (fun r s => q.Moved (frame q.declared) s.1 ∧ Q r.1 s.2)
      (fun e s => q.Near s.1 ∧ R e s.2) := by
  have hframe : frame q.declared = 8 + q.declared + pad8 q.declared := rfl
  unfold objectBody
  rw [ends_bind, ends_advance, ends_bind, ends_here,
    ends_ofExcept_bind (slice_of_le (by simp only []; omega) (by simp only []; omega)), ends_bind,
    ends_nested]
  simp only []
  rw [(by omega : q.pos + 16 + q.declared - 8 - (q.pos + 16) = q.declared - 8)]
  have hnear : q.Near ⟨q.data, q.pos + 16⟩ :=
    ⟨rfl, by change q.pos + 16 ≤ q.data.length; omega⟩
  refine (hf _ (body_take (by omega) (by omega) (by omega))).mono ?_ fun e s he => ⟨hnear, he⟩
  intro a s ha
  rw [ends_bind, ends_advance, ends_pure]
  simp only []
  rw [(by omega : q.pos + 16 + (q.declared - 8 + pad8 q.declared) = q.pos + frame q.declared)]
  exact ⟨⟨rfl, hroom⟩, ha⟩

theorem popObject_ends (type : ObjectType) (i : E.Name) {f : E.T i → Pop ω α} {Q : α → ω → Prop}
    (hq : q.Inside) (hR : ∀ f, f ≠ .panic → R f w)
    (hf : ∀ id body, q.Body body →
      (f id).Ends (.new body, w) (fun a s => Q a s.2) fun e s => R e s.2) :
    (popObject type i f).Ends (q, w) (fun r s => q.Moved (frame q.declared) s.1 ∧ Q r.1 s.2)
      (fun e s => q.Near s.1 ∧ R e s.2) := by
  unfold popObject
  rw [ends_bind, ends_here, ends_bind]
  refine (objectHeader_calm i q).ends ?_ fun f hf => ⟨hq.near, hR f hf⟩
  rintro ⟨⟨size, total⟩, type', id⟩ ⟨hsize, height, hroom⟩
  cases hsize
  refine ends_failIf_bind ⟨hq.near, hR _ (by simp [Fault.invalid])⟩ fun _ => ?_
  exact objectBody_ends height hroom (hf id)

theorem popObjectRaw_ends (i : E.Name) {f : ObjectType → E.T i → Pop ω α} {Q : α → ω → Prop}
    (hq : q.Inside) (hR : ∀ f, f ≠ .panic → R f w)
    (hf : ∀ type id body, q.Body body →
      (f type id).Ends (.new body, w) (fun a s => Q a s.2) fun e s => R e s.2) :
    (popObjectRaw i f).Ends (q, w) (fun r s => q.Moved (frame q.declared) s.1 ∧ Q r.1 s.2)
      (fun e s => q.Near s.1 ∧ R e s.2) := by
  unfold popObjectRaw
  rw [ends_bind, ends_here, ends_bind]
  refine (objectHeader_calm i q).ends ?_ fun f hf => ⟨hq.near, hR f hf⟩
  rintro ⟨⟨size, total⟩, type, id⟩ ⟨hsize, height, hroom⟩
  cases hsize
  exact objectBody_ends height hroom (hf type id)

/-! ### Arrays and choices -/

lemma eachChunk_ends {n : ℕ} {item : List UInt8 → Prog ω Fault Unit} {I : ω → Prop}
    {data : List UInt8} {count : ℕ} (hitem : ∀ i < count, ∀ w, I w →
      (item ((data.drop (i * n)).take n)).Ends w (fun _ => I) R) (hw : I w) :
    (eachChunk n item count data).Ends w (fun _ => I) R := by
  induction count generalizing data w with
  | zero => exact hw
  | succ count ih =>
    unfold eachChunk
    have hfirst := hitem 0 (Nat.succ_pos count) w hw
    rw [Nat.zero_mul, List.drop_zero] at hfirst
    rw [ends_bind]
    refine hfirst.mono (fun _ w' hw' => ih ?_ hw') fun _ _ h => h
    intro i hi w hw
    have hnext := hitem (i + 1) (Nat.succ_lt_succ hi) w hw
    rwa [Nat.succ_mul, Nat.add_comm, ← List.drop_drop] at hnext

theorem popArrayRaw_ends {item : PodType → List UInt8 → Prog ω Fault Unit} {I : ω → Prop}
    (hq : q.Inside) (hR : ∀ f, f ≠ .panic → R f w) (hw : I w)
    (hitem : ∀ type bytes w, q.Body bytes → I w → (item type bytes).Ends w (fun _ => I) R) :
    (popArrayRaw item).Ends (q, w) (fun _ s => q.Moved (frame q.declared) s.1 ∧ I s.2)
      (fun e s => q.Near s.1 ∧ R e s.2) := by
  have hinvalid : ∀ m, R (.invalid m) w := fun m => hR _ (by simp [Fault.invalid])
  have hframe : frame q.declared = 8 + q.declared + pad8 q.declared := rfl
  unfold popArrayRaw
  rw [ends_bind, ends_here]
  refine ends_failIf_bind ⟨hq.near, hinvalid _⟩ fun hlen => ?_
  unfold available at hlen
  rw [ends_ofExcept_bind (u32At_declared (by omega)), toNat_declared]
  refine ends_failIf_bind ⟨hq.near, hinvalid _⟩ fun height => ?_
  rw [ends_ofExcept_bind (podTotalSize_frame q.declared_lt)]
  refine ends_failIf_bind ⟨hq.near, hinvalid _⟩ fun htotal => ?_
  unfold available at htotal
  rw [ends_ofExcept_bind (u32At_of_le (by omega))]
  refine ends_failIf_bind ⟨hq.near, hinvalid _⟩ fun _ => ?_
  rw [ends_ofExcept_bind (u32At_of_le (by omega)), toNat_wordAt]
  refine ends_failIf_bind ⟨hq.near, hinvalid _⟩ fun _ => ?_
  rw [ends_ofExcept_bind (u32At_of_le (by omega))]
  split
  · exact ⟨hq.near, hinvalid _⟩
  · rename_i type _
    refine ends_failIf_bind ⟨hq.near, hinvalid _⟩ fun _ => ?_
    rw [ends_ofExcept_bind (slice_of_le (by omega) (by omega)), ends_bind, ends_outside]
    have hall := Nat.div_mul_le_self (q.declared - 8) (wordAt q.data (q.pos + 8) 4)
    generalize wordAt q.data (q.pos + 8) 4 = n at hall ⊢
    generalize (q.declared - 8) / n = count at hall ⊢
    refine (eachChunk_ends (I := I) (R := R) ?_ hw).mono ?_ fun e w he => ⟨hq.near, he⟩
    · intro i hi w hw
      have hend := child_end_le 8 hall hi
      rw [Nat.add_sub_cancel_left, List.drop_take, List.take_take, List.drop_drop,
        Nat.min_eq_left (by omega), Nat.add_assoc]
      exact hitem type _ w (body_take (by omega) (by omega) (by omega)) hw
    · intro _ w hw
      rw [ends_bind, ends_advance, ends_pure]
      exact ⟨⟨rfl, by omega⟩, hw⟩

lemma rawChild_calm {data : List UInt8} {size i : ℕ} (h : 24 + i * size + size ≤ data.length) :
    Calm (rawChild data size i) fun v => v = (data.drop (24 + i * size)).take size := by
  unfold rawChild
  rw [slice_of_le (by omega) h, Nat.add_sub_cancel_left]
  rfl

lemma rawChildren_calm {data : List UInt8} {size i n : ℕ} {P : List UInt8 → Prop}
    (h : ∀ j < i + n, Calm (rawChild data size j) P) :
    Calm (rawChildren data size i n) fun vs => ∀ v ∈ vs, P v := by
  induction n generalizing i with
  | zero => exact fun _ hv => absurd hv List.not_mem_nil
  | succ n ih =>
    unfold rawChildren
    refine calm_bind.2 ((h i (by omega)).mono fun v hv => ?_)
    refine calm_bind.2 ((ih fun j hj => h j (by omega)).mono fun vs hvs => calm_pure.2 ?_)
    simpa using ⟨hv, hvs⟩

theorem popChoiceRaw_ends {parse : PodType → Choice (List UInt8) → Prog ω Fault Unit}
    {I : ω → Prop} (hq : q.Inside) (hR : ∀ f, f ≠ .panic → R f w)
    (hparse : ∀ type c, (∀ bytes ∈ c.values, q.Body bytes) →
      (parse type c).Ends w (fun _ => I) R) :
    (popChoiceRaw parse).Ends (q, w) (fun _ s => q.Moved (frame q.declared) s.1 ∧ I s.2)
      (fun e s => q.Near s.1 ∧ R e s.2) := by
  have hinvalid : ∀ m, R (.invalid m) w := fun m => hR _ (by simp [Fault.invalid])
  have hframe : frame q.declared = 8 + q.declared + pad8 q.declared := rfl
  have hdrop : (q.data.drop q.pos).length = q.data.length - q.pos := List.length_drop
  have hsize : (u32At (q.data.drop q.pos) 0 : Read _) = .ok (.ofNat q.declared) ∨
      q.data.length - q.pos < 4 := by
    by_cases h : q.data.length - q.pos < 4
    · exact .inr h
    · rw [← declared_drop]
      exact .inl (Pod.u32At_declared (by omega))
  unfold popChoiceRaw
  rw [ends_bind, ends_here, ends_ofExcept_bind (left_inside hq)]
  refine ends_failIf_bind ⟨hq.near, hinvalid _⟩ fun hlen => ?_
  rw [ends_ofExcept_bind (hsize.resolve_right (by omega)), toNat_declared]
  refine ends_failIf_bind ⟨hq.near, hinvalid _⟩ fun hsixteen => ?_
  rw [ends_ofExcept_bind (podTotalSize_frame q.declared_lt)]
  refine ends_failIf_bind ⟨hq.near, hinvalid _⟩ fun htotal => ?_
  rw [ends_ofExcept_bind (u32At_of_le (by omega))]
  refine ends_failIf_bind ⟨hq.near, hinvalid _⟩ fun _ => ?_
  rw [ends_ofExcept_bind (u32At_of_le (by omega)), ends_ofExcept_bind (u32At_of_le (by omega)),
    toNat_wordAt _ 16]
  refine ends_failIf_bind ⟨hq.near, hinvalid _⟩ fun _ => ?_
  rw [ends_ofExcept_bind (u32At_of_le (by omega))]
  split
  · exact ⟨hq.near, hinvalid _⟩
  · rename_i type _
    refine ends_failIf_bind ⟨hq.near, hinvalid _⟩ fun _ => ?_
    rw [ends_bind]
    have hall := Nat.div_mul_le_self (q.declared - 16) (wordAt (q.data.drop q.pos) 16 4)
    generalize wordAt (q.data.drop q.pos) 16 4 = n at hall ⊢
    generalize (q.declared - 16) / n = count at hall ⊢
    have hchild : ∀ i < count, Calm (rawChild (q.data.drop q.pos) n i) q.Body := by
      intro i hi
      have hend := child_end_le 24 hall hi
      refine (rawChild_calm (by omega)).mono ?_
      rintro v rfl
      rw [List.drop_drop]
      exact body_take (by omega) (by omega) (by omega)
    refine (Choice.ofChildren_calm hchild ?_).ends ?_ fun f hf => ⟨hq.near, hR f hf⟩
    · intro hzero
      exact rawChildren_calm fun j hj => hchild j (by omega)
    · intro c hc
      rw [ends_bind, ends_outside]
      refine (hparse type c hc).mono ?_ fun e w he => ⟨hq.near, he⟩
      intro _ w hw
      rw [ends_bind, ends_advance, ends_pure]
      exact ⟨⟨rfl, by omega⟩, hw⟩

/-! ### Properties -/

/-- Where a property was, with its value, or nothing is left. -/
def PropertyAt {κ : Type} (q : Parser) : Option (κ × PropertyFlags × RawPod) → Parser → Prop
  | none, q' => q' = q ∧ q.pos = q.data.length
  | some p, q' =>
    p.2.2.data = (q.data.drop (q.pos + 8)).take (frame (wordAt q.data (q.pos + 8) 4)) ∧
      q.Moved (8 + frame (wordAt q.data (q.pos + 8) 4)) q'

lemma propertyTail_ends {κ : Type} {key : κ} (hroom : q.pos + 16 ≤ q.data.length)
    (hR : ∀ f, f ≠ .panic → R f w) :
    (propertyTail key : Pop ω _).Ends (q, w) (fun r s => q.PropertyAt r s.1 ∧ s.2 = w)
      (fun f s => q.Near s.1 ∧ R f s.2) := by
  have hnear : q.Near q := ⟨rfl, by unfold Inside; omega⟩
  unfold propertyTail
  rw [ends_bind, ends_here, ends_ofExcept_bind (u32At_of_le (by omega))]
  split
  · exact ⟨hnear, hR _ (by simp [Fault.invalid])⟩
  · have hinside : (⟨q.data, q.pos + 8⟩ : Parser).Inside := by
      change q.pos + 8 ≤ q.data.length
      omega
    rw [ends_bind, ends_advance]
    rw [ends_bind, ends_here, ends_ofExcept_bind (left_inside hinside), ends_bind]
    refine (wrap_calm hinside).ends ?_ fun f hf => ⟨⟨rfl, hinside⟩, hR f hf⟩
    rintro r ⟨hdata, hsize, hle⟩
    rw [ends_bind, ends_advance, ends_pure, hsize]
    refine ⟨⟨hdata, congrArg (Parser.mk q.data) (Nat.add_assoc ..), ?_⟩, rfl⟩
    rw [← Nat.add_assoc]
    exact hle

theorem popProperty_ends (k : E.Name) (hq : q.Inside) (hR : ∀ f, f ≠ .panic → R f w) :
    (popProperty k : Pop ω _).Ends (q, w) (fun r s => q.PropertyAt r s.1 ∧ s.2 = w)
      (fun f s => q.Near s.1 ∧ R f s.2) := by
  have hinvalid : ∀ m, R (.invalid m) w := fun m => hR _ (by simp [Fault.invalid])
  unfold popProperty
  rw [ends_bind, ends_here, ends_ite]
  unfold available Inside at *
  refine ⟨fun hzero => ⟨⟨rfl, by omega⟩, rfl⟩, fun _ => ?_⟩
  refine ends_failIf_bind ⟨⟨rfl, hq⟩, hinvalid _⟩ fun hlen => ?_
  rw [ends_ofExcept_bind (u32At_of_le (by omega))]
  split
  · exact ⟨⟨rfl, hq⟩, hinvalid _⟩
  · exact propertyTail_ends (by omega) hR

theorem popPropertyRaw_ends (hq : q.Inside) (hR : ∀ f, f ≠ .panic → R f w) :
    (popPropertyRaw : Pop ω _).Ends (q, w) (fun r s => q.PropertyAt r s.1 ∧ s.2 = w)
      (fun f s => q.Near s.1 ∧ R f s.2) := by
  unfold popPropertyRaw
  rw [ends_bind, ends_here, ends_ite]
  unfold available Inside at *
  refine ⟨fun hzero => ⟨⟨rfl, by omega⟩, rfl⟩, fun _ => ?_⟩
  refine ends_failIf_bind ⟨⟨rfl, hq⟩, hR _ (by simp [Fault.invalid])⟩ fun hlen => ?_
  rw [ends_ofExcept_bind (u32At_of_le (by omega))]
  exact propertyTail_ends (by omega) hR

end Parser

end PipewireNative.Pod
