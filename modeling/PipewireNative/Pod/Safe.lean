import PipewireNative.Pod.Pops

/-!
Programs of pops that do not panic, whatever the bytes are, and the loops that pop as long as
something is left.
-/

namespace PipewireNative.Pod

open Lib Prog

variable {E : Enums} {ω α β σ : Type} {d : ℕ}

namespace Parser

/-- A parser of the same data, in it, so many bytes or more further on. -/
def Ahead (d : ℕ) (q q' : Parser) : Prop := q.Near q' ∧ q.pos + d ≤ q'.pos

lemma Ahead.trans {d' : ℕ} {q r s : Parser} (h : q.Ahead d r) (h' : r.Ahead d' s) :
    q.Ahead (d + d') s := by
  obtain ⟨⟨hdata, -⟩, hle⟩ := h
  obtain ⟨⟨hdata', hin⟩, hle'⟩ := h'
  exact ⟨⟨hdata'.trans hdata, hin⟩, by omega⟩

lemma Ahead.near {q r : Parser} (h : q.Ahead d r) : q.Near r := h.1

lemma Ahead.available_lt {q q' : Parser} (h : q.Ahead 1 q') : q'.available < q.available := by
  obtain ⟨⟨hdata, hin⟩, hle⟩ := h
  unfold available Inside at *
  rw [hdata] at *
  omega

lemma Ahead.weaken {q q' : Parser} (h : q.Ahead d q') : q.Ahead 0 q' := by
  obtain ⟨hnear, hle⟩ := h
  exact ⟨hnear, by omega⟩

lemma Inside.ahead {q : Parser} (h : q.Inside) : q.Ahead 0 q := ⟨h.near, Nat.le_refl _⟩

lemma Moved.ahead {n : ℕ} {q q' : Parser} (h : q.Moved n q') (hn : d ≤ n) : q.Ahead d q' := by
  refine ⟨h.near, ?_⟩
  obtain ⟨rfl, -⟩ := h
  exact Nat.add_le_add_left hn _

end Parser

/-- A program of pops does not panic, leaves the parser in its data, and moves it on by so many
bytes or more if it succeeds. -/
def Safe (d : ℕ) (m : Pop ω α) : Prop :=
  ∀ (q : Parser) (w : ω), q.Inside →
    m.Ends (q, w) (fun _ s => q.Ahead d s.1) (fun f s => f ≠ .panic ∧ q.Near s.1)

lemma invalid_ne_panic (message : String) : Fault.invalid message ≠ .panic := by
  simp [Fault.invalid]

namespace Safe

lemma weaken {m : Pop ω α} (h : Safe d m) {d' : ℕ} (hd : d' ≤ d) : Safe d' m := by
  intro q w hq
  refine (h q w hq).mono ?_ fun _ _ h => h
  rintro _ s ⟨hnear, hle⟩
  exact ⟨hnear, by omega⟩

/-! ### Rules -/

lemma pure (a : α) : Safe 0 (Pure.pure a : Pop ω α) := fun _ _ hq => hq.ahead

lemma fail {f : Fault} (h : f ≠ .panic) : Safe d (.fail f : Pop ω α) := fun _ _ hq => ⟨h, hq.near⟩

lemma invalid (message : String) : Safe d (.fail (.invalid message) : Pop ω α) :=
  fail (invalid_ne_panic message)

lemma bind {d' : ℕ} {m : Pop ω α} {f : α → Pop ω β} (hm : Safe d m) (hf : ∀ a, Safe d' (f a)) :
    Safe (d + d') (m >>= f) := by
  intro q w hq
  rw [ends_bind]
  refine (hm q w hq).mono ?_ fun _ _ h => h
  intro a s hs
  exact (hf a s.1 s.2 hs.near.2).mono (fun _ _ h => hs.trans h) fun _ _ h =>
    ⟨h.1, hs.near.trans h.2⟩

lemma followed {d' : ℕ} {m : Pop ω α} {f : α → Pop ω β} (hm : Safe d' m) (hf : ∀ a, Safe d (f a)) :
    Safe d (m >>= f) := (hm.bind hf).weaken (Nat.le_add_left d d')

lemma ofExcept {r : Read α} {Q : α → Prop} (hr : Calm r Q) : Safe 0 (.ofExcept r : Pop ω α) :=
  fun _ _ hq => hr.ends (fun _ _ => hq.ahead) fun _ hf => ⟨hf, hq.near⟩

lemma failIf {c : Prop} [Decidable c] (message : String) :
    Safe 0 (.failIf c (.invalid message) : Pop ω Unit) := by
  intro q w hq
  rw [ends_failIf]
  exact ⟨fun _ => ⟨invalid_ne_panic message, hq.near⟩, fun _ => hq.ahead⟩

lemma here : Safe 0 (Parser.here : Pop ω Parser) := fun _ _ hq => hq.ahead

/-! ### Pops -/

lemma eight_le_takes (t : PodTy E) {data : List UInt8} {n : ℕ} (h : t.Takes data n) : 8 ≤ n := by
  have hframe : 8 ≤ frame (declared data) := by
    unfold frame
    omega
  induction t generalizing data n with
  | property k t ih =>
    obtain ⟨m, rfl, -⟩ := h
    omega
  | option t ih =>
    rcases h with h | rfl
    · exact ih h hframe
    · exact hframe
  | _ => exact Nat.le_trans hframe (Nat.le_of_eq (Eq.symm h))

lemma popPod (t : PodTy E) : Safe 8 (Parser.popPod t : Pop ω t.Val) := by
  intro q w hq
  refine (Parser.popPod_ends (R := fun f _ => f ≠ .panic) t hq fun _ h => h).mono ?_ ?_
  · rintro _ s ⟨⟨n, htakes, hmoved⟩, -⟩
    exact hmoved.ahead (eight_le_takes t htakes)
  · exact fun _ _ h => ⟨h.2, h.1⟩

lemma popRawPod : Safe 8 (Parser.popRawPod : Pop ω RawPod) := by
  intro q w hq
  refine (Parser.popRawPod_ends (R := fun f _ => f ≠ .panic) hq fun _ h => h).mono ?_ ?_
  · rintro _ s ⟨-, hmoved, -⟩
    exact hmoved.ahead (by unfold frame; omega)
  · exact fun _ _ h => ⟨h.2, h.1⟩

lemma new_inside (data : List UInt8) : (Parser.new data).Inside := Nat.zero_le _

lemma closure {m : Pop ω α} (hm : Safe d m) (body : List UInt8) (w : ω) :
    m.Ends (.new body, w) (fun _ _ => True) fun e _ => e ≠ .panic :=
  (hm (.new body) w (new_inside body)).mono (fun _ _ _ => trivial) fun _ _ h => h.1

lemma popStruct {m : Pop ω α} (hm : Safe d m) : Safe 8 (Parser.popStruct m) := by
  intro q w hq
  refine (Parser.popStruct_ends (R := fun f _ => f ≠ .panic) (Q := fun _ _ => True) hq
    (fun _ h => h) fun body _ => hm.closure body w).mono ?_ ?_
  · rintro _ s ⟨hmoved, -⟩
    exact hmoved.ahead (by unfold frame; omega)
  · exact fun _ _ h => ⟨h.2, h.1⟩

lemma popObject (type : ObjectType) (i : E.Name) {f : E.T i → Pop ω α} (hf : ∀ id, Safe d (f id)) :
    Safe 8 (Parser.popObject type i f) := by
  intro q w hq
  refine (Parser.popObject_ends (R := fun f _ => f ≠ .panic) (Q := fun _ _ => True) type i hq
    (fun _ h => h) fun id body _ => (hf id).closure body w).mono ?_ ?_
  · rintro _ s ⟨hmoved, -⟩
    exact hmoved.ahead (by unfold frame; omega)
  · exact fun _ _ h => ⟨h.2, h.1⟩

end Safe

/-! ### Loops -/

namespace Parser

/-- `while parser.available() > 0`, in so many rounds; one that would need more counts as a
panic. -/
def rounds (step : Pop ω α) : ℕ → Pop ω (List α)
  | 0 => .fail .panic
  | n + 1 => do
    let q ← here
    if q.available = 0 then pure []
    else do
      let a ← step
      let rest ← rounds step n
      pure (a :: rest)

/-- `while parser.available() > 0`. -/
def whileAvailable (step : Pop ω α) : Pop ω (List α) := do
  let q ← here
  rounds step (q.available + 1)

/-- `while let Some(property) = parser.pop_property()?`, in so many rounds. -/
def propertyRounds (k : E.Name) (step : σ → E.T k → RawPod → Read σ) : ℕ → σ → Pop ω σ
  | 0, _ => .fail .panic
  | n + 1, acc => do
    let property ← popProperty k
    match property with
    | none => pure acc
    | some (key, _, data) => do
      let acc ← .ofExcept (step acc key data)
      propertyRounds k step n acc

/-- `while let Some(property) = parser.pop_property()?`. -/
def whileProperty (k : E.Name) (step : σ → E.T k → RawPod → Read σ) (acc : σ) : Pop ω σ := do
  let q ← here
  propertyRounds k step (q.available + 1) acc

end Parser

namespace Safe

/-- One round for each byte is enough where every round takes one. -/
lemma rounds_ends {step : Pop ω α} (hstep : Safe 1 step) {n : ℕ} {q : Parser} {w : ω}
    (hq : q.Inside) (hn : q.available < n) :
    (Parser.rounds step n).Ends (q, w) (fun _ s => q.Ahead 0 s.1)
      (fun f s => f ≠ .panic ∧ q.Near s.1) := by
  induction n generalizing q w with
  | zero => omega
  | succ n ih =>
    unfold Parser.rounds
    rw [ends_bind, Parser.ends_here, ends_ite]
    refine ⟨fun _ => hq.ahead, fun hleft => ?_⟩
    rw [ends_bind]
    refine (hstep q w hq).mono ?_ fun _ _ h => h
    rintro a ⟨q', w'⟩ hahead
    have hless : q'.available < q.available := hahead.available_lt
    rw [ends_bind]
    refine (ih hahead.near.2 (by omega : q'.available < n)).mono ?_ fun _ _ h => ⟨h.1, hahead.near.trans h.2⟩
    exact fun _ s hs => (hahead.trans hs).weaken

lemma whileAvailable {step : Pop ω α} (hstep : Safe 1 step) : Safe 0 (Parser.whileAvailable step) := by
  intro q w hq
  unfold Parser.whileAvailable
  rw [ends_bind, Parser.ends_here]
  exact rounds_ends hstep hq (Nat.lt_succ_self _)

lemma propertyRounds_ends {k : E.Name} {step : σ → E.T k → RawPod → Read σ}
    (hstep : ∀ acc key data, Calm (step acc key data) fun _ => True) {n : ℕ} {acc : σ} {q : Parser}
    {w : ω} (hq : q.Inside) (hn : q.available < n) :
    (Parser.propertyRounds k step n acc).Ends (q, w) (fun _ s => q.Ahead 0 s.1)
      (fun f s => f ≠ .panic ∧ q.Near s.1) := by
  induction n generalizing acc q w with
  | zero => omega
  | succ n ih =>
    unfold Parser.propertyRounds
    rw [ends_bind]
    refine (Parser.popProperty_ends (R := fun f _ => f ≠ .panic) k hq fun _ h => h).mono ?_
      fun _ _ h => ⟨h.2, h.1⟩
    rintro (_ | ⟨key, flags, data⟩) ⟨q', w'⟩ ⟨hproperty, -⟩
    · obtain rfl : q' = q := hproperty.1
      exact hq.ahead
    · have hahead : q.Ahead 1 q' := hproperty.2.ahead (by omega)
      have hless : q'.available < q.available := hahead.available_lt
      rw [ends_bind]
      refine (hstep acc key data).ends ?_ fun _ hf => ⟨hf, hahead.near⟩
      intro acc' _
      refine (ih hahead.near.2 (by omega : q'.available < n)).mono ?_ fun _ _ h => ⟨h.1, hahead.near.trans h.2⟩
      exact fun _ s hs => (hahead.trans hs).weaken

lemma whileProperty {k : E.Name} {step : σ → E.T k → RawPod → Read σ}
    (hstep : ∀ acc key data, Calm (step acc key data) fun _ => True) (acc : σ) :
    Safe 0 (Parser.whileProperty k step acc : Pop ω σ) := by
  intro q w hq
  unfold Parser.whileProperty
  rw [ends_bind, Parser.ends_here]
  exact propertyRounds_ends hstep hq (Nat.lt_succ_self _)

end Safe

end PipewireNative.Pod
