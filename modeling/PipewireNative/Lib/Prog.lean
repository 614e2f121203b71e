import Mathlib.Algebra.Order.BigOperators.Group.List
import Mathlib.Algebra.Order.Ring.Nat
import Mathlib.Tactic.Common
import Mathlib.Data.List.Basic
import Mathlib.Logic.Relation

/-!
Programs that read and write a state and may stop with an error, the state surviving the error:
the combinators the models are written with, and rules for what holds when such a program is
done.

`Prog.Ends p s Q E` says that `p`, started in `s`, either returns a value and a state of `Q` or
stops with an error and a state of `E`. Every combinator has a rule that rewrites `Ends` of the
whole into `Ends` of the parts, so a program is walked by `simp only` with these rules and by one
specification for each subprogram.
-/

namespace PipewireNative.Lib

/-! ### Checks -/

section Checks

variable {ε α β : Type}

/-- Stop with the error `e` when `c` holds. -/
def rejectIf (c : Prop) [Decidable c] (e : ε) : Except ε Unit := if c then .error e else .ok ()

@[simp] lemma rejectIf_eq_ok {c : Prop} [Decidable c] {e : ε} {u : Unit} :
    rejectIf c e = .ok u ↔ ¬ c := by
  unfold rejectIf; split_ifs with h <;> simp [h]

@[simp] lemma rejectIf_eq_error {c : Prop} [Decidable c] {e e' : ε} :
    rejectIf c e = .error e' ↔ c ∧ e = e' := by
  unfold rejectIf; split_ifs with h <;> simp [h]

lemma exists_rejectIf {c : Prop} [Decidable c] {e : ε} {P : Unit → Prop} :
    (∃ u, rejectIf c e = .ok u ∧ P u) ↔ ¬ c ∧ P () := by
  simp only [rejectIf_eq_ok]
  exact ⟨fun ⟨_, h⟩ => h, fun h => ⟨(), h⟩⟩

lemma except_bind_eq_ok {x : Except ε α} {f : α → Except ε β} {b : β} :
    (x >>= f) = .ok b ↔ ∃ a, x = .ok a ∧ f a = .ok b := by
  cases x with
  | error _ | ok _ => simp [bind, Except.bind]

lemma except_ok_bind {a : α} {f : α → Except ε β} : ((.ok a : Except ε α) >>= f) = f a := rfl

lemma rejectIf_bind {c : Prop} [Decidable c] {e : ε} {f : Unit → Except ε β} (h : ¬ c) :
    (rejectIf c e >>= f) = f () := by
  rw [rejectIf_eq_ok.2 h]
  rfl

lemma rejectIf_bind_of {c : Prop} [Decidable c] {e : ε} {f : Unit → Except ε β} (h : c) :
    (rejectIf c e >>= f) = .error e := by
  rw [rejectIf_eq_error.2 ⟨h, rfl⟩]
  rfl

lemma except_isOk {x : Except ε α} : x.isOk = true ↔ ∃ a, x = .ok a := by
  cases x <;> simp [Except.isOk, Except.toBool]

lemma mapError_eq_ok {ε' : Type} {f : ε → ε'} {r : Except ε α} {a : α} :
    r.mapError f = .ok a ↔ r = .ok a := by
  cases r <;> simp [Except.mapError]

end Checks

/-- A program over the state `σ`: it returns a value or an error, and the state it leaves. -/
def Prog (σ ε α : Type) := σ → Except ε α × σ

namespace Prog

variable {σ τ ε ε' α β : Type}

/-! ### The combinators -/

instance : Monad (Prog σ ε) where
  pure a := fun s => (.ok a, s)
  bind p f := fun s =>
    match p s with
    | (.ok a, s') => f a s'
    | (.error e, s') => (.error e, s')

/-- Stop with an error. -/
def fail (e : ε) : Prog σ ε α := fun s => (.error e, s)

/-- Read the state. -/
def get : Prog σ ε σ := fun s => (.ok s, s)

/-- Read something off the state. -/
def gets (f : σ → α) : Prog σ ε α := fun s => (.ok (f s), s)

/-- Change the state. -/
def modify (f : σ → σ) : Prog σ ε Unit := fun s => (.ok (), f s)

/-- A value that may be an error. -/
def ofExcept (r : Except ε α) : Prog σ ε α := fun s => (r, s)

/-- The same program with its errors renamed. -/
def mapErr (f : ε → ε') (p : Prog σ ε α) : Prog σ ε' α := fun s =>
  match p s with
  | (.ok a, s') => (.ok a, s')
  | (.error e, s') => (.error (f e), s')

/-- The same program with its error made a value. -/
def attempt (p : Prog σ ε α) : Prog σ ε' (Except ε α) := fun s =>
  let r := p s
  (.ok r.1, r.2)

/-- `p`, and `c` after it when it stops with an error, which is kept. -/
def onFail (p : Prog σ ε α) (c : Prog σ Empty Unit) : Prog σ ε α := fun s =>
  match p s with
  | (.ok a, s') => (.ok a, s')
  | (.error e, s') => (.error e, (c s').2)

/-- A program over a part of the state, run on the whole. -/
def zoom (view : τ → σ) (put : σ → τ → τ) (p : Prog σ ε α) : Prog τ ε α := fun t =>
  let r := p (view t)
  (r.1, put r.2 t)

/-- Stop with the error `e` when `c` holds. -/
def failIf (c : Prop) [Decidable c] (e : ε) : Prog σ ε Unit := ofExcept (rejectIf c e)

lemma bind_ok {p : Prog σ ε α} {f : α → Prog σ ε β} {s s' : σ} {a : α} (h : p s = (.ok a, s')) :
    (p >>= f) s = f a s' := by
  simp only [bind, h]

lemma bind_error {p : Prog σ ε α} {f : α → Prog σ ε β} {s s' : σ} {e : ε}
    (h : p s = (.error e, s')) : (p >>= f) s = (.error e, s') := by
  simp only [bind, h]

lemma bind_eq_ok {p : Prog σ ε α} {f : α → Prog σ ε β} {s s' : σ} {b : β} :
    (p >>= f) s = (.ok b, s') ↔ ∃ a s₁, p s = (.ok a, s₁) ∧ f a s₁ = (.ok b, s') := by
  cases hp : p s with
  | mk r s₁ =>
    cases r with
    | ok a =>
      rw [bind_ok hp]
      exact ⟨fun h => ⟨a, s₁, rfl, h⟩, fun ⟨_, _, ha, h⟩ => by cases ha; exact h⟩
    | error e =>
      rw [bind_error hp]
      exact ⟨fun h => (nomatch h), fun ⟨_, _, ha, _⟩ => (nomatch ha)⟩

lemma bind_assoc {γ : Type} {p : Prog σ ε α} {f : α → Prog σ ε β} {g : β → Prog σ ε γ} :
    (p >>= f) >>= g = p >>= fun a => f a >>= g := by
  funext s
  simp only [bind]
  generalize p s = r
  obtain ⟨r | r, s'⟩ := r <;> rfl

lemma get_bind {f : σ → Prog σ ε β} {s : σ} : (get >>= f) s = f s s := rfl

lemma modify_bind {g : σ → σ} {f : Unit → Prog σ ε β} {s : σ} :
    (modify g >>= f) s = f () (g s) := rfl

lemma ofExcept_bind {r : Except ε α} {a : α} (h : r = .ok a) {f : α → Prog σ ε β} {s : σ} :
    (ofExcept r >>= f) s = f a s := by
  subst h
  rfl

lemma ofExcept_bind_eq_ok {r : Except ε α} {f : α → Prog σ ε β} {s s' : σ} {b : β} :
    (ofExcept r >>= f) s = (.ok b, s') ↔ ∃ a, r = .ok a ∧ f a s = (.ok b, s') := by
  rw [bind_eq_ok]
  refine exists_congr fun a => ⟨?_, fun ⟨hr, hf⟩ => ⟨s, Prod.ext hr rfl, hf⟩⟩
  rintro ⟨s₁, hr, hf⟩
  obtain ⟨hr, rfl⟩ := Prod.ext_iff.1 hr
  exact ⟨hr, hf⟩

lemma failIf_bind_eq_ok {c : Prop} [Decidable c] {e : ε} {f : Unit → Prog σ ε β} {s s' : σ} {b : β} :
    (failIf c e >>= f) s = (.ok b, s') ↔ ¬ c ∧ f () s = (.ok b, s') :=
  ofExcept_bind_eq_ok.trans exists_rejectIf

lemma ofExcept_bind_error {r : Except ε α} {e : ε} (h : r = .error e) {f : α → Prog σ ε β} {s : σ} :
    (ofExcept r >>= f) s = (.error e, s) := by
  subst h
  rfl

lemma failIf_bind {c : Prop} [Decidable c] {e : ε} (h : ¬ c) {f : Unit → Prog σ ε β} {s : σ} :
    (failIf c e >>= f) s = f () s := ofExcept_bind (rejectIf_eq_ok.2 h)

lemma failIf_bind_of {c : Prop} [Decidable c] {e : ε} (h : c) {f : Unit → Prog σ ε β} {s : σ} :
    (failIf c e >>= f) s = (.error e, s) :=
  ofExcept_bind_error (rejectIf_eq_error.2 ⟨h, rfl⟩)

/-- One program for each entry of a list, in order, up to the first error. -/
def mapList (f : α → Prog σ ε β) : List α → Prog σ ε (List β)
  | [] => pure []
  | a :: as => do
      let b ← f a
      let bs ← mapList f as
      pure (b :: bs)

/-- The same for programs without a value. -/
def forEach (f : α → Prog σ ε Unit) : List α → Prog σ ε Unit
  | [] => pure ()
  | a :: as => do
      f a
      forEach f as

/-! ### How a program ends -/

/-- `p` started in `s` returns into `Q` or stops with an error into `E`. -/
def Ends (p : Prog σ ε α) (s : σ) (Q : α → σ → Prop) (E : ε → σ → Prop) : Prop :=
  match p s with
  | (.ok a, s') => Q a s'
  | (.error e, s') => E e s'

variable {p : Prog σ ε α} {s : σ} {Q Q' : α → σ → Prop} {E E' : ε → σ → Prop}

lemma Ends.run_ok (h : p.Ends s Q E) {a : α} {s' : σ} (hr : p s = (.ok a, s')) : Q a s' := by
  unfold Ends at h; rw [hr] at h; exact h

lemma Ends.run_error (h : p.Ends s Q E) {e : ε} {s' : σ} (hr : p s = (.error e, s')) : E e s' := by
  unfold Ends at h; rw [hr] at h; exact h

lemma ends_of_run {r : Except ε α} {s' : σ} (h : p s = (r, s')) :
    p.Ends s Q E ↔ (ofExcept r : Prog σ ε α).Ends s' Q E := by
  unfold Ends; rw [h]; rfl

lemma Ends.runs (h : p.Ends s Q E) :
    p.Ends s (fun a s' => p s = (.ok a, s') ∧ Q a s') (fun e s' => p s = (.error e, s') ∧ E e s') := by
  cases hrun : p s with
  | mk r s' =>
    rw [ends_of_run hrun] at h ⊢
    cases r with
    | ok _ | error _ => exact ⟨rfl, h⟩

lemma Ends.mono (h : p.Ends s Q E) (hQ : ∀ a s', Q a s' → Q' a s')
    (hE : ∀ e s', E e s' → E' e s') : p.Ends s Q' E' := by
  unfold Ends at h ⊢
  split at h
  · exact hQ _ _ h
  · exact hE _ _ h

lemma Ends.and (h : p.Ends s Q E) (h' : p.Ends s Q' E') :
    p.Ends s (fun a s' => Q a s' ∧ Q' a s') (fun e s' => E e s' ∧ E' e s') := by
  unfold Ends at h h' ⊢
  generalize p s = r at h h' ⊢
  obtain ⟨r | r, s'⟩ := r <;> exact ⟨h, h'⟩

lemma ends_of_forall (hQ : ∀ a s', Q a s') (hE : ∀ e s', E e s') : p.Ends s Q E := by
  unfold Ends
  split
  · exact hQ _ _
  · exact hE _ _

/-- What holds of every end holds of the result and the state there are. -/
lemma Ends.result {R : Except ε α → σ → Prop}
    (h : p.Ends s (fun a => R (.ok a)) fun e => R (.error e)) : R (p s).1 (p s).2 := by
  unfold Ends at h
  generalize p s = r at h
  obtain ⟨r | r, s'⟩ := r <;> exact h

/-- An end that does not look at the value is one about the state left. -/
lemma ends_state {I : σ → Prop} : p.Ends s (fun _ => I) (fun _ => I) ↔ I (p s).2 := by
  unfold Ends
  generalize p s = r
  obtain ⟨r | r, s'⟩ := r <;> rfl

lemma Ends.state {I : σ → Prop} (h : p.Ends s Q E) (hQ : ∀ a s', Q a s' → I s')
    (hE : ∀ e s', E e s' → I s') : I (p s).2 := ends_state.1 (h.mono hQ hE)

@[simp] lemma ends_pure (a : α) : (pure a : Prog σ ε α).Ends s Q E ↔ Q a s := Iff.rfl

@[simp] lemma ends_bind {q : Prog σ ε β} {f : β → Prog σ ε α} :
    (q >>= f).Ends s Q E ↔ q.Ends s (fun b s' => (f b).Ends s' Q E) E := by
  unfold Ends
  simp only [bind]
  generalize q s = r
  obtain ⟨r | r, s'⟩ := r <;> rfl

@[simp] lemma ends_fail (e : ε) : (fail e : Prog σ ε α).Ends s Q E ↔ E e s := Iff.rfl

@[simp] lemma ends_get {Q : σ → σ → Prop} : (get : Prog σ ε σ).Ends s Q E ↔ Q s s := Iff.rfl

@[simp] lemma ends_gets (f : σ → α) : (gets f : Prog σ ε α).Ends s Q E ↔ Q (f s) s := Iff.rfl

@[simp] lemma ends_modify {Q : Unit → σ → Prop} (f : σ → σ) :
    (modify f : Prog σ ε Unit).Ends s Q E ↔ Q () (f s) := Iff.rfl

@[simp] lemma ends_ofExcept (r : Except ε α) : (ofExcept r : Prog σ ε α).Ends s Q E ↔
    match r with | .ok a => Q a s | .error e => E e s := by
  cases r <;> rfl

@[simp] lemma ends_failIf {Q : Unit → σ → Prop} {c : Prop} [Decidable c] (e : ε) :
    (failIf c e : Prog σ ε Unit).Ends s Q E ↔ (c → E e s) ∧ (¬ c → Q () s) := by
  unfold failIf rejectIf
  split_ifs with h <;> simp [h]

lemma ends_failIf_of {Q : Unit → σ → Prop} {c : Prop} [Decidable c] {e : ε} (h : c) :
    (failIf c e : Prog σ ε Unit).Ends s Q E ↔ E e s := by
  simp [h]

lemma ends_failIf_of_not {Q : Unit → σ → Prop} {c : Prop} [Decidable c] {e : ε} (h : ¬ c) :
    (failIf c e : Prog σ ε Unit).Ends s Q E ↔ Q () s := by
  simp [h]

lemma ends_bind_of_forall {q : Prog σ ε β} {f : β → Prog σ ε α} (hE : ∀ e s, E e s)
    (h : ∀ b s, (f b).Ends s Q E) : (q >>= f).Ends s Q E :=
  ends_bind.2 (ends_of_forall h hE)

lemma ends_failIf_bind {c : Prop} [Decidable c] {e : ε} {f : Unit → Prog σ ε α} (he : E e s)
    (h : ¬ c → (f ()).Ends s Q E) : (failIf c e >>= f).Ends s Q E := by
  rw [ends_bind, ends_failIf]
  exact ⟨fun _ => he, h⟩

lemma ends_ofExcept_bind {r : Except ε β} {b : β} {f : β → Prog σ ε α} (hr : r = .ok b) :
    (ofExcept r >>= f).Ends s Q E ↔ (f b).Ends s Q E := by
  rw [ends_bind, hr]
  rfl

@[simp] lemma ends_mapErr (f : ε → ε') {E : ε' → σ → Prop} :
    (p.mapErr f).Ends s Q E ↔ p.Ends s Q (fun e s' => E (f e) s') := by
  unfold Ends mapErr
  generalize p s = r
  obtain ⟨r | r, s'⟩ := r <;> rfl

@[simp] lemma ends_attempt {Q : Except ε α → σ → Prop} {E : ε' → σ → Prop} :
    (p.attempt : Prog σ ε' (Except ε α)).Ends s Q E ↔
      p.Ends s (fun a s' => Q (.ok a) s') (fun e s' => Q (.error e) s') := by
  unfold Ends attempt
  generalize p s = r
  obtain ⟨r | r, s'⟩ := r <;> rfl

@[simp] lemma ends_onFail {c : Prog σ Empty Unit} :
    (p.onFail c).Ends s Q E ↔ p.Ends s Q (fun e s' => E e (c s').2) := by
  unfold Ends onFail
  generalize p s = r
  obtain ⟨r | r, s'⟩ := r <;> rfl

@[simp] lemma ends_zoom {view : τ → σ} {put : σ → τ → τ} {t : τ} {Q : α → τ → Prop}
    {E : ε → τ → Prop} : (p.zoom view put).Ends t Q E ↔
      p.Ends (view t) (fun a s' => Q a (put s' t)) (fun e s' => E e (put s' t)) := by
  unfold Ends zoom
  generalize p (view t) = r
  obtain ⟨r | r, s'⟩ := r <;> rfl

lemma ends_ite {c : Prop} [Decidable c] {q : Prog σ ε α} :
    (if c then p else q).Ends s Q E ↔ (c → p.Ends s Q E) ∧ (¬ c → q.Ends s Q E) := by
  split_ifs with h <;> simp [h]

/-- **The rule of a loop over a list.** What one turn keeps, with the entries done and the
results so far, holds at the end; an error leaves what a turn leaves. -/
theorem ends_mapList {f : α → Prog σ ε β} {all : List α} {I : List α → List β → σ → Prop}
    {E : ε → σ → Prop}
    (step : ∀ done a rest bs s, all = done ++ a :: rest → I done bs s →
      (f a).Ends s (fun b s' => I (done ++ [a]) (bs ++ [b]) s') E)
    {s : σ} (h : I [] [] s) : (mapList f all).Ends s (fun bs s' => I all bs s') E := by
  suffices key : ∀ (rest done : List α) (bs : List β) (s : σ), all = done ++ rest → I done bs s →
      (mapList f rest).Ends s (fun bs' s' => I all (bs ++ bs') s') E from
    (key all [] [] s rfl h).mono (fun _ _ h => h) fun _ _ h => h
  intro rest
  induction rest with
  | nil =>
    intro done bs s hall h
    simpa [mapList, hall] using h
  | cons a rest ih =>
    intro done bs s hall h
    simp only [mapList, ends_bind, ends_pure]
    refine (step done a rest bs s hall h).mono (fun b s' hb => ?_) (fun _ _ he => he)
    refine (ih (done ++ [a]) (bs ++ [b]) s' (by simp [hall]) hb).mono (fun bs' s'' h' => ?_)
      (fun _ _ he => he)
    simpa using h'

/-! ### What programs do to the state -/

/-- However the program ends, the state after it is related to the one before. -/
def Along (R : σ → σ → Prop) (p : Prog σ ε α) : Prop :=
  ∀ s, p.Ends s (fun _ s' => R s s') (fun _ s' => R s s')

section Along

variable {R : σ → σ → Prop}

lemma Along.run (h : Along R p) (s : σ) : R s (p s).2 := by
  cases hrun : p s with
  | mk r s' =>
    cases r with
    | ok a => exact (h s).run_ok hrun
    | error e => exact (h s).run_error hrun

lemma along_pure [Std.Refl R] (a : α) : Along R (pure a : Prog σ ε α) := fun s => refl_of R s

lemma along_fail [Std.Refl R] (e : ε) : Along R (fail e : Prog σ ε α) := fun s => refl_of R s

lemma along_modify {f : σ → σ} (h : ∀ s, R s (f s)) : Along R (modify f : Prog σ ε Unit) := h

lemma Along.bind [IsTrans σ R] {q : α → Prog σ ε β} (hp : Along R p) (hq : ∀ a, Along R (q a)) :
    Along R (p >>= q) := fun s =>
  ends_bind.2 ((hp s).mono (fun a s' h => (hq a s').mono (fun _ _ h' => trans_of R h h')
    (fun _ _ h' => trans_of R h h')) fun _ _ h => h)

lemma along_get_bind {q : σ → Prog σ ε β} (hq : ∀ s, Along R (q s)) :
    Along R (get >>= q) := fun s => hq s s

lemma along_failIf [Std.Refl R] (c : Prop) [Decidable c] (e : ε) :
    Along R (failIf c e : Prog σ ε Unit) := fun s => (ends_failIf e).2 ⟨fun _ => refl_of R s, fun _ => refl_of R s⟩

lemma along_forEach [Std.Refl R] [IsTrans σ R] {f : β → Prog σ ε Unit} (h : ∀ b, Along R (f b)) (bs : List β) :
    Along R (forEach f bs) := by
  induction bs with
  | nil => exact along_pure ()
  | cons b bs ih => exact (h b).bind fun _ => ih

end Along

/-! ### Errors that do not occur -/

/-- The program does not stop with the error `x`. -/
def Avoids (x : ε) (p : Prog σ ε α) : Prop := ∀ s, p.Ends s (fun _ _ => True) (fun e _ => e ≠ x)

section Avoids

variable {x : ε}

lemma avoids_pure (a : α) : Avoids x (pure a : Prog σ ε α) := fun _ => trivial

lemma avoids_fail {e : ε} (h : e ≠ x) : Avoids x (fail e : Prog σ ε α) := fun _ => h

lemma avoids_gets (f : σ → α) : Avoids x (gets f : Prog σ ε α) := fun _ => trivial

lemma avoids_modify (f : σ → σ) : Avoids x (modify f : Prog σ ε Unit) := fun _ => trivial

lemma Avoids.bind {q : α → Prog σ ε β} (hp : Avoids x p) (hq : ∀ a, Avoids x (q a)) :
    Avoids x (p >>= q) := fun s =>
  ends_bind.2 ((hp s).mono (fun a s' _ => hq a s') fun _ _ h => h)

lemma avoids_ofExcept {r : Except ε α} (h : r ≠ .error x) : Avoids x (ofExcept r : Prog σ ε α) := by
  intro s
  rw [ends_ofExcept]
  cases r with
  | ok a => trivial
  | error e => exact fun he => h (by rw [he])

lemma avoids_mapErr {f : ε' → ε} {q : Prog σ ε' α} (h : ∀ e, f e ≠ x) : Avoids x (q.mapErr f) :=
  fun _ => (ends_mapErr f).2 (ends_of_forall (fun _ _ => trivial) fun e _ => h e)

end Avoids

/-- Programs that come back and keep something true, one after the other. -/
lemma forEach_run {f : β → Prog σ ε Unit} {bs : List β} {I : σ → Prop}
    (h : ∀ b ∈ bs, ∀ s, I s → ∃ s', f b s = (.ok (), s') ∧ I s') (hs : I s) :
    ∃ s', forEach f bs s = (.ok (), s') ∧ I s' := by
  induction bs generalizing s with
  | nil => exact ⟨s, rfl, hs⟩
  | cons b bs ih =>
    obtain ⟨s', hrun, hs'⟩ := h b List.mem_cons_self s hs
    unfold forEach
    rw [bind_ok hrun]
    exact ih (fun b hb => h b (List.mem_cons_of_mem _ hb)) hs'

end Prog

end PipewireNative.Lib
