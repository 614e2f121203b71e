import PipewireNative.Pod.Pops

/-!
Programs that pop, watched. A script is a sequence of pops with scripts for their closures; it goes
on after a pop that failed, and ends with a value or an error. What it sees is written down: every
pop with the parser before and after it, every parser and slice that a closure gets, and every raw
pod.
-/

namespace PipewireNative.Pod

open Lib Lib.Word Prog

/-- The pops. -/
inductive Op (E : Enums) where
  | pod (t : PodTy E)
  | raw
  | array
  | choice
  | struct
  | object
  | property

/-- What is seen. -/
inductive Sight (E : Enums) where
  /-- A pop that came to something, to nothing, or to a fault. -/
  | pop (op : Op E) (q : Parser) (r : Except Fault Bool) (q' : Parser)
  /-- A closure of a pop gets a parser. -/
  | nested (q inner : Parser)
  /-- A closure of a pop gets some bytes. -/
  | part (q : Parser) (bytes : List UInt8)
  /-- A raw pod was popped. -/
  | raw (q : Parser) (r : RawPod)

variable {E : Enums}

/-- How many bytes a pop takes: those of a pod, behind the key and the flags of a property. -/
def Op.Takes : Op E → List UInt8 → ℕ → Prop
  | .pod t, data, n => t.Takes data n
  | .property, data, n => n = 8 + frame (declared (data.drop 8))
  | _, data, n => n = frame (declared data)

/-- All is as it should be: no panic, the parser in its data, moved by what was taken; parsers and
slices in the body of what is popped, and raw pods in the data of the parser. -/
def Sight.Sound : Sight E → Prop
  | .pop op q (.ok true) q' => ∃ n, op.Takes (q.data.drop q.pos) n ∧ q.Moved n q'
  | .pop _ q (.ok false) q' => q' = q ∧ q.pos = q.data.length
  | .pop _ q (.error f) q' => f ≠ .panic ∧ q.Near q'
  | .nested q inner => inner.pos = 0 ∧ q.Body inner.data
  | .part q bytes => q.Body bytes
  | .raw q r => ∃ i, q.pos ≤ i ∧ i + r.data.length ≤ q.data.length ∧
      r.data = (q.data.drop i).take r.data.length

/-- Pops one behind the other. What a closure returns that gets no parser may depend on all that
was seen. -/
inductive Script (E : Enums) where
  | stop (result : Except Error Unit)
  | pod (t : PodTy E) (next : Script E)
  | raw (next : Script E)
  | array (item : List (Sight E) → Except Error Unit) (next : Script E)
  | choice (parse : List (Sight E) → Except Error Unit) (next : Script E)
  | struct (inner next : Script E)
  | object (type : ObjectType) (i : E.Name) (inner next : Script E)
  | objectRaw (i : E.Name) (inner next : Script E)
  | property (k : E.Name) (next : Script E)
  | propertyRaw (next : Script E)

/-- A program that is watched. -/
abbrev Watched (E : Enums) (α : Type) := Pop (List (Sight E)) α

namespace Watched

def see (e : Sight E) : Watched E Unit := .modify fun s => (s.1, s.2 ++ [e])

/-- A pop, and what came of it. -/
def watch (op : Op E) (p : Watched E Bool) : Watched E Unit := do
  let q ← Parser.here
  let r ← p.attempt
  let q' ← Parser.here
  see (.pop op q r q')

/-- A closure that gets a parser. -/
def closure (q : Parser) (inner : Watched E Unit) : Watched E Unit := do
  let q' ← Parser.here
  see (.nested q q')
  inner

/-- A closure that gets some bytes. -/
def given (q : Parser) (bytes : List (List UInt8)) (result : List (Sight E) → Except Error Unit) :
    Prog (List (Sight E)) Fault Unit := do
  .modify fun w => w ++ bytes.map (.part q)
  let w ← .get
  .ofExcept ((result w).mapError .error)

/-- A property that was popped, or none. -/
def property {κ : Type} (q : Parser) : Option (κ × PropertyFlags × RawPod) → Watched E Bool
  | none => pure false
  | some p => do
    see (.raw q p.2.2)
    pure true

end Watched

open Watched

/-- The program of a script. -/
def Script.run : Script E → Watched E Unit
  | stop result => .ofExcept (result.mapError .error)
  | pod t next => do
    watch (.pod t) do
      let _ ← Parser.popPod t
      pure true
    next.run
  | raw next => do
    let q ← Parser.here
    watch .raw do
      let r ← Parser.popRawPod
      see (.raw q r)
      pure true
    next.run
  | array item next => do
    let q ← Parser.here
    watch .array do
      let _ ← Parser.popArrayRaw fun _ bytes => given q [bytes] item
      pure true
    next.run
  | choice parse next => do
    let q ← Parser.here
    watch .choice do
      let _ ← Parser.popChoiceRaw fun _ c => given q c.values parse
      pure true
    next.run
  | struct inner next => do
    let q ← Parser.here
    watch .struct do
      let _ ← Parser.popStruct (closure q inner.run)
      pure true
    next.run
  | object type i inner next => do
    let q ← Parser.here
    watch .object do
      let _ ← Parser.popObject type i fun _ => closure q inner.run
      pure true
    next.run
  | objectRaw i inner next => do
    let q ← Parser.here
    watch .object do
      let _ ← Parser.popObjectRaw i fun _ _ => closure q inner.run
      pure true
    next.run
  | property k next => do
    let q ← Parser.here
    watch .property (Parser.popProperty k >>= Watched.property q)
    next.run
  | propertyRaw next => do
    let q ← Parser.here
    watch .property (Parser.popPropertyRaw >>= Watched.property q)
    next.run

/-! ### All that is seen is as it should be -/

/-- Nothing else was seen. -/
def AllSound (w : List (Sight E)) : Prop := ∀ e ∈ w, e.Sound

/-- The parser is in its data, and nothing else was seen. -/
def Well (q : Parser) (s : Parser × List (Sight E)) : Prop := q.Near s.1 ∧ AllSound s.2

/-- A fault that is no panic, and what was seen up to it. -/
def Calmly (f : Fault) (w : List (Sight E)) : Prop := f ≠ .panic ∧ AllSound w

variable {q q' : Parser} {w : List (Sight E)}

lemma AllSound.append {w' : List (Sight E)} (h : AllSound w) (h' : AllSound w') :
    AllSound (w ++ w') := by
  intro e he
  exact (List.mem_append.1 he).elim (h e) (h' e)

lemma AllSound.snoc (h : AllSound w) {e : Sight E} (he : e.Sound) : AllSound (w ++ [e]) :=
  h.append fun e' he' => by
    rw [List.mem_singleton.1 he']
    exact he

lemma AllSound.calmly (h : AllSound w) {f : Fault} (hf : f ≠ .panic) : Calmly f w := ⟨hf, h⟩

lemma Sight.Sound.near {op : Op E} {r : Except Fault Bool} (h : (Sight.pop op q r q').Sound) :
    q.Near q' := by
  match r, h with
  | .ok true, ⟨_, _, hmoved⟩ => exact hmoved.near
  | .ok false, ⟨hsame, hend⟩ =>
    subst hsame
    exact ⟨rfl, Nat.le_of_eq hend⟩
  | .error f, ⟨_, hnear⟩ => exact hnear

lemma step_ends {op : Op E} {p : Watched E Bool} {next : Watched E Unit}
    (hp : p.Ends (q, w) (fun b s => (Sight.pop op q (.ok b) s.1).Sound ∧ AllSound s.2)
      (fun f s => q.Near s.1 ∧ Calmly f s.2))
    (hnext : ∀ q' w', q'.Inside → AllSound w' →
      next.Ends (q', w') (fun _ => Well q') (fun f s => f ≠ .panic ∧ Well q' s)) :
    (watch op p >>= fun _ => next).Ends (q, w) (fun _ => Well q)
      (fun f s => f ≠ .panic ∧ Well q s) := by
  have hgo : ∀ (r : Except Fault Bool) (s : Parser × List (Sight E)),
      (Sight.pop op q r s.1).Sound → AllSound s.2 →
        next.Ends (s.1, s.2 ++ [.pop op q r s.1]) (fun _ => Well q)
          (fun f s => f ≠ .panic ∧ Well q s) := by
    intro r s hsight hsound
    have hnear := hsight.near
    refine (hnext s.1 _ hnear.2 (hsound.snoc hsight)).mono ?_ ?_
    · exact fun _ s' h => ⟨hnear.trans h.1, h.2⟩
    · exact fun f s' h => ⟨h.1, hnear.trans h.2.1, h.2.2⟩
  unfold watch see
  rw [ends_bind, ends_bind, Parser.ends_here, ends_bind, ends_attempt]
  refine hp.mono ?_ ?_
  · rintro b ⟨q', w'⟩ ⟨hsight, hsound⟩
    exact hgo (.ok b) _ hsight hsound
  · rintro f ⟨q', w'⟩ ⟨hnear, hf, hsound⟩
    exact hgo (.error f) _ ⟨hf, hnear⟩ hsound

lemma closure_ends {inner : Watched E Unit} (hw : AllSound w)
    (hinner : ∀ q' w', q'.Inside → AllSound w' →
      inner.Ends (q', w') (fun _ => Well q') (fun f s => f ≠ .panic ∧ Well q' s))
    (body : List UInt8) (hbody : q.Body body) :
    (closure q inner).Ends (.new body, w) (fun _ s => AllSound s.2) (fun f s => Calmly f s.2) := by
  have hsight : (Sight.nested q (.new body) : Sight E).Sound := ⟨rfl, hbody⟩
  refine (hinner (.new body) _ (Nat.zero_le _) (hw.snoc hsight)).mono ?_ ?_
  · exact fun _ s h => h.2
  · exact fun f s h => ⟨h.1, h.2.2⟩

lemma given_ends {bytes : List (List UInt8)} {result : List (Sight E) → Except Error Unit}
    (hbytes : ∀ bs ∈ bytes, q.Body bs) (hw : AllSound w) :
    (given q bytes result).Ends w (fun _ => AllSound) Calmly := by
  have hnew : AllSound (w ++ bytes.map (.part q)) := by
    refine hw.append fun e he => ?_
    obtain ⟨bs, hbs, rfl⟩ := List.mem_map.1 he
    exact hbytes bs hbs
  unfold given
  rw [ends_bind, ends_modify, ends_bind, ends_get, ends_ofExcept]
  cases result (w ++ bytes.map (.part q)) with
  | ok _ => exact hnew
  | error e => exact hnew.calmly (by simp)

lemma property_ends {κ : Type} {r : Option (κ × PropertyFlags × RawPod)} (h : q.PropertyAt r q')
    (hw : AllSound w) : (Watched.property q r).Ends (q', w)
      (fun b s => (Sight.pop .property q (.ok b) s.1 : Sight E).Sound ∧ AllSound s.2)
      (fun f s => q.Near s.1 ∧ Calmly f s.2) := by
  cases r with
  | none => exact ⟨h, hw⟩
  | some p =>
    obtain ⟨hdata, hmoved⟩ := h
    have hlen : p.2.2.data.length = frame (wordAt q.data (q.pos + 8) 4) := by
      have hle := hmoved.2
      rw [hdata, List.length_take, List.length_drop]
      omega
    have hraw : (Sight.raw q p.2.2 : Sight E).Sound := by
      refine ⟨q.pos + 8, by omega, ?_, ?_⟩
      · have hle := hmoved.2
        omega
      · rw [hlen]
        exact hdata
    refine ⟨⟨_, ?_, hmoved⟩, hw.snoc hraw⟩
    change _ = 8 + frame (declared ((q.data.drop q.pos).drop 8))
    rw [declared, List.drop_drop, wordAt_drop]

namespace Script

lemma sound_pop {op : Op E} (hop : ∀ data n, op.Takes data n ↔ n = frame (declared data))
    (hmoved : q.Moved (frame q.declared) q') : (Sight.pop op q (.ok true) q').Sound := by
  refine ⟨frame q.declared, (hop _ _).2 ?_, hmoved⟩
  rw [q.declared_drop]

/-- **One script.** No panic, and all that is seen is as it should be. -/
theorem run_ends (script : Script E) (hq : q.Inside) (hw : AllSound w) :
    script.run.Ends (q, w) (fun _ => Well q) (fun f s => f ≠ .panic ∧ Well q s) := by
  induction script generalizing q w with
  | stop result =>
    unfold run
    rw [ends_ofExcept]
    cases result with
    | ok _ => exact ⟨hq.near, hw⟩
    | error e => exact ⟨by simp, hq.near, hw⟩
  | pod t next ih =>
    unfold run
    refine step_ends ?_ fun _ _ => ih
    rw [ends_bind]
    refine (Parser.popPod_ends t hq fun f => hw.calmly).mono ?_ fun _ _ h => h
    rintro v ⟨q', w'⟩ ⟨⟨n, htakes, hmoved⟩, rfl⟩
    exact ⟨⟨n, htakes, hmoved⟩, hw⟩
  | raw next ih =>
    unfold run
    rw [ends_bind, Parser.ends_here]
    refine step_ends ?_ fun _ _ => ih
    rw [ends_bind]
    refine (Parser.popRawPod_ends hq fun f => hw.calmly).mono ?_ fun _ _ h => h
    rintro r ⟨q', w'⟩ ⟨hdata, hmoved, rfl⟩
    have hle := hmoved.2
    have hlen : r.data.length = frame q.declared := by
      rw [hdata, List.length_take, List.length_drop]
      omega
    have hraw : (Sight.raw q r : Sight E).Sound := by
      refine ⟨q.pos, Nat.le_refl _, by omega, ?_⟩
      rw [hlen]
      exact hdata
    exact ⟨sound_pop (fun _ _ => Iff.rfl) hmoved, hw.snoc hraw⟩
  | array item next ih =>
    unfold run
    rw [ends_bind, Parser.ends_here]
    refine step_ends ?_ fun _ _ => ih
    rw [ends_bind]
    refine (Parser.popArrayRaw_ends hq (fun f => hw.calmly) hw ?_).mono ?_ fun _ _ h => h
    · intro type bytes w' hbody hw'
      exact given_ends (by simpa using hbody) hw'
    · rintro n ⟨q', w'⟩ ⟨hmoved, hw'⟩
      exact ⟨sound_pop (fun _ _ => Iff.rfl) hmoved, hw'⟩
  | choice parse next ih =>
    unfold run
    rw [ends_bind, Parser.ends_here]
    refine step_ends ?_ fun _ _ => ih
    rw [ends_bind]
    refine (Parser.popChoiceRaw_ends hq (fun f => hw.calmly)
      fun type c hc => given_ends hc hw).mono ?_ fun _ _ h => h
    · rintro n ⟨q', w'⟩ ⟨hmoved, hw'⟩
      exact ⟨sound_pop (fun _ _ => Iff.rfl) hmoved, hw'⟩
  | struct inner next ihi ihn =>
    unfold run
    rw [ends_bind, Parser.ends_here]
    refine step_ends ?_ fun _ _ => ihn
    rw [ends_bind]
    refine (Parser.popStruct_ends hq (fun f => hw.calmly)
      (closure_ends hw fun _ _ => ihi)).mono ?_ fun _ _ h => h
    rintro r ⟨q', w'⟩ ⟨hmoved, hw'⟩
    exact ⟨sound_pop (fun _ _ => Iff.rfl) hmoved, hw'⟩
  | object type i inner next ihi ihn =>
    unfold run
    rw [ends_bind, Parser.ends_here]
    refine step_ends ?_ fun _ _ => ihn
    rw [ends_bind]
    refine (Parser.popObject_ends type i hq (fun f => hw.calmly)
      fun _ => closure_ends hw fun _ _ => ihi).mono ?_ fun _ _ h => h
    rintro r ⟨q', w'⟩ ⟨hmoved, hw'⟩
    exact ⟨sound_pop (fun _ _ => Iff.rfl) hmoved, hw'⟩
  | objectRaw i inner next ihi ihn =>
    unfold run
    rw [ends_bind, Parser.ends_here]
    refine step_ends ?_ fun _ _ => ihn
    rw [ends_bind]
    refine (Parser.popObjectRaw_ends i hq (fun f => hw.calmly)
      fun _ _ => closure_ends hw fun _ _ => ihi).mono ?_ fun _ _ h => h
    rintro r ⟨q', w'⟩ ⟨hmoved, hw'⟩
    exact ⟨sound_pop (fun _ _ => Iff.rfl) hmoved, hw'⟩
  | property k next ih =>
    unfold run
    rw [ends_bind, Parser.ends_here]
    refine step_ends ?_ fun _ _ => ih
    rw [ends_bind]
    refine (Parser.popProperty_ends k hq fun f => hw.calmly).mono ?_ fun _ _ h => h
    rintro r ⟨q', w'⟩ ⟨hat, rfl⟩
    exact property_ends hat hw
  | propertyRaw next ih =>
    unfold run
    rw [ends_bind, Parser.ends_here]
    refine step_ends ?_ fun _ _ => ih
    rw [ends_bind]
    refine (Parser.popPropertyRaw_ends hq fun f => hw.calmly).mono ?_ fun _ _ h => h
    rintro r ⟨q', w'⟩ ⟨hat, rfl⟩
    exact property_ends hat hw

/-- **Whatever is popped from whatever bytes.** The program does not panic, the parser is in the
data at its end, and at every pop of it and of its closures all is as it should be. -/
theorem run_sound (script : Script E) (data : List UInt8) :
    (script.run (.new data, [])).1 ≠ .error .panic ∧
      (script.run (.new data, [])).2.1.data = data ∧
      (script.run (.new data, [])).2.1.pos ≤ data.length ∧
      ∀ e ∈ (script.run (.new data, [])).2.2, e.Sound := by
  have hrun := script.run_ends (q := .new data) (w := []) (Nat.zero_le _)
    fun _ he => absurd he List.not_mem_nil
  have hends : script.run.Ends (.new data, [])
      (fun a s => (.ok a : Except Fault Unit) ≠ .error .panic ∧ Well (.new data) s)
      (fun f s => (.error f : Except Fault Unit) ≠ .error .panic ∧ Well (.new data) s) := by
    refine hrun.mono ?_ ?_
    · exact fun _ s h => ⟨by simp, h⟩
    · rintro f s ⟨hf, h⟩
      exact ⟨by simpa using hf, h⟩
  obtain ⟨hcalm, ⟨hdata, hinside⟩, hsound⟩ :=
    Ends.result (R := fun r s => r ≠ .error Fault.panic ∧ Well (.new data) s) hends
  unfold Parser.Inside at hinside
  rw [hdata] at hinside
  exact ⟨hcalm, hdata, hinside, hsound⟩

end Script

end PipewireNative.Pod
