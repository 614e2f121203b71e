import PipewireNative.Pod.Pops

/-!
Pops that fail. Most of them move the parser only when all is done, so that the same bytes can be
popped again; an object moves it before its closure is called, and a property before its value is
looked at.
-/

namespace PipewireNative.Pod

open Lib Lib.Word Prog

variable {E : Enums} {ω α β : Type}

namespace Parser

/-- A program that leaves the parser at `q` when it fails there. -/
def Keeps (q : Parser) (p : Pop ω α) : Prop :=
  ∀ w, p.Ends (q, w) (fun _ _ => True) (fun _ s => s.1 = q)

variable {q : Parser} {w : ω}

lemma keeps_here {f : Parser → Pop ω α} (h : Keeps q (f q)) : Keeps q (here >>= f) :=
  fun w => ends_bind.2 (h w)

lemma keeps_fail {e : Fault} : Keeps q (fail e : Pop ω α) := fun _ => rfl

lemma keeps_ofExcept {r : Read β} {f : β → Pop ω α} (h : ∀ b, Keeps q (f b)) :
    Keeps q (.ofExcept r >>= f) := by
  intro w
  rw [ends_bind, ends_ofExcept]
  cases r with
  | error e => rfl
  | ok b => exact h b w

lemma keeps_failIf {c : Prop} [Decidable c] {e : Fault} {f : Unit → Pop ω α} (h : Keeps q (f ())) :
    Keeps q (.failIf c e >>= f) := fun w => ends_failIf_bind rfl fun _ => h w

lemma keeps_outside {p : Prog ω Fault β} {f : β → Pop ω α} (h : ∀ b, Keeps q (f b)) :
    Keeps q (outside p >>= f) := by
  intro w
  rw [ends_bind, ends_outside]
  exact ends_of_forall (fun b w' => h b w') fun _ _ => rfl

lemma keeps_nested {body : List UInt8} {p : Pop ω β} {f : β → Pop ω α} (h : ∀ b, Keeps q (f b)) :
    Keeps q (nested body p >>= f) := by
  intro w
  rw [ends_bind, ends_nested]
  exact ends_of_forall (fun b s => h b s.2) fun _ _ => rfl

lemma keeps_advance {n : ℕ} {a : α} : Keeps q (advance n >>= fun _ => pure a : Pop ω α) :=
  fun _ => trivial

lemma keeps_popPod (t : PodTy E) : Keeps q (popPod t : Pop ω t.Val) :=
  keeps_here (keeps_ofExcept fun _ => keeps_ofExcept fun _ => keeps_failIf (keeps_failIf keeps_advance))

lemma keeps_popRawPod : Keeps q (popRawPod : Pop ω RawPod) :=
  keeps_here (keeps_ofExcept fun _ => keeps_ofExcept fun _ => keeps_advance)

lemma keeps_popArrayRaw (item : PodType → List UInt8 → Prog ω Fault Unit) :
    Keeps q (popArrayRaw item) := by
  refine keeps_here (keeps_failIf (keeps_ofExcept fun _ => keeps_failIf (keeps_ofExcept fun _ =>
    keeps_failIf (keeps_ofExcept fun _ => keeps_failIf (keeps_ofExcept fun _ => keeps_failIf
      (keeps_ofExcept fun _ => ?_))))))
  split
  · exact keeps_fail
  · exact keeps_failIf (keeps_ofExcept fun _ => keeps_outside fun _ => keeps_advance)

lemma keeps_popChoiceRaw (parse : PodType → Choice (List UInt8) → Prog ω Fault Unit) :
    Keeps q (popChoiceRaw parse) := by
  refine keeps_here (keeps_ofExcept fun _ => keeps_failIf (keeps_ofExcept fun _ => keeps_failIf
    (keeps_ofExcept fun _ => keeps_failIf (keeps_ofExcept fun _ => keeps_failIf
      (keeps_ofExcept fun _ => keeps_ofExcept fun _ => keeps_failIf (keeps_ofExcept fun _ => ?_))))))
  split
  · exact keeps_fail
  · exact keeps_failIf (keeps_ofExcept fun _ => keeps_outside fun _ => keeps_advance)

lemma keeps_popStruct (parse : Pop ω α) : Keeps q (popStruct parse) :=
  keeps_here (keeps_failIf (keeps_ofExcept fun _ => keeps_ofExcept fun _ => keeps_failIf
    (keeps_ofExcept fun _ => keeps_failIf (keeps_ofExcept fun _ => keeps_nested fun _ =>
      keeps_advance))))

/-! ### Objects -/

/-- The properties of the object at the parser. -/
def window (q : Parser) : List UInt8 := (q.data.drop (q.pos + 16)).take (q.declared - 8)

/-- What becomes of a closure that is called for an object: the parser is moved over the header
before, and over the rest behind it. -/
lemma objectBody_run {f : Pop ω α} (height : 8 ≤ q.declared)
    (hroom : q.pos + frame q.declared ≤ q.data.length) :
    objectBody q.declared (frame q.declared) f (q, w) =
      match f (.new q.window, w) with
      | (.ok a, s) => (.ok (a, frame q.declared), ⟨q.data, q.pos + frame q.declared⟩, s.2)
      | (.error e, s) => (.error e, ⟨q.data, q.pos + 16⟩, s.2) := by
  have hframe : frame q.declared = 8 + q.declared + pad8 q.declared := rfl
  have hslice : (slice q.data (q.pos + 16) (q.pos + 16 + q.declared - 8) : Read _) = .ok q.window := by
    rw [slice_of_le (by omega) (by omega), window]
    congr 2
    omega
  unfold objectBody
  rw [advance_bind, here_bind, ofExcept_bind hslice]
  cases hrun : f (.new q.window, w) with
  | mk r s =>
    cases r with
    | error e =>
      have hnested : nested q.window f (⟨q.data, q.pos + 16⟩, w) =
          (.error e, ⟨q.data, q.pos + 16⟩, s.2) := by
        simp only [nested, zoom, hrun]
      exact bind_error hnested
    | ok a =>
      have hnested : nested q.window f (⟨q.data, q.pos + 16⟩, w) =
          (.ok a, ⟨q.data, q.pos + 16⟩, s.2) := by
        simp only [nested, zoom, hrun]
      rw [bind_ok hnested, advance_bind]
      have hend : q.pos + 16 + (q.declared - 8 + pad8 q.declared) = q.pos + frame q.declared := by
        omega
      simp only [hend]
      rfl

/-! ### Properties -/

/-- A property whose flags are accepted has a value that is a pod. -/
def Valued (q : Parser) : Prop :=
  (PropertyFlags.fromBits (.ofNat (wordAt q.data (q.pos + 4) 4))).isSome = true →
    (RawPod.wrap (q.data.drop (q.pos + 8))).isOk = true

/-- Where the parser is after a property whose key was read and that came to an error. -/
lemma propertyTail_retries {κ : Type} {key : κ} (hroom : q.pos + 16 ≤ q.data.length) :
    (∀ e s, (propertyTail key : Pop ω _) (q, w) = (.error (.error e), s) → s.1 = q) ↔ q.Valued := by
  have hinside : (⟨q.data, q.pos + 8⟩ : Parser).Inside := by
    change q.pos + 8 ≤ q.data.length
    omega
  unfold propertyTail Valued
  rw [here_bind, ofExcept_bind (u32At_of_le (by omega))]
  cases hflags : PropertyFlags.fromBits (.ofNat (wordAt q.data (q.pos + 4) 4)) with
  | none =>
    refine iff_of_true (fun e s h => ?_) (by simp)
    cases h
    rfl
  | some flags =>
    simp only [Option.isSome_some, true_implies]
    rw [advance_bind, here_bind, ofExcept_bind (left_inside hinside)]
    have hcalm := wrap_calm hinside
    cases hwrap : RawPod.wrap (q.data.drop (q.pos + 8)) with
    | ok r =>
      refine iff_of_true (fun e s h => ?_) rfl
      rw [ofExcept_bind rfl, advance_bind] at h
      cases h
    | error f =>
      refine iff_of_false (fun h => ?_) (by simp [Except.isOk, Except.toBool])
      rw [hwrap] at hcalm
      cases f with
      | panic => exact hcalm rfl
      | error e =>
        have hrun := h e (⟨q.data, q.pos + 8⟩, w) (ofExcept_bind_error rfl)
        have hpos := congrArg Parser.pos hrun
        simp at hpos

end Parser

/-! ### Every pop -/

/-- The pops, with their closures. -/
inductive PopOp (E : Enums) (ω α : Type) where
  | pod (t : PodTy E)
  | raw
  | arrayRaw (item : PodType → List UInt8 → Prog ω Fault Unit)
  | choiceRaw (parse : PodType → Choice (List UInt8) → Prog ω Fault Unit)
  | struct (parse : Pop ω α)
  | object (type : ObjectType) (i : E.Name) (parse : E.T i → Pop ω α)
  | objectRaw (i : E.Name) (parse : ObjectType → E.T i → Pop ω α)
  | property (k : E.Name)
  | propertyRaw

/-- A program that returns an error leaves the parser where it was. -/
def Retries (p : Pop ω α) (q : Parser) (w : ω) : Prop :=
  ∀ e s, p (q, w) = (.error (.error e), s) → s.1 = q

/-- A closure does not return an error. -/
def Returns (p : Pop ω α) (s : Parser × ω) : Prop := ∀ e s', p s ≠ (.error (.error e), s')

namespace PopOp

/-- The pop leaves the parser where it was whenever it returns an error. -/
def Retries : PopOp E ω α → Parser → ω → Prop
  | pod t => Pod.Retries (Parser.popPod t)
  | raw => Pod.Retries Parser.popRawPod
  | arrayRaw item => Pod.Retries (Parser.popArrayRaw item)
  | choiceRaw parse => Pod.Retries (Parser.popChoiceRaw parse)
  | struct parse => Pod.Retries (Parser.popStruct parse)
  | object type i parse => Pod.Retries (Parser.popObject type i parse)
  | objectRaw i parse => Pod.Retries (Parser.popObjectRaw i parse)
  | property k => Pod.Retries (Parser.popProperty k)
  | propertyRaw => Pod.Retries Parser.popPropertyRaw

/-- The closure of an object returns no error where it is called, and a property that is begun has
a value. -/
def Spared : PopOp E ω α → Parser → ω → Prop
  | object type i parse, q, w => ∀ h, Parser.objectHeader i q = .ok h → h.2.1 = type →
      Returns (parse h.2.2) (.new q.window, w)
  | objectRaw i parse, q, w => ∀ h, Parser.objectHeader i q = .ok h →
      Returns (parse h.2.1 h.2.2) (.new q.window, w)
  | property k, q, _ => 16 ≤ q.available →
      (E.tryFrom (n := k) (.ofNat (wordAt q.data q.pos 4))).isSome = true → q.Valued
  | propertyRaw, q, _ => 16 ≤ q.available → q.Valued
  | _, _, _ => True

variable {q : Parser} {w : ω}

lemma retries_of_keeps {p : Pop ω α} (h : q.Keeps p) : Pod.Retries p q w :=
  fun _ _ hrun => (h w).run_error hrun

lemma retries_objectBody {f : Pop ω α} (height : 8 ≤ q.declared)
    (hroom : q.pos + frame q.declared ≤ q.data.length) :
    Pod.Retries (Parser.objectBody q.declared (frame q.declared) f) q w ↔
      Returns f (.new q.window, w) := by
  unfold Pod.Retries Returns
  rw [Parser.objectBody_run height hroom]
  cases f (.new q.window, w) with
  | mk r s =>
    cases r with
    | ok a => exact iff_of_true (fun e s' h => nomatch h) fun e s' h => nomatch h
    | error f =>
      constructor
      · intro h e s' hrun
        cases hrun
        have hpos := congrArg Parser.pos (h e _ rfl)
        simp at hpos
      · intro h e s' hrun
        cases hrun
        exact absurd rfl (h e s)

lemma retries_header {i : E.Name} {f : (ℕ × ℕ) × ObjectType × E.T i → Pop ω α} :
    Pod.Retries (Parser.here >>= fun q => .ofExcept (Parser.objectHeader i q) >>= f) q w ↔
      ∀ h, Parser.objectHeader i q = .ok h → Pod.Retries (f h) q w := by
  unfold Pod.Retries
  rw [Parser.here_bind]
  cases hheader : Parser.objectHeader i q with
  | error e =>
    refine iff_of_true (fun e' s hrun => ?_) fun h hh => nomatch hh
    rw [ofExcept_bind_error rfl] at hrun
    cases hrun
    rfl
  | ok h =>
    rw [ofExcept_bind rfl]
    exact ⟨fun hrun h' hh => by cases hh; exact hrun, fun hrun => hrun h rfl⟩

lemma retries_begun {κ : Type} {f : Parser → Pop ω (Option κ)} {P : Prop}
    (h : q.pos + 16 ≤ q.data.length →
      ((∀ e s, f q (q, w) = (.error (.error e), s) → s.1 = q) ↔ P)) :
    Pod.Retries (Parser.here >>= fun q => if q.available = 0 then pure none else
      .failIf (q.available < 16) (.invalid "Not enough data for object property") >>= fun _ => f q)
        q w ↔ (16 ≤ q.available → P) := by
  unfold Pod.Retries
  rw [Parser.here_bind]
  by_cases hzero : q.available = 0
  · rw [if_pos hzero]
    exact iff_of_true (fun e s hrun => nomatch hrun) fun hle => by omega
  · rw [if_neg hzero]
    by_cases hshort : q.available < 16
    · rw [failIf_bind_of hshort]
      refine iff_of_true (fun e s hrun => ?_) fun hle => by omega
      cases hrun
      rfl
    · rw [failIf_bind hshort, forall_prop_of_true (Nat.le_of_not_lt hshort)]
      unfold Parser.available at hshort
      exact h (by omega)

/-- **Pops that return an error.** They leave the parser where it was exactly when no closure of an
object fails and no property lacks its value. -/
theorem retries_iff (op : PopOp E ω α) (q : Parser) (w : ω) : op.Retries q w ↔ op.Spared q w := by
  cases op with
  | pod t => exact iff_of_true (retries_of_keeps (Parser.keeps_popPod t)) trivial
  | raw => exact iff_of_true (retries_of_keeps Parser.keeps_popRawPod) trivial
  | arrayRaw item => exact iff_of_true (retries_of_keeps (Parser.keeps_popArrayRaw item)) trivial
  | choiceRaw parse => exact iff_of_true (retries_of_keeps (Parser.keeps_popChoiceRaw parse)) trivial
  | struct parse => exact iff_of_true (retries_of_keeps (Parser.keeps_popStruct parse)) trivial
  | object type i parse =>
    refine retries_header.trans (forall₂_congr fun h hheader => ?_)
    obtain ⟨hsize, height, hroom⟩ := (Parser.objectHeader_calm i q).ok hheader
    by_cases htype : h.2.1 = type
    · rw [forall_prop_of_true htype, ← retries_objectBody height hroom]
      unfold Pod.Retries
      rw [failIf_bind (not_not.2 htype), hsize]
    · refine iff_of_true (fun e s hrun => ?_) fun h' => absurd h' htype
      rw [failIf_bind_of htype] at hrun
      cases hrun
      rfl
  | objectRaw i parse =>
    refine retries_header.trans (forall₂_congr fun h hheader => ?_)
    obtain ⟨hsize, height, hroom⟩ := (Parser.objectHeader_calm i q).ok hheader
    rw [hsize]
    exact retries_objectBody height hroom
  | property k =>
    change Pod.Retries (Parser.popProperty k) q w ↔ (16 ≤ q.available → _ → q.Valued)
    unfold Parser.popProperty
    refine (retries_begun fun hroom => ?_)
    rw [ofExcept_bind (u32At_of_le (by omega))]
    cases E.tryFrom (n := k) (.ofNat (wordAt q.data q.pos 4)) with
    | none =>
      refine iff_of_true (fun e s hrun => ?_) (by simp)
      cases hrun
      rfl
    | some key =>
      rw [Option.isSome_some, forall_prop_of_true rfl]
      exact Parser.propertyTail_retries hroom
  | propertyRaw =>
    change Pod.Retries Parser.popPropertyRaw q w ↔ (16 ≤ q.available → q.Valued)
    unfold Parser.popPropertyRaw
    refine (retries_begun fun hroom => ?_)
    rw [ofExcept_bind (u32At_of_le (by omega))]
    exact Parser.propertyTail_retries hroom

def emptyObject : List UInt8 := [8, 0, 0, 0, 15, 0, 0, 0, 0, 0, 4, 0, 0, 0, 0, 0]

/-- A key and flags, and the header of a pod of which nothing else is there. -/
def valueless : List UInt8 := [0, 0, 0, 0, 0, 0, 0, 0, 100, 0, 0, 0, 4, 0, 0, 0]

/-- After the closure's error the parser is behind the header of the object, and after a property
without its value it is behind the flags. -/
theorem not_retries_object :
    ¬ (object .start () fun _ => .fail (.invalid "") : PopOp Enums.plain Unit Unit).Retries
        (.new emptyObject) () ∧
      ¬ (propertyRaw : PopOp Enums.plain Unit Unit).Retries (.new valueless) () := by
  constructor
  · intro h
    have hpos := congrArg Parser.pos (h (.invalid "") (⟨emptyObject, 16⟩, ()) rfl)
    exact absurd hpos (by decide)
  · intro h
    have hpos := congrArg Parser.pos (h .noSpace (⟨valueless, 8⟩, ()) rfl)
    exact absurd hpos (by decide)

end PopOp

end PipewireNative.Pod
