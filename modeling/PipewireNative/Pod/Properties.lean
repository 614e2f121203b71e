import PipewireNative.Pod.Safe
import PipewireNative.Pod.Twins

/-!
The loop over the properties of an object: what it returns depends on the bytes that are left only
property by property, so that properties which its body skips can be put anywhere among the others.
-/

namespace PipewireNative.Pod

open Lib Lib.Word Prog

variable {E : Enums} {ω σ : Type}

/-- A property of an object; its key and flags may be any numbers. -/
structure RawProperty where
  key : UInt32
  flags : UInt32
  value : RawPod

namespace RawProperty

def bytes (p : RawProperty) : List UInt8 := leBytes 4 p.key.toNat ++ leBytes 4 p.flags.toNat ++ p.value.data

variable {p : RawProperty} {rest : List UInt8}

lemma length_bytes (p : RawProperty) : p.bytes.length = 8 + p.value.size := by
  simp only [bytes, RawPod.size, List.length_append, leBytes_length]

lemma wordAt_key : UInt32.ofNat (wordAt (p.bytes ++ rest) 0 4) = p.key := by
  have h : wordAt (p.bytes ++ rest) 0 4 = p.key.toNat % 256 ^ 4 := by
    rw [bytes, List.append_assoc, List.append_assoc]
    exact @wordAt_append [] 0 rfl 4 _ _
  rw [h.trans (Nat.mod_eq_of_lt p.key.toNat_lt), UInt32.ofNat_toNat]

lemma wordAt_flags : UInt32.ofNat (wordAt (p.bytes ++ rest) 4 4) = p.flags := by
  have h : wordAt (p.bytes ++ rest) 4 4 = p.flags.toNat % 256 ^ 4 := by
    rw [bytes, List.append_assoc, List.append_assoc]
    exact wordAt_append (leBytes_length 4 _) 4 _ _
  rw [h.trans (Nat.mod_eq_of_lt p.flags.toNat_lt), UInt32.ofNat_toNat]

lemma drop_bytes : (p.bytes ++ rest).drop 8 = p.value.data ++ rest := by
  rw [bytes, List.append_assoc]
  exact List.drop_left' (by simp)

end RawProperty

def propertyBytes (ps : List RawProperty) : List UInt8 := ps.flatMap RawProperty.bytes

section Loop

variable {k : E.Name} {step : σ → E.T k → RawPod → Read σ}

/-- The loop over these bytes returns a value. -/
inductive Loops (step : σ → E.T k → RawPod → Read σ) : List UInt8 → σ → σ → Prop
  | nil {acc : σ} : Loops step [] acc acc
  | cons {data : List UInt8} {key : E.T k} {flags : PropertyFlags} {r : RawPod} {acc acc' v : σ} :
    16 ≤ data.length → E.tryFrom (.ofNat (wordAt data 0 4)) = some key →
    PropertyFlags.fromBits (.ofNat (wordAt data 4 4)) = some flags →
    RawPod.wrap (data.drop 8) = .ok r → step acc key r = .ok acc' →
    Loops step (data.drop (8 + r.size)) acc' v → Loops step data acc v

variable {q : Parser} {w : ω} {s : Parser × ω} {acc v : σ}

lemma propertyTail_eq_ok {κ : Type} {key : κ} {o : Option (κ × PropertyFlags × RawPod)}
    (h : 8 ≤ q.rest.length) :
    Parser.propertyTail key (q, w) = (.ok o, s) ↔ ∃ flags r,
      PropertyFlags.fromBits (.ofNat (wordAt q.rest 4 4)) = some flags ∧
      RawPod.wrap (q.rest.drop 8) = .ok r ∧ o = some (key, flags, r) ∧
      s = (⟨q.data, q.pos + (8 + r.size)⟩, w) := by
  have hlen : q.rest.length = q.data.length - q.pos := List.length_drop
  have hinside : (⟨q.data, q.pos + 8⟩ : Parser).Inside := by
    change q.pos + 8 ≤ q.data.length
    omega
  have hdrop : q.data.drop (q.pos + 8) = q.rest.drop 8 := List.drop_drop.symm
  unfold Parser.propertyTail
  rw [Parser.here_bind, ofExcept_bind (u32At_of_le (by omega)), Parser.wordAt_rest]
  cases PropertyFlags.fromBits (.ofNat (wordAt q.rest 4 4)) with
  | none => exact ⟨fun h => (nomatch h), fun ⟨_, _, h, _⟩ => (nomatch h)⟩
  | some flags =>
    simp only []
    rw [Parser.advance_bind, Parser.here_bind, ofExcept_bind (Parser.left_inside hinside),
      ofExcept_bind_eq_ok]
    simp only [hdrop]
    constructor
    · rintro ⟨r, hwrap, hrun⟩
      cases hrun
      exact ⟨flags, r, rfl, hwrap, rfl, congrArg (Parser.mk q.data · , w) (Nat.add_assoc ..)⟩
    · rintro ⟨_, r, ⟨⟩, hwrap, rfl, rfl⟩
      refine ⟨r, hwrap, ?_⟩
      rw [← Nat.add_assoc]
      rfl

lemma popProperty_eq_ok {o : Option (E.T k × PropertyFlags × RawPod)} :
    Parser.popProperty k (q, w) = (.ok o, s) ↔ q.rest = [] ∧ o = none ∧ s = (q, w) ∨
      16 ≤ q.rest.length ∧ ∃ key flags r, E.tryFrom (.ofNat (wordAt q.rest 0 4)) = some key ∧
      PropertyFlags.fromBits (.ofNat (wordAt q.rest 4 4)) = some flags ∧
      RawPod.wrap (q.rest.drop 8) = .ok r ∧ o = some (key, flags, r) ∧
      s = (⟨q.data, q.pos + (8 + r.size)⟩, w) := by
  have hlen : q.rest.length = q.data.length - q.pos := List.length_drop
  unfold Parser.popProperty
  rw [Parser.here_bind, Parser.length_rest]
  by_cases hzero : q.rest.length = 0
  · rw [if_pos hzero, or_iff_left (by omega)]
    have hnil := List.eq_nil_of_length_eq_zero hzero
    exact ⟨fun h => by cases h; exact ⟨hnil, rfl, rfl⟩, fun ⟨_, ho, hs⟩ => by rw [ho, hs]; rfl⟩
  · rw [if_neg hzero, or_iff_right fun h => hzero (congrArg List.length h.1), failIf_bind_eq_ok,
      Nat.not_lt]
    refine and_congr_right fun h16 => ?_
    have hkey : wordAt q.data q.pos 4 = wordAt q.rest 0 4 := q.wordAt_rest 0
    rw [ofExcept_bind (u32At_of_le (by omega)), hkey]
    cases E.tryFrom (.ofNat (wordAt q.rest 0 4)) with
    | none => exact ⟨fun h => (nomatch h), fun ⟨_, _, _, h, _⟩ => (nomatch h)⟩
    | some key =>
      refine (propertyTail_eq_ok (by omega : 8 ≤ q.rest.length)).trans ⟨fun ⟨flags, r, h⟩ =>
        ⟨key, flags, r, rfl, h⟩, ?_⟩
      rintro ⟨_, flags, r, ⟨⟩, h⟩
      exact ⟨flags, r, h⟩

/-- Whatever the parser has behind it, and with any number of rounds that is enough. -/
lemma propertyRounds_eq_ok {n : ℕ} (hn : q.rest.length < n) :
    (∃ s, Parser.propertyRounds k step n acc (q, w) = (.ok v, s)) ↔ Loops step q.rest acc v := by
  induction n generalizing q acc with
  | zero => omega
  | succ n ih =>
    have hrest (r : RawPod) (h16 : 16 ≤ q.rest.length) :
        (⟨q.data, q.pos + (8 + r.size)⟩ : Parser).rest = q.rest.drop (8 + r.size) ∧
          (⟨q.data, q.pos + (8 + r.size)⟩ : Parser).rest.length < n := by
      have hdrop : (⟨q.data, q.pos + (8 + r.size)⟩ : Parser).rest = q.rest.drop (8 + r.size) :=
        List.drop_drop.symm
      refine ⟨hdrop, ?_⟩
      rw [hdrop, List.length_drop]
      omega
    unfold Parser.propertyRounds
    simp only [bind_eq_ok, popProperty_eq_ok]
    constructor
    · rintro ⟨s, _, s₁, ⟨hnil, rfl, rfl⟩ | ⟨h16, key, flags, r, hkey, hflags, hwrap, rfl, rfl⟩, hrun⟩
      · cases hrun
        rw [hnil]
        exact .nil
      · obtain ⟨acc', hstep, hloop⟩ := ofExcept_bind_eq_ok.1 hrun
        have hloops := (ih (hrest r h16).2).1 ⟨s, hloop⟩
        rw [(hrest r h16).1] at hloops
        exact .cons h16 hkey hflags hwrap hstep hloops
    · generalize hdata : q.rest = data
      rintro (_ | ⟨h16, hkey, hflags, hwrap, hstep, hloop⟩)
      · exact ⟨(q, w), none, (q, w), .inl ⟨rfl, rfl, rfl⟩, rfl⟩
      · subst hdata
        rw [← (hrest _ h16).1] at hloop
        obtain ⟨s, hs⟩ := (ih (hrest _ h16).2).2 hloop
        exact ⟨s, _, _, .inr ⟨h16, _, _, _, hkey, hflags, hwrap, rfl, rfl⟩,
          ofExcept_bind_eq_ok.2 ⟨_, hstep, hs⟩⟩

lemma loops_bytes {p : RawProperty} {rest : List UInt8} : Loops step (p.bytes ++ rest) acc v ↔
    ∃ key flags acc', E.tryFrom p.key = some key ∧ PropertyFlags.fromBits p.flags = some flags ∧
      step acc key p.value = .ok acc' ∧ Loops step rest acc' v := by
  have hlen := p.length_bytes
  have hvalue := p.value.long_enough
  have hdrop : (p.bytes ++ rest).drop (8 + p.value.size) = rest := List.drop_left' hlen
  constructor
  · generalize hdata : p.bytes ++ rest = data
    rintro (_ | ⟨-, hkey, hflags, hwrap, hstep, hloop⟩)
    · have hempty := congrArg List.length hdata
      rw [List.length_append, hlen, List.length_nil] at hempty
      omega
    · subst hdata
      rw [RawProperty.wordAt_key] at hkey
      rw [RawProperty.wordAt_flags] at hflags
      rw [RawProperty.drop_bytes, RawPod.wrap_data] at hwrap
      cases hwrap
      rw [hdrop] at hloop
      exact ⟨_, _, _, hkey, hflags, hstep, hloop⟩
  · rintro ⟨key, flags, acc', hkey, hflags, hstep, hloop⟩
    rw [← hdrop] at hloop
    refine .cons ?_ (RawProperty.wordAt_key ▸ hkey) (RawProperty.wordAt_flags ▸ hflags) ?_ hstep hloop
    · rw [List.length_append, hlen]
      unfold RawPod.size
      omega
    · rw [RawProperty.drop_bytes, RawPod.wrap_data]

/-- A property that the loop skips. -/
def Skipped (step : σ → E.T k → RawPod → Read σ) (p : RawProperty) : Prop :=
  (PropertyFlags.fromBits p.flags).isSome ∧ ∃ key, E.tryFrom p.key = some key ∧
    ∀ acc, step acc key p.value = .ok acc

/-- **Insertion.** Properties that are skipped can be put among others. -/
theorem loops_insert {before inserted : List RawProperty} {after : List UInt8}
    (h : ∀ p ∈ inserted, Skipped step p) :
    Loops step (propertyBytes before ++ (propertyBytes inserted ++ after)) acc v ↔
      Loops step (propertyBytes before ++ after) acc v := by
  induction before generalizing acc with
  | nil =>
    simp only [propertyBytes, List.flatMap_nil, List.nil_append]
    induction inserted with
    | nil => rfl
    | cons p ps ih =>
      obtain ⟨hflags, key, hkey, hstep⟩ := h p List.mem_cons_self
      obtain ⟨flags, hflags⟩ := Option.isSome_iff_exists.1 hflags
      rw [List.flatMap_cons, List.append_assoc, loops_bytes]
      refine Iff.trans ⟨?_, ?_⟩ (ih fun p' hp' => h p' (List.mem_cons_of_mem _ hp'))
      · rintro ⟨key', flags', acc', hkey', -, hstep', hloop⟩
        cases hkey.symm.trans hkey'
        cases (hstep acc).symm.trans hstep'
        exact hloop
      · exact fun hloop => ⟨key, flags, acc, hkey, hflags, hstep acc, hloop⟩
  | cons p ps ih =>
    simp only [propertyBytes, List.flatMap_cons, List.append_assoc] at ih ⊢
    simp only [loops_bytes, ih]

/-- A property whose key is not known ends the loop. -/
theorem not_loops {before : List RawProperty} {rest : List UInt8} {p : RawProperty}
    (h : E.tryFrom p.key = (none : Option (E.T k))) :
    ¬ Loops step (propertyBytes before ++ (p.bytes ++ rest)) acc v := by
  induction before generalizing acc with
  | nil =>
    rintro hloop
    obtain ⟨key, -, -, hkey, -⟩ := loops_bytes.1 hloop
    rw [h] at hkey
    cases hkey
  | cons p' ps ih =>
    simp only [propertyBytes, List.flatMap_cons, List.append_assoc] at ih ⊢
    rintro hloop
    obtain ⟨_, _, _, _, _, _, hrest⟩ := loops_bytes.1 hloop
    exact ih hrest

end Loop

/-! ### Objects -/

/-- The pod is an object of this type and id, whose properties are these bytes. -/
structure RawPod.IsObject (pod : RawPod) (type id : UInt32) (body : List UInt8) : Prop where
  object : wordAt pod.data 4 4 = PodType.object.toNat
  size_eq : wordAt pod.data 0 4 = 8 + body.length
  type_eq : wordAt pod.data 8 4 = type.toNat
  id_eq : wordAt pod.data 12 4 = id.toNat
  body_eq : (pod.data.drop 16).take body.length = body

section Object

variable {α : Type} {pod : RawPod} {type id : UInt32} {body : List UInt8} {w : ω}

lemma objectHeader_isObject (h : pod.IsObject type id body) {i : E.Name}
    {header : (ℕ × ℕ) × ObjectType × E.T i} :
    Parser.objectHeader i (.new pod.data) = .ok header ↔ ∃ t id',
      ObjectType.tryFrom type.toNat = some t ∧ E.tryFrom id = some id' ∧
        header = ((8 + body.length, frame (8 + body.length)), t, id') := by
  obtain ⟨hobject, hsize, htype, hid, -⟩ := h
  have hlen : frame (8 + body.length) = pod.data.length := by rw [← hsize]; exact pod.sized
  have hframe : frame (8 + body.length) = 8 + (8 + body.length) + pad8 (8 + body.length) := rfl
  have hlt : 8 + body.length < 2 ^ 32 := hsize ▸ wordAt_lt pod.data 0 4
  unfold Parser.objectHeader Parser.available Parser.new
  simp only [Nat.sub_zero, Nat.zero_add]
  rw [rejectIf_bind (by omega), u32At_of_le (by omega), except_ok_bind, hsize, toNat_ofNat hlt,
    rejectIf_bind (by omega), podTotalSize_frame hlt, except_ok_bind, rejectIf_bind (by omega),
    u32At_of_le (by omega), except_ok_bind, toNat_wordAt, rejectIf_bind (not_not.2 hobject),
    u32At_of_le (by omega), except_ok_bind, toNat_wordAt, htype]
  cases ObjectType.tryFrom type.toNat with
  | none => simp
  | some t =>
    simp only []
    rw [u32At_of_le (by omega), except_ok_bind, hid, UInt32.ofNat_toNat]
    cases (E.tryFrom id : Option (E.T i)) with
    | none => simp
    | some id' => simp [pure, Except.pure, eq_comm]

/-- An object of a type is popped exactly if it has it, its id is accepted and the closure returns. -/
lemma popObject_isObject (h : pod.IsObject type id body) {t : ObjectType} {i : E.Name}
    {parse : E.T i → Pop ω α} {a : α} :
    (∃ total s, Parser.popObject t i parse (.new pod.data, w) = (.ok (a, total), s)) ↔
      ObjectType.tryFrom type.toNat = some t ∧ ∃ id', E.tryFrom id = some id' ∧
        ∃ s, parse id' (.new body, w) = (.ok a, s) := by
  have hdeclared : (Parser.new pod.data).declared = 8 + body.length := h.size_eq
  have hwindow : (Parser.new pod.data).window = body := by
    unfold Parser.window
    rw [hdeclared, Nat.add_sub_cancel_left]
    exact h.body_eq
  have height : 8 ≤ (Parser.new pod.data).declared := by omega
  have hroom : (Parser.new pod.data).pos + frame (Parser.new pod.data).declared ≤
      (Parser.new pod.data).data.length := by
    rw [hdeclared, ← h.size_eq]
    exact Nat.le_of_eq ((Nat.zero_add _).trans pod.sized)
  unfold Parser.popObject
  simp only [Parser.here_bind, ofExcept_bind_eq_ok, failIf_bind_eq_ok, objectHeader_isObject h,
    ne_eq, not_not]
  constructor
  · rintro ⟨total, s, header, ⟨t', id', ht, hid, rfl⟩, rfl, hbody⟩
    rw [← hdeclared] at hbody
    obtain ⟨-, -, inner, hparse⟩ := (Parser.objectBody_eq_ok height hroom).1 hbody
    rw [hwindow] at hparse
    exact ⟨ht, id', hid, _, hparse⟩
  · rintro ⟨ht, id', hid, ⟨inner, w'⟩, hparse⟩
    rw [← hwindow] at hparse
    have hbody := (Parser.objectBody_eq_ok (s := (_, w')) height hroom).2 ⟨rfl, rfl, inner, hparse⟩
    rw [hdeclared] at hbody
    exact ⟨_, _, _, ⟨t, id', ht, hid, rfl⟩, rfl, hbody⟩

end Object

end PipewireNative.Pod
