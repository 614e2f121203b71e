import PipewireNative.Pod.Reading

/-!
Trees of structs, objects and properties, read back as they were built.
-/

namespace PipewireNative.Pod

open Lib Lib.Word Prog

variable {E : Enums} {ω : Type}

/-! ### Sizes -/

lemma PodTy.size_mod_eight (t : PodTy E) (v : t.Val) : t.size v % 8 = 0 := by
  induction t with
  | prim _ | string | bytes => exact frame_mod_eight _
  | pointer => change 24 % 8 = 0; decide
  | array _ | choice _ => exact frame_mod_eight _
  | property k t ih =>
    have h := ih v.value
    change (8 + t.size v.value) % 8 = 0
    omega
  | option t ih =>
    cases v with
    | none => exact Nat.mod_self 8
    | some v => exact ih v
  | raw =>
    change v.data.length % 8 = 0
    rw [← v.sized]
    exact frame_mod_eight _

lemma entriesLayout_mod_eight {k : E.Name} (props : List (Entry E k)) :
    (entriesLayout props).size % 8 = 0 := by
  induction props with
  | nil => rfl
  | cons e props ih =>
    have h := (PodTy.property k e.1).size_mod_eight e.2
    change ((PodTy.property k e.1).size e.2 + (entriesLayout props).size) % 8 = 0
    omega

lemma Items.layout_mod_eight (items : Items E) : items.layout.size % 8 = 0 := by
  induction items with
  | done => rfl
  | pod t v next ih =>
    have h := t.size_mod_eight v
    change (t.size v + next.layout.size) % 8 = 0
    omega
  | struct members next ihm ihn =>
    change (8 + members.layout.size + next.layout.size) % 8 = 0
    omega
  | object type i id k props next ih =>
    have h := entriesLayout_mod_eight props
    change (16 + (entriesLayout props).size + next.layout.size) % 8 = 0
    omega

/-! ### Properties -/

/-- A pod with its header and padding, as it is. -/
def RawPod.of (n : ℕ) (type : PodType) (body padding : List UInt8) (hn : n < 2 ^ 32)
    (hbody : body.length = n) (hpadding : padding.length = pad8 n) : RawPod where
  type
  data := podOf n type body padding
  long_enough := by
    rw [podOf_length hbody hpadding]
    exact eight_le_frame
  sized := by
    have h0 : wordAt (podOf n type body padding) 0 4 = n := by
      unfold podOf
      exact (wordAt_append (List.length_nil (α := UInt8)) 4 n _).trans (Nat.mod_eq_of_lt hn)
    rw [h0, podOf_length hbody hpadding]
    rfl
  typed := by
    have h4 : wordAt (podOf n type body padding) 4 4 = type.toNat := by
      unfold podOf
      exact (wordAt_append (leBytes_length 4 n) 4 _ _).trans (Nat.mod_eq_of_lt type.toNat_lt)
    rw [h4, PodType.tryFrom_toNat]

namespace PodTy

/-- Types whose values are pods of their own, with a header. -/
def Headed : PodTy E → Prop
  | .property .. => False
  | .option t => t.Headed
  | _ => True

lemma image_raw {t : PodTy E} (ht : t.Headed) {v : t.Val} (hv : t.Bounded v) {old : List UInt8}
    (hold : t.size v ≤ old.length) : ∃ r : RawPod, r.data = t.image v old := by
  have hpod : ∀ {n : ℕ} {type : PodType} {body padding : List UInt8}, n < 2 ^ 32 →
      body.length = n → padding.length = pad8 n →
      ∃ r : RawPod, r.data = podOf n type body padding :=
    fun hn hbody hpadding => ⟨.of _ _ _ _ hn hbody hpadding, rfl⟩
  induction t generalizing old with
  | prim p => exact hpod p.podSize_lt (p.body_length v) (zeros_length _)
  | string => exact hpod hv (by simp) (zeros_length _)
  | bytes => exact hpod hv rfl (zeros_length _)
  | pointer => exact hpod (by decide) (by simp) rfl
  | array p =>
    refine hpod hv (arrayBody_length p v) ?_
    change frame (8 + p.podSize * List.length v) ≤ _ at hold
    unfold frame at hold
    exact kept_length (by omega)
  | choice p => exact hpod hv (choiceBody_length p v) (kept_length hold)
  | property k t ih => exact ht.elim
  | option t ih =>
    cases v with
    | none => exact hpod (Prim.podSize_lt (E := E) .unit) rfl rfl
    | some v => exact ih ht hv hold
  | raw => exact ⟨v, rfl⟩

end PodTy

lemma Reads.popProperty (hE : E.Lawful) {k : E.Name} (key : E.T k) {flags : PropertyFlags}
    (hflags : flags.Known) (r : RawPod) :
    Reads (Parser.popProperty k : Pop ω _)
      (word (E.into key).toNat ++ (word flags.bits.toNat ++ r.data)) (some (key, flags, r)) := by
  intro pre post w _
  have height := r.long_enough
  rw [List.append_assoc, List.append_assoc]
  have havail : (Parser.between pre (word (E.into key).toNat ++ (word flags.bits.toNat ++
      (r.data ++ post)))).available = 8 + r.data.length + post.length := by
    rw [Parser.available_between]
    simp only [List.length_append, leBytes_length]
    omega
  have hkey : (u32At (word (E.into key).toNat ++ (word flags.bits.toNat ++ (r.data ++ post))) 0 :
      Read _) = .ok (E.into key) := by
    rw [u32At_zero (E.into key).toNat_lt, UInt32.ofNat_toNat]
  have hbits : (u32At (word (E.into key).toNat ++ (word flags.bits.toNat ++ (r.data ++ post))) 4 :
      Read _) = .ok flags.bits := by
    rw [u32At_append (leBytes_length 4 _) flags.bits.toNat_lt, UInt32.ofNat_toNat]
  unfold Parser.popProperty
  rw [Parser.here_bind, if_neg (by omega), failIf_bind (by omega), Parser.u32At_between_zero,
    ofExcept_bind hkey]
  simp only [hE k key]
  unfold Parser.propertyTail
  rw [Parser.here_bind, Parser.u32At_between, ofExcept_bind hbits]
  have hnext : (⟨(Parser.between pre (word (E.into key).toNat ++ (word flags.bits.toNat ++
      (r.data ++ post)))).data, (Parser.between pre (word (E.into key).toNat ++
        (word flags.bits.toNat ++ (r.data ++ post)))).pos + 8⟩ : Parser) =
      .between (pre ++ (word (E.into key).toNat ++ word flags.bits.toNat)) (r.data ++ post) := by
    simp only [Parser.between, List.append_assoc, List.length_append, leBytes_length]
  simp only [PropertyFlags.fromBits_bits hflags, Parser.advance_bind, Parser.here_bind, hnext]
  rw [ofExcept_bind (Parser.left_between _ _), ofExcept_bind (r.wrap_data post),
    Parser.advance_bind]
  simp only [Parser.between, List.append_assoc, List.length_append, leBytes_length, Nat.add_assoc]
  rfl

lemma popProperty_end {k : E.Name} (pre : List UInt8) (w : ω) :
    (Parser.popProperty k : Pop ω _) (.between pre [], w) = (.ok none, (.between pre [], w)) := by
  unfold Parser.popProperty
  have hzero : (Parser.between pre []).available = 0 := Parser.available_between pre []
  rw [Parser.here_bind, if_pos hzero]
  rfl

/-! ### Trees -/

/-- What is read: the types of what is pushed. -/
inductive Shape (E : Enums) where
  | done
  | pod (t : PodTy E) (next : Shape E)
  | struct (members : Shape E) (next : Shape E)
  | object (type : ObjectType) (i k : E.Name) (props : List (PodTy E)) (next : Shape E)

/-- The properties of an object, up to the last one: each is popped and its value decoded. -/
def readEntries (k : E.Name) : List (PodTy E) → Pop ω (List (Entry E k))
  | [] => do
    match ← Parser.popProperty k with
    | none => pure []
    | some _ => .fail (.invalid "a property is left")
  | t :: ts => do
    match ← Parser.popProperty k with
    | none => .fail (.invalid "a property is missing")
    | some p => do
      let r ← .ofExcept (t.decode p.2.2.data)
      let es ← readEntries k ts
      pure (⟨t, ⟨p.1, p.2.1, r.1⟩⟩ :: es)

/-- The pops that match a shape. -/
def Shape.read : Shape E → Pop ω (Items E)
  | done => pure .done
  | pod t next => do
    let v ← Parser.popPod t
    let rest ← next.read
    pure (.pod t v rest)
  | struct members next => do
    let r ← Parser.popStruct members.read
    let rest ← next.read
    pure (.struct r.1 rest)
  | object type i k props next => do
    let r ← Parser.popObject type i fun id => do
      let es ← readEntries k props
      pure (id, es)
    let rest ← next.read
    pure (.object type i r.1.1 k r.1.2 rest)

namespace Items

/-- The types of what is pushed. -/
def shape : Items E → Shape E
  | done => .done
  | pod t _ next => .pod t next.shape
  | struct members next => .struct members.shape next.shape
  | object type i _ k props next => .object type i k (props.map Sigma.fst) next.shape

/-- A value that is told from others by its bytes: its type is readable and its body is not too
long. -/
def Leaf (t : PodTy E) (v : t.Val) : Prop := t.Readable ∧ t.Bounded v

/-- All leaves are, and no body is too long; the values of properties are pods of their own. -/
def Readable : Items E → Prop
  | done => True
  | pod t v next => Leaf t v ∧ next.Readable
  | struct members next =>
    members.Readable ∧ members.layout.size < 2 ^ 32 ∧ next.Readable
  | object _ _ _ k props next =>
    (∀ e ∈ props, e.1.Headed ∧ Leaf (PodTy.property k e.1) e.2) ∧
      8 + (entriesLayout props).size < 2 ^ 32 ∧ next.Readable

/-- No flags of properties but those that have names. -/
def KnownFlags : Items E → Prop
  | done => True
  | pod t v next => t.KnownFlags v ∧ next.KnownFlags
  | struct members next => members.KnownFlags ∧ next.KnownFlags
  | object _ _ _ k props next =>
    (∀ e ∈ props, (PodTy.property k e.1).KnownFlags e.2) ∧ next.KnownFlags

end Items

lemma readEntries_image (hE : E.Lawful) {k : E.Name} {props : List (Entry E k)}
    (h : ∀ e ∈ props, e.1.Headed ∧ Items.Leaf (PodTy.property k e.1) e.2)
    (hk : ∀ e ∈ props, (PodTy.property k e.1).KnownFlags e.2) {old : List UInt8}
    (hold : (entriesLayout props).size ≤ old.length) (pre : List UInt8) (w : ω)
    (hlen : pre.length + (entriesLayout props).size < usizeBound) :
    readEntries k (props.map Sigma.fst) (.between pre ((entriesLayout props).image old), w) =
      (.ok props, (.between (pre ++ (entriesLayout props).image old) [], w)) := by
  induction props generalizing old pre with
  | nil =>
    change readEntries k [] (.between pre [], w) = (.ok [], (.between (pre ++ []) [], w))
    unfold readEntries
    rw [bind_ok (popProperty_end pre w), List.append_nil]
    rfl
  | cons e props ih =>
    obtain ⟨t, key, flags, value⟩ := e
    obtain ⟨hheaded, hreadable, hbounded⟩ := h _ List.mem_cons_self
    obtain ⟨hflags, hknown⟩ := hk _ List.mem_cons_self
    change 8 + t.size value + (entriesLayout props).size ≤ _ at hold
    change _ + (8 + t.size value + (entriesLayout props).size) < _ at hlen
    have hroom : t.size value ≤ (old.drop 8).length := by
      rw [List.length_drop]
      omega
    obtain ⟨r, hr⟩ := PodTy.image_raw hheaded hbounded hroom
    have hrlen : r.data.length = t.size value := by rw [hr, t.image_length value _ hroom]
    have hdecode : t.decode r.data = .ok (value, t.size value) := by
      have hrest := PodTy.decode_image (t := t) (v := value) hE hreadable hbounded hknown hroom []
      rwa [List.append_nil, ← hr] at hrest
    have hpop := Reads.popProperty (ω := ω) hE key hflags r pre
      ((entriesLayout props).image (old.drop (8 + t.size value))) w
      (by simp only [List.length_append, leBytes_length, hrlen]; omega)
    have himage : (entriesLayout (⟨t, ⟨key, flags, value⟩⟩ :: props)).image old =
        (word (E.into key).toNat ++ (word flags.bits.toNat ++ r.data)) ++
          (entriesLayout props).image (old.drop (8 + t.size value)) := by
      rw [hr]
      rfl
    rw [himage, List.map_cons]
    unfold readEntries
    rw [bind_ok hpop]
    simp only []
    rw [ofExcept_bind hdecode, bind_ok (ih (fun e he => h e (List.mem_cons_of_mem _ he))
      (fun e he => hk e (List.mem_cons_of_mem _ he)) (by rw [List.length_drop]; omega) _
      (by simp only [List.length_append, leBytes_length, hrlen]; omega)), List.append_assoc]
    rfl

namespace Items

lemma drop_room {n size : ℕ} {old : List UInt8} (hold : n + size ≤ old.length)
    (hlen : old.length < usizeBound) :
    size ≤ (old.drop n).length ∧ (old.drop n).length < usizeBound := by
  rw [List.length_drop]
  omega

lemma read_layout (hE : E.Lawful) {items : Items E} (h : items.Readable) (hk : items.KnownFlags)
    {old : List UInt8} (hold : items.layout.size ≤ old.length) (hlen : old.length < usizeBound) :
    Reads (items.shape.read : Pop ω (Items E)) (items.layout.image old) items := by
  induction items generalizing old with
  | done => exact Reads.pure _
  | pod t v next ih =>
    obtain ⟨⟨hreadable, hbounded⟩, hnext⟩ := h
    change t.size v + next.layout.size ≤ _ at hold
    have hsize : t.size v ≤ old.length := by omega
    have hpod : Reads (Parser.popPod t : Pop ω t.Val) (t.image v old) v := by
      refine Reads.popPod fun rest => ?_
      rw [t.image_length v old hsize]
      exact PodTy.decode_image hE hreadable hbounded hk.1 hsize rest
    obtain ⟨hroom, hlen'⟩ := drop_room hold hlen
    exact hpod.bind ((ih hnext hk.2 hroom hlen').map _)
  | struct members next ihm ihn =>
    obtain ⟨hmembers, hsize, hnext⟩ := h
    change 8 + members.layout.size + next.layout.size ≤ _ at hold
    obtain ⟨hinner, hinner'⟩ :=
      drop_room (by omega : 8 + members.layout.size ≤ old.length) hlen
    obtain ⟨hroom, hlen'⟩ := drop_room hold hlen
    have hbody := members.layout.image_length hinner
    have hpadding : ([] : List UInt8).length = pad8 members.layout.size := by
      simp only [pad8, members.layout_mod_eight]
      rfl
    have hpod := Reads.popStruct ((ihm hmembers hk.1 hinner hinner').all (by omega)) hbody hsize hpadding
    have himage : (Items.struct members next).layout.image old =
        podOf members.layout.size .struct (members.layout.image (old.drop 8)) [] ++
          next.layout.image (old.drop (8 + members.layout.size)) := by
      unfold podOf
      rw [List.append_nil, ← List.append_assoc]
      rfl
    rw [himage]
    exact hpod.bind ((ihn hnext hk.2 hroom hlen').map _)
  | object type i id k props next ih =>
    obtain ⟨hprops, hsize, hnext⟩ := h
    change 16 + (entriesLayout props).size + next.layout.size ≤ _ at hold
    obtain ⟨hinner, hinner'⟩ :=
      drop_room (by omega : 16 + (entriesLayout props).size ≤ old.length) hlen
    obtain ⟨hroom, hlen'⟩ := drop_room hold hlen
    have hbody := (entriesLayout props).image_length hinner
    have hentries : ReadsAll (readEntries k (props.map Sigma.fst) >>= fun es => pure (id, es) :
        Pop ω (E.T i × List (Entry E k))) ((entriesLayout props).image (old.drop 16))
        (id, props) := by
      intro w
      have hread := readEntries_image hE hprops hk.1 hinner [] w (by simp only [List.length_nil]; omega)
      exact ⟨_, bind_ok hread⟩
    have hpadding : ([] : List UInt8).length = pad8 (8 + (entriesLayout props).size) := by
      rw [pad8, Nat.add_mod_left, entriesLayout_mod_eight]
      rfl
    have hpod := Reads.popObject (f := fun id => do
      let es ← readEntries k (props.map Sigma.fst)
      pure (id, es)) hE type hentries hbody hsize hpadding
    have himage : (Items.object type i id k props next).layout.image old =
        podOf (8 + (entriesLayout props).size) .object (word type.toNat ++
          (word (E.into id).toNat ++ (entriesLayout props).image (old.drop 16))) [] ++
          next.layout.image (old.drop (16 + (entriesLayout props).size)) := by
      unfold podOf
      simp only [layout, Layout.append, Layout.object, Layout.headed, List.append_assoc,
        List.append_nil]
    rw [himage]
    exact hpod.bind ((ih hnext hk.2 hroom hlen').map _)

/-- **Reading what was built.** The pops that match what was pushed read the same values, and the
bytes that were built and no others. -/
theorem read_build (hE : E.Lawful) (items : Items E) (hread : items.Readable)
    (hflags : items.KnownFlags) (data bytes : List UInt8) (hdata : data.length < usizeBound)
    (hbuild : items.build data = .ok bytes) (rest : List UInt8) (w : ω) :
    items.shape.read (.new (bytes ++ rest), w) =
      (.ok items, (⟨bytes ++ rest, bytes.length⟩, w)) := by
  unfold build at hbuild
  rcases items.push_lays.run data with ⟨-, hfit, hrun⟩ | ⟨-, -, hrun⟩ | ⟨-, hrun⟩
  · obtain rfl : items.layout.image data = bytes := Except.ok.inj (hrun.symm.trans hbuild)
    have hsize := items.layout.size_le hfit
    have hlen := items.layout.image_length hsize
    exact read_layout hE hread hflags hsize hdata [] rest w (by simp only [List.length_nil]; omega)
  · cases hrun.symm.trans hbuild
  · cases hrun.symm.trans hbuild

/-- An object with one property, of these flags. -/
def flagged (flags : UInt32) : Items Enums.plain :=
  .object .props () (1 : UInt32) () [⟨.prim .int, ⟨(2 : UInt32), ⟨flags⟩, (5 : Int32)⟩⟩] .done

lemma readable_flagged (flags : UInt32) : (flagged flags).Readable := by
  refine ⟨?_, ?_, trivial⟩
  · rintro e (_ | ⟨_, ⟨⟩⟩)
    exact ⟨trivial, trivial, trivial⟩
  · change 8 + (8 + 16 + 0) < 2 ^ 32
    decide

theorem read_build_flagged : ∃ bytes, (flagged 1).build (List.replicate 40 0) = .ok bytes ∧
    (flagged 1).shape.read (.new (bytes ++ [7]), ()) =
      (.ok (flagged 1), (⟨bytes ++ [7], bytes.length⟩, ())) := by
  refine ⟨_, rfl, read_build Enums.plain_lawful (flagged 1) (readable_flagged 1) ?_
    (List.replicate 40 0) _ (by decide) rfl [7] ()⟩
  refine ⟨?_, trivial⟩
  rintro e (_ | ⟨_, ⟨⟩⟩)
  exact ⟨by decide, trivial⟩

/-- Flags that have no name are written, and not read. -/
theorem read_build_flagged_unknown : (flagged 16).Readable ∧
    ∃ bytes, (flagged 16).build (List.replicate 40 0) = .ok bytes ∧
      ((flagged 16).shape.read (.new bytes, ())).1.toOption = none := by
  refine ⟨readable_flagged 16, _, rfl, ?_⟩
  rfl

end Items

end PipewireNative.Pod
