import PipewireNative.Pod.Builder
import PipewireNative.Pod.Readback

/-!
What pushing leaves in a buffer. A layout says how long the bytes are, what they are, when they
fit, when pushing them panics, and what becomes of a push behind the end of the buffer. Every
operation of the builder lays something out, and so does every sequence of them.
-/

namespace PipewireNative.Pod

open Lib Lib.Word Prog

variable {E : Enums}

/-! ### Layouts -/

/-- What becomes of pushes that begin behind the end of the buffer. -/
inductive Edge where
  | silent
  | full
  | panic
  deriving DecidableEq

/-- What comes first decides. -/
def Edge.append : Edge → Edge → Edge
  | silent, e => e
  | e, _ => e

/-- Bytes to be laid out. -/
structure Layout where
  size : ℕ
  /-- The bytes, where there were the bytes `old`. -/
  image (old : List UInt8) : List UInt8
  /-- They are all written where there is so much room. -/
  Fits (room : ℕ) : Prop
  /-- Pushing them panics in a buffer of so many bytes with so much room left. -/
  Cramped (len room : ℕ) : Prop
  edge (len : ℕ) : Edge
  size_le : ∀ {room}, Fits room → size ≤ room
  image_length : ∀ {old}, size ≤ old.length → (image old).length = size

namespace Layout

/-- Nothing. -/
def nil : Layout where
  size := 0
  image _ := []
  Fits _ := True
  Cramped _ _ := False
  edge _ := .silent
  size_le _ := Nat.zero_le _
  image_length _ := rfl

def append (l m : Layout) : Layout where
  size := l.size + m.size
  image old := l.image old ++ m.image (old.drop l.size)
  Fits room := l.Fits room ∧ m.Fits (room - l.size)
  Cramped len room := l.Cramped len room ∨ l.Fits room ∧ m.Cramped len (room - l.size)
  edge len := (l.edge len).append (m.edge len)
  size_le h := by
    have hl := l.size_le h.1
    have hm := m.size_le h.2
    omega
  image_length {old} h := by
    rw [List.length_append, l.image_length (by omega),
      m.image_length (by rw [List.length_drop]; omega)]

def pod (t : PodTy E) (v : t.Val) : Layout where
  size := t.size v
  image := t.image v
  Fits room := t.need v ≤ room
  Cramped _ room := t.Overflow v room
  edge _ := .panic
  size_le h := Nat.le_trans (t.size_le_need v) h
  image_length h := t.image_length v _ h

/-- Members behind a header of so many bytes, whose length is not that of the buffer but that of
what is left. -/
def headed (n : ℕ) (header : ℕ → List UInt8) (hheader : ∀ size, (header size).length = n)
    (l : Layout) : Layout where
  size := n + l.size
  image old := header l.size ++ l.image (old.drop n)
  Fits room := n ≤ room ∧ l.Fits (room - n)
  Cramped len room :=
    if n ≤ room then l.Cramped len (room - n) else n ≤ len ∧ l.edge len ≠ .full
  edge len := if len < n then .full else if l.edge len = .full then .full else .panic
  size_le h := by
    have hl := l.size_le h.2
    have hn := h.1
    omega
  image_length {old} h := by
    rw [List.length_append, hheader, l.image_length (by rw [List.length_drop]; omega)]

def struct (l : Layout) : Layout :=
  headed 8 (fun size => word size ++ word PodType.struct.toNat) (by simp) l

def object (type : ObjectType) (id : UInt32) (l : Layout) : Layout :=
  headed 16 (fun size => word (8 + size) ++ (word PodType.object.toNat ++
    (word type.toNat ++ word id.toNat))) (by simp) l

end Layout

/-! ### Pushing lays out -/

/-- The builder that ran out of space, with a buffer of so many bytes. -/
def Builder.Full (len : ℕ) (b : Builder) : Prop := b.error = some .noSpace ∧ b.data.length = len

/-- A builder behind what is done. -/
def Builder.at (done rest : List UInt8) : Builder := ⟨done ++ rest, done.length, none⟩

namespace Layout

/-- The builder that has laid out behind what was done. -/
def laid (l : Layout) (done rest : List UInt8) : Builder :=
  .at (done ++ l.image rest) (rest.drop l.size)

/-- How pushing ends in the buffer. -/
def Outcome (l : Layout) (done rest : List UInt8) (b : Builder) : Prop :=
  ¬ l.Cramped (done.length + rest.length) rest.length ∧
    (l.Fits rest.length ∧ b = l.laid done rest ∨
      ¬ l.Fits rest.length ∧ b.Full (done.length + rest.length))

/-- How pushing ends behind the end of the buffer. -/
def Beyond (l : Layout) (b b' : Builder) : Prop :=
  l.edge b.data.length = .silent ∧ b' = b ∨
    l.edge b.data.length = .full ∧ b'.Full b.data.length

end Layout

/-- A program lays out: it does so behind what is done, it panics where that is said, and it does
nothing after an error. -/
structure Lays (m : Build) (l : Layout) : Prop where
  inside : ∀ done rest, m.Ends (.at done rest) (fun _ => l.Outcome done rest)
    (fun f _ => f = .panic ∧ l.Cramped (done.length + rest.length) rest.length)
  behind : ∀ b : Builder, b.error = none → b.data.length < b.pos →
    m.Ends b (fun _ => l.Beyond b) (fun f _ => f = .panic ∧ l.edge b.data.length = .panic)
  stopped : ∀ b : Builder, b.error.isSome = true → m b = (.ok (), b)

namespace Lays

lemma pure : Lays (Pure.pure ()) .nil where
  inside done rest := by
    refine (ends_pure ()).2 ⟨id, .inl ⟨trivial, ?_⟩⟩
    simp [Layout.laid, Layout.nil, Builder.at]
  behind b _ _ := (ends_pure ()).2 (.inl ⟨rfl, rfl⟩)
  stopped _ _ := rfl

variable {m m' : Build} {l l' : Layout}

lemma ends_stopped (h : Lays m l) {b : Builder} (hb : b.error.isSome = true)
    {Q : Unit → Builder → Prop} {F : Fault → Builder → Prop} : m.Ends b Q F ↔ Q () b := by
  rw [ends_of_run (h.stopped b hb), ends_ofExcept]

/-- One behind the other. -/
theorem bind (h : Lays m l) (h' : Lays m' l') : Lays (m >>= fun _ => m') (l.append l') where
  inside done rest := by
    rw [ends_bind]
    refine (h.inside done rest).mono ?_ ?_
    · rintro - b ⟨hclear, ⟨hfit, rfl⟩ | ⟨hfit, hfull⟩⟩
      · have hsize := l.size_le hfit
        have hnext := h'.inside (done ++ l.image rest) (rest.drop l.size)
        unfold Layout.Outcome at hnext
        rw [List.length_append, l.image_length hsize, List.length_drop,
          (by omega : done.length + l.size + (rest.length - l.size) = done.length + rest.length)]
          at hnext
        refine hnext.mono ?_ ?_
        · rintro - b ⟨hclear', hout⟩
          refine ⟨fun hc => hc.elim hclear fun hc => hclear' hc.2, hout.imp ?_ ?_⟩
          · rintro ⟨hfit', rfl⟩
            refine ⟨⟨hfit, hfit'⟩, ?_⟩
            simp only [Layout.laid, Layout.append, List.append_assoc, List.drop_drop]
          · rintro ⟨hfit', hfull⟩
            exact ⟨fun hf => hfit' hf.2, hfull⟩
        · rintro f b ⟨rfl, hcramped⟩
          exact ⟨rfl, .inr ⟨hfit, hcramped⟩⟩
      · rw [h'.ends_stopped (by rw [hfull.1]; rfl)]
        exact ⟨fun hc => hc.elim hclear fun hc => hfit hc.1, .inr ⟨fun hf => hfit hf.1, hfull⟩⟩
    · rintro f b ⟨rfl, hcramped⟩
      exact ⟨rfl, .inl hcramped⟩
  behind b hb hpos := by
    rw [ends_bind]
    refine (h.behind b hb hpos).mono ?_ ?_
    · rintro - b' (⟨hedge, rfl⟩ | ⟨hedge, hfull⟩)
      · have hsame : (l.append l').edge b'.data.length = l'.edge b'.data.length := by
          simp only [Layout.append, hedge, Edge.append]
        unfold Layout.Beyond
        rw [hsame]
        exact h'.behind b' hb hpos
      · rw [h'.ends_stopped (by rw [hfull.1]; rfl)]
        refine .inr ⟨?_, hfull⟩
        simp only [Layout.append, hedge, Edge.append]
    · rintro f b' ⟨rfl, hedge⟩
      refine ⟨rfl, ?_⟩
      simp only [Layout.append, hedge, Edge.append]
  stopped b hb := by
    rw [bind_ok (h.stopped b hb), h'.stopped b hb]

/-- A value. -/
theorem pod (t : PodTy E) (v : t.Val) : Lays (Builder.pushPod t v) (.pod t v) where
  inside done rest := by
    unfold Builder.pushPod
    rw [ends_bind, ends_get]
    simp only [Builder.at, Option.isSome_none, Bool.false_eq_true, if_false]
    rw [ends_bind, ends_attempt, Builder.onData, ends_zoom, ends_within rfl]
    refine (t.encode_ends v rest).mono ?_ ?_
    · rintro n data ⟨rfl, hneed, hover, rfl⟩
      refine ⟨hover, .inl ⟨hneed, ?_⟩⟩
      simp only [Layout.laid, Layout.pod, Builder.at, List.append_assoc, List.length_append,
        t.image_length v rest (Nat.le_trans (t.size_le_need v) hneed)]
    · rintro f data ⟨hlen, ⟨rfl, hover⟩ | ⟨rfl, hover, hneed⟩⟩
      · exact ⟨rfl, hover⟩
      · refine ⟨hover, .inr ⟨Nat.not_le_of_lt hneed, rfl, ?_⟩⟩
        simp only [List.length_append, hlen]
  behind b hb hpos := by
    unfold Builder.pushPod
    rw [ends_bind, ends_get]
    simp only [hb, Option.isSome_none, Bool.false_eq_true, if_false]
    rw [ends_bind, ends_attempt, Builder.onData, ends_zoom, ends_within_out hpos]
    exact ⟨rfl, rfl⟩
  stopped b hb := by
    have hget : (Prog.get : Prog Builder Fault Builder) b = (.ok b, b) := rfl
    unfold Builder.pushPod
    rw [bind_ok hget, if_pos hb]
    rfl

lemma headed_inside {n : ℕ} {header : ℕ → ℕ → Write Unit} {bytes : ℕ → List UInt8}
    (hn : 8 ≤ n) (hbytes : ∀ size, (bytes size).length = n)
    (hwrite : ∀ done rest size, n ≤ rest.length → n ≤ size + 8 →
      (header done.length size).Ends (done ++ rest)
        (fun _ data => data = done ++ (bytes (size + 8 - n) ++ rest.drop n)) (fun _ _ => False))
    (h : Lays m l) {done rest : List UInt8} (hroom : n ≤ rest.length) :
    m.Ends ⟨done ++ rest, done.length + n, none⟩
      (fun _ b => (Prog.get >>= fun ret : Builder => if ret.error.isSome = true then Pure.pure ()
        else Builder.onData (header done.length (ret.pos - done.length - 8)) : Build).Ends b
          (fun _ => (Layout.headed n bytes hbytes l).Outcome done rest)
          (fun f _ => f = .panic ∧ (Layout.headed n bytes hbytes l).Cramped
            (done.length + rest.length) rest.length))
      (fun f _ => f = .panic ∧ (Layout.headed n bytes hbytes l).Cramped
        (done.length + rest.length) rest.length) := by
  have hat : (⟨done ++ rest, done.length + n, none⟩ : Builder) =
      .at (done ++ rest.take n) (rest.drop n) := by
    unfold Builder.at
    rw [List.append_assoc, List.take_append_drop, List.length_append, List.length_take_of_le hroom]
  have hinside := h.inside (done ++ rest.take n) (rest.drop n)
  unfold Layout.Outcome at hinside
  rw [List.length_append, List.length_take_of_le hroom, List.length_drop,
    (by omega : done.length + n + (rest.length - n) = done.length + rest.length)] at hinside
  have hcramped : (Layout.headed n bytes hbytes l).Cramped (done.length + rest.length) rest.length =
      l.Cramped (done.length + rest.length) (rest.length - n) := if_pos hroom
  unfold Layout.Outcome
  rw [hat, hcramped]
  refine hinside.mono ?_ fun _ _ h => h
  rintro - b ⟨hclear, ⟨hfit, rfl⟩ | ⟨hfit, hfull⟩⟩
  · have himage : (l.image (rest.drop n)).length = l.size :=
      l.image_length (by rw [List.length_drop]; exact l.size_le hfit)
    have htake : (rest.take n).length = n := List.length_take_of_le hroom
    -- the buffer behind what was done, whose first bytes the header takes
    have hwritten := hwrite done (rest.take n ++ (l.image (rest.drop n) ++
      (rest.drop n).drop l.size)) (n + l.size - 8) (by rw [List.length_append]; omega) (by omega)
    rw [ends_bind, ends_get, if_neg (by simp [Layout.laid, Builder.at]), Builder.onData, ends_zoom]
    simp only [Layout.laid, Builder.at, List.append_assoc, List.length_append, htake, himage]
    rw [(by omega : done.length + (n + l.size) - done.length - 8 = n + l.size - 8)]
    refine hwritten.mono ?_ fun _ _ h => h.elim
    rintro - data rfl
    refine ⟨hclear, .inl ⟨⟨hroom, hfit⟩, ?_⟩⟩
    rw [(by omega : n + l.size - 8 + 8 - n = l.size), List.drop_left' htake]
    simp only [Layout.headed, List.append_assoc, List.length_append, himage, hbytes, List.drop_drop]
  · rw [ends_bind, ends_get, if_pos (by rw [hfull.1]; rfl), ends_pure]
    exact ⟨hclear, .inr ⟨fun hf => hfit hf.2, hfull⟩⟩

/-- Members behind a header. -/
theorem headed {n : ℕ} {header : ℕ → ℕ → Write Unit} {bytes : ℕ → List UInt8}
    (hn : 8 ≤ n) (hbytes : ∀ size, (bytes size).length = n)
    (hwrite : ∀ done rest size, n ≤ rest.length → n ≤ size + 8 →
      (header done.length size).Ends (done ++ rest)
        (fun _ data => data = done ++ (bytes (size + 8 - n) ++ rest.drop n)) (fun _ _ => False))
    (hout : ∀ data pos size, data.length < pos + n → (header pos size).Ends data
      (fun _ _ => False) (fun f _ => f = .panic)) (h : Lays m l) :
    Lays (Builder.pushHeaded n header m) (.headed n bytes hbytes l) where
  inside done rest := by
    unfold Builder.pushHeaded
    rw [ends_bind, ends_get]
    simp only [Builder.at, Option.isSome_none, Bool.false_eq_true, if_false, List.length_append]
    by_cases hlen : done.length + rest.length < n
    · have hroom : ¬ n ≤ rest.length := by omega
      rw [if_pos hlen, ends_modify]
      refine ⟨?_, .inr ⟨fun hf => hroom hf.1, rfl, List.length_append⟩⟩
      simp only [Layout.headed, hroom, if_false]
      omega
    · rw [if_neg hlen, ends_bind, ends_modify, ends_bind]
      by_cases hroom : n ≤ rest.length
      · exact headed_inside hn hbytes hwrite h hroom
      · -- the members are pushed behind the end of the buffer
        refine (h.behind ⟨done ++ rest, done.length + n, none⟩ rfl ?_).mono ?_ ?_
        · simp only [List.length_append]
          omega
        · rintro - b (⟨hedge, rfl⟩ | ⟨hedge, hfull⟩)
          · rw [ends_bind, ends_get, if_neg (by simp), Builder.onData, ends_zoom]
            refine (hout _ _ _ ?_).mono (fun _ _ h => h.elim) ?_
            · simp only [List.length_append]
              omega
            · rintro f data rfl
              simp only [List.length_append] at hedge
              simp only [Layout.headed, hroom, if_false, hedge]
              exact ⟨trivial, by omega, by simp⟩
          · rw [ends_bind, ends_get, if_pos (by rw [hfull.1]; rfl), ends_pure]
            simp only [List.length_append] at hedge hfull
            refine ⟨?_, .inr ⟨fun hf => hroom hf.1, hfull⟩⟩
            simp [Layout.headed, hroom, hedge]
        · rintro f b ⟨rfl, hedge⟩
          simp only [List.length_append] at hedge
          simp only [Layout.headed, hroom, if_false, hedge]
          exact ⟨trivial, by omega, by simp⟩
  behind b hb hpos := by
    unfold Builder.pushHeaded
    rw [ends_bind, ends_get]
    simp only [hb, Option.isSome_none, Bool.false_eq_true, if_false]
    by_cases hlen : b.data.length < n
    · rw [if_pos hlen, ends_modify]
      exact .inr ⟨if_pos hlen, rfl, rfl⟩
    · rw [if_neg hlen, ends_bind, ends_modify, ends_bind]
      have hedge' : (Layout.headed n bytes hbytes l).edge b.data.length =
          if l.edge b.data.length = .full then .full else .panic := if_neg hlen
      refine (h.behind { b with pos := b.pos + n } hb (by simp only []; omega)).mono ?_ ?_
      · rintro - b' (⟨hedge, rfl⟩ | ⟨hedge, hfull⟩)
        · rw [ends_bind, ends_get, if_neg (by simp [hb]), Builder.onData, ends_zoom]
          refine (hout _ _ _ (by simp only []; omega)).mono (fun _ _ h => h.elim) ?_
          rintro f data rfl
          rw [hedge', if_neg (by rw [hedge]; simp)]
          exact ⟨rfl, rfl⟩
        · rw [ends_bind, ends_get, if_pos (by rw [hfull.1]; rfl), ends_pure]
          refine .inr ⟨?_, hfull⟩
          rw [hedge', if_pos hedge]
      · rintro f b' ⟨rfl, hedge⟩
        rw [hedge', if_neg (by rw [hedge]; simp)]
        exact ⟨rfl, rfl⟩
  stopped b hb := by
    have hget : (Prog.get : Prog Builder Fault Builder) b = (.ok b, b) := rfl
    unfold Builder.pushHeaded
    rw [bind_ok hget, if_pos hb]
    rfl

theorem struct (h : Lays m l) : Lays (Builder.pushStruct m) l.struct := by
  refine headed (Nat.le_refl 8) _ ?_ ?_ h
  · intro done rest size hroom _
    rw [ends_bind, ends_write rfl (by rw [leBytes_length]; omega),
      ends_write (by simp) (by simp only [leBytes_length, List.length_drop]; omega)]
    simp only [leBytes_length, List.drop_drop, List.append_assoc, Nat.add_sub_cancel]
  · intro data pos size hpos
    rw [ends_bind]
    refine (write_ends pos _ data).mono ?_ fun _ _ h => h
    rintro - data' ⟨hlen, -⟩
    refine (write_ends (pos + 4) _ data').mono ?_ fun _ _ h => h
    rintro - data'' ⟨-, hle⟩
    rw [leBytes_length] at hle
    omega

theorem object (type : ObjectType) (id : UInt32) (h : Lays m l) :
    Lays (Builder.pushObject type id m) (l.object type id) := by
  refine headed (by decide) _ ?_ ?_ h
  · intro done rest size hroom hsize
    rw [ends_bind, ends_write rfl (by rw [leBytes_length]; omega), ends_bind,
      ends_write (by simp) (by simp only [leBytes_length, List.length_drop]; omega), ends_bind,
      ends_write (by simp) (by simp only [leBytes_length, List.length_drop]; omega),
      ends_write (by simp) (by simp only [leBytes_length, List.length_drop]; omega)]
    rw [(by omega : 8 + (size + 8 - 16) = size)]
    simp only [leBytes_length, List.drop_drop, List.append_assoc]
  · intro data pos size hpos
    rw [ends_bind]
    refine (write_ends pos _ data).mono ?_ fun _ _ h => h
    rintro - data₁ ⟨hlen₁, -⟩
    rw [ends_bind]
    refine (write_ends (pos + 4) _ data₁).mono ?_ fun _ _ h => h
    rintro - data₂ ⟨hlen₂, -⟩
    rw [ends_bind]
    refine (write_ends (pos + 8) _ data₂).mono ?_ fun _ _ h => h
    rintro - data₃ ⟨hlen₃, -⟩
    refine (write_ends (pos + 12) _ data₃).mono ?_ fun _ _ h => h
    rintro - data₄ ⟨-, hle⟩
    rw [leBytes_length] at hle
    omega

end Lays

/-! ### Whole runs -/

/-- Pushing into a fresh buffer and building: the bytes, no space, or a panic. -/
theorem Lays.run {m : Build} {l : Layout} (h : Lays m l) (data : List UInt8) :
    (¬ l.Cramped data.length data.length ∧ l.Fits data.length ∧
        Builder.run m data = .ok (l.image data)) ∨
      (¬ l.Cramped data.length data.length ∧ ¬ l.Fits data.length ∧
        Builder.run m data = .error .noSpace) ∨
      l.Cramped data.length data.length ∧ Builder.run m data = .error .panic := by
  have hinside := h.inside [] data
  unfold Builder.run
  change m.Ends (Builder.new data) _ _ at hinside
  unfold Ends Layout.Outcome at hinside
  simp only [List.length_nil, Nat.zero_add] at hinside
  generalize m (Builder.new data) = r at hinside
  obtain ⟨_ | _, b⟩ := r
  · obtain ⟨rfl, hcramped⟩ := hinside
    exact .inr (.inr ⟨hcramped, rfl⟩)
  · obtain ⟨hclear, ⟨hfit, rfl⟩ | ⟨hfit, hfull⟩⟩ := hinside
    · refine .inl ⟨hclear, hfit, ?_⟩
      simp only [Builder.build, Layout.laid, Builder.at, List.nil_append]
      exact slice_zero rfl
    · refine .inr (.inl ⟨hclear, hfit, ?_⟩)
      simp only [Builder.build, hfull.1]
      rfl

def entriesLayout {k : E.Name} : List (Entry E k) → Layout
  | [] => .nil
  | ⟨t, v⟩ :: props => (Layout.pod (.property k t) v).append (entriesLayout props)

lemma pushEntries_lays {k : E.Name} (props : List (Entry E k)) :
    Lays (pushEntries props) (entriesLayout props) := by
  induction props with
  | nil => exact .pure
  | cons e props ih => exact (Lays.pod (.property k e.1) e.2).bind ih

namespace Items

def layout : Items E → Layout
  | done => .nil
  | pod t v next => (Layout.pod t v).append next.layout
  | struct members next => members.layout.struct.append next.layout
  | object type _ id _ props next =>
    ((entriesLayout props).object type (E.into id)).append next.layout

theorem push_lays (items : Items E) : Lays items.push items.layout := by
  induction items with
  | done => exact .pure
  | pod t v next ih => exact (Lays.pod t v).bind ih
  | struct members next ihm ihn => exact ihm.struct.bind ihn
  | object type i id k props next ih => exact ((pushEntries_lays props).object type (E.into id)).bind ih

end Items

end PipewireNative.Pod
