import PipewireNative.Pod.Flat

/-!
Types that encode themselves through a builder of their own, and pushing them.
-/

namespace PipewireNative.Pod

open Lib Lib.Word Prog

/-- `encode` as it is derived: a builder on the buffer, and the length of what was built. -/
def Builder.encode (m : Build) : Write ℕ := fun data =>
  match m (.new data) with
  | (.ok _, b) => (b.build.map List.length, b.data)
  | (.error f, b) => (.error f, b.data)

/-- `push_pod`, of a type with this `encode`. -/
def Builder.pushWith (encode : Write ℕ) : Build := do
  let b ← .get
  if b.error.isSome then pure ()
  else do
    match ← (onData (within b.pos encode)).attempt with
    | .ok size => .modify fun b => { b with pos := b.pos + size }
    | .error (.error e) => .modify fun b => { b with error := some e }
    | .error .panic => .fail .panic

/-- A write fills the beginning of the buffer with these bytes, or reports that there is no space
for them. -/
def Fills (p : Write ℕ) (bytes : List UInt8) : Prop :=
  ∀ data, p.Ends data
    (fun n data' => n = bytes.length ∧ bytes.length ≤ data.length ∧
      data' = bytes ++ data.drop bytes.length)
    (fun f data' => f = .noSpace ∧ data.length < bytes.length ∧ data'.length = data.length)

/-- Bytes that are written as they are. -/
def Layout.plain (bytes : List UInt8) : Layout where
  size := bytes.length
  image _ := bytes
  Fits room := bytes.length ≤ room
  Cramped _ _ := False
  edge _ := .panic
  size_le h := h
  image_length _ := rfl

variable {m : Build} {bytes : List UInt8}

lemma Lays.fill {encode : Write ℕ} (h : Fills encode bytes) :
    Lays (Builder.pushWith encode) (.plain bytes) where
  inside done rest := by
    unfold Builder.pushWith
    rw [ends_bind, ends_get]
    simp only [Builder.at, Option.isSome_none, Bool.false_eq_true, if_false]
    rw [ends_bind, ends_attempt, Builder.onData, ends_zoom, ends_within rfl]
    refine (h rest).mono ?_ ?_
    · rintro n data ⟨rfl, hle, rfl⟩
      refine ⟨id, .inl ⟨hle, ?_⟩⟩
      simp only [Layout.laid, Layout.plain, Builder.at, List.append_assoc, List.length_append]
    · rintro f data ⟨rfl, hlt, hlen⟩
      refine ⟨id, .inr ⟨Nat.not_le_of_lt hlt, rfl, ?_⟩⟩
      simp only [List.length_append, hlen]
  behind b hb hpos := by
    unfold Builder.pushWith
    rw [ends_bind, ends_get]
    simp only [hb, Option.isSome_none, Bool.false_eq_true, if_false]
    rw [ends_bind, ends_attempt, Builder.onData, ends_zoom, ends_within_out hpos]
    exact ⟨rfl, rfl⟩
  stopped b hb := by
    have hget : (Prog.get : Prog Builder Fault Builder) b = (.ok b, b) := rfl
    unfold Builder.pushWith
    rw [bind_ok hget, if_pos hb]
    rfl

lemma Writes.fill {encode : Write ℕ} (h : Fills encode bytes) (hmod : bytes.length % 8 = 0) :
    Writes (Builder.pushWith encode) bytes := by
  refine ⟨hmod, .plain bytes, .fill h, ⟨fun _ => rfl, fun _ hle => hle⟩, fun _ _ => id, ?_⟩
  exact fun _ => by simp [Layout.plain]

/-- How encoding through a builder ends. -/
theorem Lays.encode_ends {l : Layout} (h : Lays m l) (data : List UInt8) :
    (Builder.encode m).Ends data
      (fun n data' => l.Fits data.length ∧ n = l.size ∧
        data' = l.image data ++ data.drop l.size)
      (fun f data' => (f = .noSpace ∧ ¬ l.Fits data.length ∧ data'.length = data.length) ∨
        f = .panic ∧ l.Cramped data.length data.length) := by
  have hinside := h.inside [] data
  change m.Ends (Builder.new data) _ _ at hinside
  unfold Ends Layout.Outcome at hinside
  simp only [List.length_nil, Nat.zero_add] at hinside
  unfold Ends Builder.encode
  generalize m (Builder.new data) = r at hinside
  obtain ⟨_ | _, b⟩ := r
  · exact .inr hinside
  · obtain ⟨-, ⟨hfit, rfl⟩ | ⟨hfit, hfull⟩⟩ := hinside
    · have hslice : (slice (l.image data ++ data.drop l.size) 0 (l.image data).length : Read _) =
          .ok (l.image data) := slice_zero rfl
      simp only [Builder.build, Layout.laid, Builder.at, List.nil_append, hslice, Except.map]
      exact ⟨hfit, l.image_length (l.size_le hfit), trivial⟩
    · simp only [Builder.build, hfull.1, Except.map]
      exact .inl ⟨rfl, hfit, hfull.2⟩

/-- A struct of what is written fills. -/
theorem Writes.fills (h : Writes m bytes) :
    Fills (Builder.encode (Builder.pushStruct m)) (podOf bytes.length .struct bytes []) := by
  obtain ⟨-, l, hlays, hshows, hsmooth, -⟩ := h
  have hstruct := hshows.struct
  intro data
  refine (hlays.struct.encode_ends data).mono ?_ ?_
  · rintro n data' ⟨hfit, rfl, rfl⟩
    have hle := l.struct.size_le hfit
    rw [hstruct.size] at hle ⊢
    exact ⟨rfl, hle, by rw [hstruct.image]⟩
  · rintro f data' (⟨rfl, hfit, hlen⟩ | ⟨rfl, hcramped⟩)
    · refine ⟨rfl, ?_, hlen⟩
      by_contra hle
      refine hfit (hstruct.exact _ ?_)
      rw [hstruct.size]
      exact Nat.le_of_not_lt hle
    · refine absurd hcramped ?_
      simp only [Layout.struct, Layout.headed]
      split_ifs with hroom
      · exact hsmooth _ _
      · exact fun h => hroom h.1

end PipewireNative.Pod
