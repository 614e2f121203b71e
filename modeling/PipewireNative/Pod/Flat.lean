import PipewireNative.Pod.Space
import PipewireNative.Pod.Tree

/-!
Layouts whose bytes do not depend on what was in the buffer: values without arrays and choices, and
structs of them. What is pushed then has one encoding, and the parser reads it back.
-/

namespace PipewireNative.Pod

open Lib Lib.Word Prog

variable {E : Enums} {ω : Type}

namespace PodTy

/-- Types whose values are written whole, padding and all. -/
def Simple : PodTy E → Prop
  | .prim _ | .string | .bytes | .pointer | .raw => True
  | _ => False

instance decidableSimple : (t : PodTy E) → Decidable t.Simple
  | .prim _ | .string | .bytes | .pointer | .raw => .isTrue trivial
  | .array _ | .choice _ | .property .. | .option _ => .isFalse id

def plainBytes (t : PodTy E) (v : t.Val) : List UInt8 := t.image v []

variable {t : PodTy E}

lemma Simple.image_eq (ht : t.Simple) (v : t.Val) (old : List UInt8) :
    t.image v old = t.plainBytes v := by
  cases t with
  | prim _ | string | bytes | pointer | raw => rfl
  | _ => exact ht.elim

lemma Simple.choiceless (ht : t.Simple) (v : t.Val) : t.Choiceless v := by
  cases t with
  | choice _ | property _ _ | option _ => exact ht.elim
  | _ => trivial

lemma Simple.not_overflow (ht : t.Simple) (v : t.Val) (room : ℕ) : ¬ t.Overflow v room := by
  cases t with
  | prim _ | string | bytes | pointer | raw => exact id
  | _ => exact ht.elim

lemma Simple.knownFlags (ht : t.Simple) (v : t.Val) : t.KnownFlags v := by
  cases t with
  | property _ _ | option _ => exact ht.elim
  | _ => trivial

lemma Simple.length_plainBytes (ht : t.Simple) (v : t.Val) :
    (t.plainBytes v).length = t.size v := by
  rw [← ht.image_eq v (List.replicate (t.size v) 0)]
  exact t.image_length v _ (Nat.le_of_eq List.length_replicate.symm)

end PodTy

namespace Layout

/-- The bytes are these, whatever was there, and they fit where there is room for them. -/
structure Shows (l : Layout) (bytes : List UInt8) : Prop where
  image : ∀ old, l.image old = bytes
  exact : l.Exact

/-- Pushing does not panic inside the buffer. -/
def Smooth (l : Layout) : Prop := ∀ len room, ¬ l.Cramped len room

variable {l m : Layout} {bytes bytes' : List UInt8}

lemma Shows.size (h : l.Shows bytes) : l.size = bytes.length := by
  rw [← h.image (List.replicate l.size 0)]
  exact (l.image_length (Nat.le_of_eq List.length_replicate.symm)).symm

lemma shows_nil : nil.Shows [] := ⟨fun _ => rfl, exact_nil⟩

lemma Shows.append (h : l.Shows bytes) (h' : m.Shows bytes') :
    (l.append m).Shows (bytes ++ bytes') where
  image old := by
    change l.image old ++ m.image _ = _
    rw [h.image, h'.image]
  exact := h.exact.append h'.exact

lemma shows_pod {t : PodTy E} (ht : t.Simple) (v : t.Val) : (pod t v).Shows (t.plainBytes v) where
  image := ht.image_eq v
  exact := exact_pod (ht.choiceless v)

lemma Shows.struct (h : l.Shows bytes) :
    l.struct.Shows (podOf bytes.length .struct bytes []) where
  image old := by
    have himage : l.struct.image old =
        word l.size ++ word PodType.struct.toNat ++ l.image (old.drop 8) := rfl
    rw [himage, h.image, h.size, podOf, List.append_nil, List.append_assoc]
  exact := h.exact.headed

lemma smooth_nil : nil.Smooth := fun _ _ => id

lemma Smooth.append (h : l.Smooth) (h' : m.Smooth) : (l.append m).Smooth := by
  rintro len room (hl | ⟨-, hm⟩)
  · exact h len room hl
  · exact h' len _ hm

lemma smooth_pod {t : PodTy E} (ht : t.Simple) (v : t.Val) : (pod t v).Smooth :=
  fun _ room => ht.not_overflow v room

end Layout

/-- A program pushes these bytes, which are so many that no padding is needed behind them, and does
not panic in the buffer. -/
def Writes (m : Build) (bytes : List UInt8) : Prop :=
  bytes.length % 8 = 0 ∧
    ∃ l, Lays m l ∧ l.Shows bytes ∧ l.Smooth ∧ ∀ len, l.edge len ≠ .full

namespace Writes

variable {m m' : Build} {bytes bytes' : List UInt8}

lemma pure : Writes (Pure.pure ()) [] :=
  ⟨rfl, .nil, .pure, Layout.shows_nil, Layout.smooth_nil, fun _ => by simp [Layout.nil]⟩

lemma bind (h : Writes m bytes) (h' : Writes m' bytes') :
    Writes (m >>= fun _ => m') (bytes ++ bytes') := by
  obtain ⟨hmod, l, hlays, hshows, hsmooth, hedge⟩ := h
  obtain ⟨hmod', l', hlays', hshows', hsmooth', hedge'⟩ := h'
  refine ⟨by rw [List.length_append]; omega, l.append l', hlays.bind hlays', hshows.append hshows',
    hsmooth.append hsmooth', ?_⟩
  intro len
  have hl := hedge len
  have hl' := hedge' len
  simp only [Layout.append]
  cases he : l.edge len with
  | silent => exact hl'
  | full => exact absurd he hl
  | panic => simp [Edge.append]

lemma pod {t : PodTy E} (ht : t.Simple) (v : t.Val) :
    Writes (Builder.pushPod t v) (t.plainBytes v) := by
  refine ⟨?_, .pod t v, .pod t v, Layout.shows_pod ht v, Layout.smooth_pod ht v, ?_⟩
  · rw [ht.length_plainBytes]
    exact t.size_mod_eight v
  · exact fun _ => by simp [Layout.pod]

lemma run_of_lays {l : Layout} (h : Lays m l) (hl : l.Shows bytes) (data : List UInt8)
    [Decidable (l.Cramped data.length data.length)] :
    Builder.run m data = if l.Cramped data.length data.length then .error .panic
      else if bytes.length ≤ data.length then .ok bytes else .error .noSpace := by
  rcases h.run data with ⟨hclear, hfit, hrun⟩ | ⟨hclear, hfit, hrun⟩ | ⟨hcramped, hrun⟩
  · have hle := l.size_le hfit
    rw [hl.size] at hle
    rw [if_neg hclear, if_pos hle, hrun, hl.image]
  · rw [if_neg hclear, if_neg, hrun]
    intro hle
    rw [← hl.size] at hle
    exact hfit (hl.exact _ hle)
  · rw [if_pos hcramped, hrun]

lemma run_struct (h : Writes m bytes) (data : List UInt8) :
    Builder.run (Builder.pushStruct m) data =
      if 8 + bytes.length ≤ data.length then .ok (podOf bytes.length .struct bytes [])
      else .error .noSpace := by
  classical
  obtain ⟨-, l, hlays, hshows, hsmooth, -⟩ := h
  have hclear : ¬ l.struct.Cramped data.length data.length := by
    simp only [Layout.struct, Layout.headed]
    split_ifs with hroom
    · exact hsmooth _ _
    · exact fun h => hroom h.1
  rw [run_of_lays hlays.struct hshows.struct, if_neg hclear]
  simp only [podOf, List.append_nil, List.length_append, leBytes_length]
  rw [← Nat.add_assoc]

/-- A struct of what is pushed and of another struct behind it. It panics where the buffer ends in
the header of the other struct. -/
lemma run_struct_tail (h : Writes m bytes) (h' : Writes m' bytes') (data : List UInt8) :
    Builder.run (Builder.pushStruct (m >>= fun _ => Builder.pushStruct m')) data =
      if 8 + bytes.length ≤ data.length ∧ data.length < 16 + bytes.length then .error .panic
      else if 16 + bytes.length + bytes'.length ≤ data.length then
        .ok (podOf (8 + bytes.length + bytes'.length) .struct
          (bytes ++ podOf bytes'.length .struct bytes' []) [])
      else .error .noSpace := by
  classical
  obtain ⟨-, l, hlays, hshows, hsmooth, -⟩ := h
  obtain ⟨-, l', hlays', hshows', hsmooth', hedge'⟩ := h'
  have hsize := hshows.size
  have hshown := (hshows.append hshows'.struct).struct
  have hcramped : (l.append l'.struct).struct.Cramped data.length data.length ↔
      8 + bytes.length ≤ data.length ∧ data.length < 16 + bytes.length := by
    by_cases hroom : 8 ≤ data.length
    · have houter : (l.append l'.struct).struct.Cramped data.length data.length =
          (l.append l'.struct).Cramped data.length (data.length - 8) := if_pos hroom
      have hno := hsmooth data.length (data.length - 8)
      rw [houter]
      simp only [Layout.append, Layout.struct, Layout.headed, hno, false_or]
      split_ifs with hroom'
      · have hno' := hsmooth' data.length (data.length - 8 - l.size - 8)
        simp only [hno', and_false, false_iff]
        omega
      · simp only [hroom, hedge' data.length, ne_eq, not_false_eq_true, and_true]
        constructor
        · intro hfit
          have hle := l.size_le hfit
          omega
        · intro hle
          exact hshows.exact _ (by omega)
    · have houter : (l.append l'.struct).struct.Cramped data.length data.length =
          (8 ≤ data.length ∧ (l.append l'.struct).edge data.length ≠ .full) := if_neg hroom
      rw [houter]
      simp only [hroom, false_and, false_iff]
      omega
  have hlength : (bytes ++ podOf bytes'.length .struct bytes' []).length =
      8 + bytes.length + bytes'.length := by
    simp only [podOf, List.append_nil, List.length_append, leBytes_length]
    omega
  rw [run_of_lays (hlays.bind hlays'.struct).struct hshown, hlength]
  simp only [hcramped]
  have htotal : (podOf (8 + bytes.length + bytes'.length) .struct
      (bytes ++ podOf bytes'.length .struct bytes' []) []).length =
      16 + bytes.length + bytes'.length := by
    rw [podOf, List.append_nil, List.length_append, List.length_append, hlength]
    simp only [leBytes_length]
    omega
  rw [htotal]

end Writes

lemma Reads.plain (hE : E.Lawful) {t : PodTy E} (ht : t.Simple) (hr : t.Readable) {v : t.Val}
    (hv : t.Bounded v) : Reads (Parser.popPod t : Pop ω t.Val) (t.plainBytes v) v := by
  refine Reads.popPod fun rest => ?_
  rw [← ht.image_eq v (List.replicate (t.size v) 0),
    t.image_length v _ (Nat.le_of_eq List.length_replicate.symm)]
  exact PodTy.decode_image hE hr hv (ht.knownFlags v) (Nat.le_of_eq List.length_replicate.symm) rest

end PipewireNative.Pod
