import PipewireNative.Pod.Layout

/-!
When there is space. Of values without choices, which ask for more than they write, building gives
the bytes where they fit and says that there is no space where they do not, unless a header is
begun that there is no room for, or the length of an array is not computed.
-/

namespace PipewireNative.Pod

open Lib Lib.Word Prog

variable {E : Enums}

namespace PodTy

/-- A value that is no choice and is made of none. -/
def Choiceless : (t : PodTy E) → t.Val → Prop
  | .choice _, _ => False
  | .property _ t, v => t.Choiceless v.value
  | .option t, some v => t.Choiceless v
  | _, _ => True

lemma need_eq_size_iff (t : PodTy E) (v : t.Val) : t.need v = t.size v ↔ t.Choiceless v := by
  induction t with
  | choice p =>
    change 16 + frame (choiceSize p v) = frame (choiceSize p v) ↔ False
    rw [iff_false]
    omega
  | property k t ih =>
    change 8 + t.need v.value = 8 + t.size v.value ↔ _
    rw [Nat.add_left_cancel_iff]
    exact ih v.value
  | option t ih =>
    cases v with
    | none => exact iff_of_true rfl trivial
    | some v => exact ih v
  | _ => exact iff_of_true rfl trivial

end PodTy

namespace Layout

/-- What fits is what is not longer than the room there is. -/
def Exact (l : Layout) : Prop := ∀ room, l.size ≤ room → l.Fits room

lemma exact_nil : nil.Exact := fun _ _ => trivial

lemma Exact.append {l m : Layout} (hl : l.Exact) (hm : m.Exact) : (l.append m).Exact := by
  intro room hroom
  change l.size + m.size ≤ room at hroom
  exact ⟨hl room (by omega), hm (room - l.size) (by omega)⟩

lemma Exact.headed {l : Layout} (hl : l.Exact) {n : ℕ} {header : ℕ → List UInt8}
    {hheader : ∀ size, (header size).length = n} : (headed n header hheader l).Exact := by
  intro room hroom
  change n + l.size ≤ room at hroom
  exact ⟨by omega, hl (room - n) (by omega)⟩

lemma exact_pod {t : PodTy E} {v : t.Val} (hv : t.Choiceless v) : (pod t v).Exact := by
  intro room hroom
  change t.need v ≤ room
  rw [(t.need_eq_size_iff v).2 hv]
  exact hroom

end Layout

namespace Items

/-- No choices in what is pushed. -/
def Choiceless : Items E → Prop
  | done => True
  | pod t v next => t.Choiceless v ∧ next.Choiceless
  | struct members next => members.Choiceless ∧ next.Choiceless
  | object _ _ _ k props next =>
    (∀ e ∈ props, (PodTy.property k e.1).Choiceless e.2) ∧ next.Choiceless

lemma exact_entries {k : E.Name} {props : List (Entry E k)}
    (h : ∀ e ∈ props, (PodTy.property k e.1).Choiceless e.2) : (entriesLayout props).Exact := by
  induction props with
  | nil => exact Layout.exact_nil
  | cons e props ih =>
    have hhead := h e List.mem_cons_self
    exact (Layout.exact_pod hhead).append (ih fun e' he' => h e' (List.mem_cons_of_mem e he'))

lemma exact_layout {items : Items E} (h : items.Choiceless) : items.layout.Exact := by
  induction items with
  | done => exact Layout.exact_nil
  | pod t v next ih => exact (Layout.exact_pod h.1).append (ih h.2)
  | struct members next ihm ihn => exact (ihm h.1).headed.append (ihn h.2)
  | object type i id k props next ih => exact (exact_entries h.1).headed.append (ih h.2)

/-- **Building.** The bytes of what was pushed if they fit, and otherwise no space, is what comes
out exactly when nothing is cramped: no struct and no object is begun with less than its header's
room left in a buffer that is long enough for it, and no length overflows. -/
theorem build_eq_iff (items : Items E) (hchoice : items.Choiceless) (data : List UInt8) :
    (items.build data = if items.layout.size ≤ data.length then .ok (items.layout.image data)
      else .error .noSpace) ↔ ¬ items.layout.Cramped data.length data.length := by
  have hexact := exact_layout hchoice
  unfold build
  rcases items.push_lays.run data with ⟨hclear, hfit, hrun⟩ | ⟨hclear, hfit, hrun⟩ | ⟨hcramped, hrun⟩
  · rw [hrun, if_pos (items.layout.size_le hfit)]
    simp [hclear]
  · rw [hrun, if_neg fun hle => hfit (hexact _ hle)]
    simp [hclear]
  · rw [hrun]
    simp only [hcramped, not_true_eq_false, iff_false]
    split_ifs
    · simp
    · intro h
      cases h

def noneThenStruct : Items Enums.plain := .pod (.prim .unit) () (.struct .done .done)

theorem build_noneThenStruct_sixteen : noneThenStruct.build (List.replicate 16 0) =
    (if noneThenStruct.layout.size ≤ (List.replicate 16 (0 : UInt8)).length
      then .ok (noneThenStruct.layout.image (List.replicate 16 0)) else .error .noSpace) := by
  refine (build_eq_iff noneThenStruct ⟨trivial, trivial, trivial⟩ _).2 ?_
  rintro (h | ⟨-, h | ⟨-, h⟩⟩)
  · exact h
  · exact h
  · exact h

/-- In a buffer of 8 bytes, which the first push fills, the second one panics. -/
theorem build_noneThenStruct_eight : noneThenStruct.Choiceless ∧ 8 < noneThenStruct.layout.size ∧
    noneThenStruct.build (List.replicate 8 0) = .error .panic :=
  ⟨⟨trivial, trivial, trivial⟩, by decide, by rfl⟩

end Items

end PipewireNative.Pod
