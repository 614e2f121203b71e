import Mathlib.Algebra.Order.BigOperators.Group.List
import Mathlib.Algebra.Order.Ring.Nat
import Mathlib.Tactic.Common
import Mathlib.Data.List.Basic

/-!
The map from ids to objects: a vector of slots that are used again when they are empty.
-/

namespace PipewireNative.Core

inductive Item (α : Type) where
  | empty
  | reserved
  | occupied (object : α)
  deriving DecidableEq, Repr

namespace Item

variable {α : Type}

def isEmpty : Item α → Bool
  | empty => true
  | _ => false

/-- `as_ref`. -/
def object? : Item α → Option α
  | occupied object => some object
  | _ => none

end Item

structure IdMap (α : Type) where
  objects : List (Item α)
  deriving DecidableEq, Repr

namespace IdMap

variable {α : Type}

def new : IdMap α := ⟨[]⟩

/-- The first empty slot, or a new one; the id is a `u32`. -/
def reserve (m : IdMap α) : UInt32 × IdMap α :=
  match m.objects.findIdx? Item.isEmpty with
  | some id => (.ofNat id, ⟨m.objects.set id .reserved⟩)
  | none => (.ofNat m.objects.length, ⟨m.objects ++ [.reserved]⟩)

/-- An object goes into a slot that was reserved; it is a panic if there is none. -/
def insertAt (m : IdMap α) (id : UInt32) (object : α) : Option (IdMap α) :=
  match m.objects[id.toNat]? with
  | some .reserved => some ⟨m.objects.set id.toNat (.occupied object)⟩
  | _ => none

def remove (m : IdMap α) (id : UInt32) : IdMap α := ⟨m.objects.set id.toNat .empty⟩

def get (m : IdMap α) (id : UInt32) : Option α := m.objects[id.toNat]?.bind Item.object?

def values (m : IdMap α) : List α := m.objects.filterMap Item.object?

variable {m : IdMap α} {i : ℕ} {k : α}

lemma reserve_occupied :
    m.reserve.2.objects[i]? = some (.occupied k) ↔ m.objects[i]? = some (.occupied k) := by
  unfold reserve
  split
  · next j hj =>
    obtain ⟨hlt, hempty, -⟩ := List.findIdx?_eq_some_iff_getElem.1 hj
    rw [List.getElem?_set]
    split_ifs with hji
    · subst hji
      rw [List.getElem?_eq_getElem hlt]
      cases hitem : m.objects[j] <;> simp [hitem, Item.isEmpty] at hempty ⊢
    · rfl
  · rw [List.getElem?_append]
    split_ifs with hlt
    · rfl
    · have hnone : m.objects[i]? = none := List.getElem?_eq_none (Nat.le_of_not_lt hlt)
      rw [hnone]
      cases i - m.objects.length <;> simp

lemma insertAt_occupied {id : UInt32} {object : α} {m' : IdMap α}
    (h : m.insertAt id object = some m') :
    m.objects[id.toNat]? = some .reserved ∧ m'.objects = m.objects.set id.toNat (.occupied object) := by
  unfold insertAt at h
  split at h
  · next hslot =>
    cases h
    exact ⟨hslot, rfl⟩
  · cases h

lemma get_eq_some {id : UInt32} :
    m.get id = some k ↔ m.objects[id.toNat]? = some (.occupied k) := by
  unfold get
  cases hitem : m.objects[id.toNat]? with
  | none => simp
  | some item => cases item <;> simp [Item.object?]

lemma mem_values {id : UInt32} (h : m.get id = some k) : k ∈ m.values :=
  List.mem_filterMap.2 ⟨.occupied k, List.mem_of_getElem? (get_eq_some.1 h), rfl⟩

end IdMap

end PipewireNative.Core
