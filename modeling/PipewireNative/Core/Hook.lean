import Mathlib.Algebra.Order.BigOperators.Group.List
import Mathlib.Algebra.Order.Ring.Nat
import Mathlib.Tactic.Common
import Mathlib.Data.List.Basic
import Mathlib.Data.List.Nodup

/-!
Lists of callbacks. While a hook is dispatched its callbacks are taken out of the list, so that they
are not called again by what they do.
-/

namespace PipewireNative.Core

structure Hook (α : Type) where
  id : ℕ
  /-- They are not there while the hook is dispatched. -/
  callbacks : Option α
  deriving DecidableEq, Repr

/-- The hooks in the order in which they are called, and the id that is next. -/
structure HookList (α : Type) where
  hooks : List (Hook α)
  nextId : ℕ
  fresh : ∀ hook ∈ hooks, hook.id < nextId
  nodup : (hooks.map Hook.id).Nodup

namespace HookList

variable {α : Type}

def new : HookList α := ⟨[], 0, nofun, .nil⟩

def append (l : HookList α) (callbacks : α) : HookList α where
  hooks := l.hooks ++ [⟨l.nextId, some callbacks⟩]
  nextId := l.nextId + 1
  fresh hook h := by
    rw [List.mem_append, List.mem_singleton] at h
    obtain h | rfl := h
    · exact Nat.lt_succ_of_lt (l.fresh hook h)
    · exact Nat.lt_succ_self _
  nodup := by
    rw [List.map_append, List.nodup_append]
    refine ⟨l.nodup, List.nodup_singleton _, ?_⟩
    rintro id hid _ hnext rfl
    obtain ⟨hook, hmem, rfl⟩ := List.mem_map.1 hid
    exact Nat.ne_of_lt (l.fresh hook hmem) (List.mem_singleton.1 hnext)

def prepend (l : HookList α) (callbacks : α) : HookList α where
  hooks := ⟨l.nextId, some callbacks⟩ :: l.hooks
  nextId := l.nextId + 1
  fresh hook h := by
    obtain rfl | h := List.mem_cons.1 h
    · exact Nat.lt_succ_self _
    · exact Nat.lt_succ_of_lt (l.fresh hook h)
  nodup := by
    rw [List.map_cons, List.nodup_cons]
    refine ⟨fun hid => ?_, l.nodup⟩
    obtain ⟨hook, hmem, hnext⟩ := List.mem_map.1 hid
    exact Nat.ne_of_lt (l.fresh hook hmem) hnext

def remove (l : HookList α) (id : ℕ) : HookList α where
  hooks := l.hooks.eraseP fun hook => hook.id = id
  nextId := l.nextId
  fresh hook h := l.fresh hook (List.mem_of_mem_eraseP h)
  nodup := l.nodup.sublist (List.eraseP_sublist.map _)

/-- `dispatch_ids`. -/
def ids (l : HookList α) : List ℕ := l.hooks.map Hook.id

/-- The callbacks of a hook that is there and not dispatched. -/
def callbacks (l : HookList α) (id : ℕ) : Option α :=
  (l.hooks.find? fun hook => hook.id = id).bind Hook.callbacks

lemma map_id_put (hooks : List (Hook α)) (id : ℕ) (callbacks : Option α) :
    (hooks.map fun hook => if hook.id = id then ⟨id, callbacks⟩ else hook).map Hook.id =
      hooks.map Hook.id := by
  rw [List.map_map]
  refine List.map_congr_left fun hook _ => ?_
  simp only [Function.comp_apply]
  split_ifs with hid
  · exact hid.symm
  · rfl

/-- The callbacks of a hook are taken out, or put back; without effect if it is not there. -/
def put (l : HookList α) (id : ℕ) (callbacks : Option α) : HookList α where
  hooks := l.hooks.map fun hook => if hook.id = id then ⟨id, callbacks⟩ else hook
  nextId := l.nextId
  fresh hook h := by
    obtain ⟨hook, hmem, rfl⟩ := List.mem_map.1 h
    have hlt := l.fresh hook hmem
    split_ifs with hid
    · exact hid ▸ hlt
    · exact hlt
  nodup := (map_id_put l.hooks id callbacks).symm ▸ l.nodup

variable {l : HookList α}

lemma ext_hooks {l m : HookList α} (h : l.hooks = m.hooks) (hnext : l.nextId = m.nextId) : l = m := by
  cases l
  cases m
  cases h
  cases hnext
  rfl

lemma find_id {hooks : List (Hook α)} {hook : Hook α} (hnodup : (hooks.map Hook.id).Nodup)
    (h : hook ∈ hooks) : hooks.find? (fun other => other.id = hook.id) = some hook := by
  induction hooks with
  | nil => cases h
  | cons other hooks ih =>
    rw [List.map_cons, List.nodup_cons] at hnodup
    rw [List.find?_cons]
    obtain rfl | h := List.mem_cons.1 h
    · simp
    · have hne : other.id ≠ hook.id := fun heq => hnodup.1 (heq ▸ List.mem_map_of_mem h)
      simpa [hne] using ih hnodup.2 h

lemma callbacks_of_mem {hook : Hook α} (h : hook ∈ l.hooks) :
    l.callbacks hook.id = hook.callbacks := by
  unfold callbacks
  rw [find_id l.nodup h]
  rfl

@[simp] lemma ids_put (i : ℕ) (callbacks : Option α) : (l.put i callbacks).ids = l.ids :=
  map_id_put l.hooks i callbacks

lemma mem_put {i : ℕ} {callbacks : Option α} {hook : Hook α} : hook ∈ (l.put i callbacks).hooks ↔
    ∃ other ∈ l.hooks, (if other.id = i then ⟨i, callbacks⟩ else other) = hook := List.mem_map

lemma mem_ids {i : ℕ} : i ∈ l.ids ↔ ∃ hook ∈ l.hooks, hook.id = i := List.mem_map

lemma mem_eraseP_id {hooks : List (Hook α)} {hook : Hook α} {i : ℕ}
    (hnodup : (hooks.map Hook.id).Nodup) :
    hook ∈ hooks.eraseP (fun hook => hook.id = i) ↔ hook ∈ hooks ∧ hook.id ≠ i := by
  induction hooks with
  | nil => simp
  | cons other hooks ih =>
    rw [List.map_cons, List.nodup_cons] at hnodup
    by_cases hi : other.id = i
    · rw [List.eraseP_cons_of_pos (by simpa using hi), List.mem_cons]
      constructor
      · intro h
        exact ⟨.inr h, fun heq => hnodup.1 (hi.trans heq.symm ▸ List.mem_map_of_mem h)⟩
      · rintro ⟨rfl | h, hne⟩
        · exact absurd hi hne
        · exact h
    · rw [List.eraseP_cons_of_neg (by simpa using hi), List.mem_cons, List.mem_cons, ih hnodup.2]
      constructor
      · rintro (rfl | h)
        · exact ⟨.inl rfl, hi⟩
        · exact ⟨.inr h.1, h.2⟩
      · rintro ⟨rfl | h, hne⟩
        · exact .inl rfl
        · exact .inr ⟨h, hne⟩

lemma mem_remove {i : ℕ} {hook : Hook α} :
    hook ∈ (l.remove i).hooks ↔ hook ∈ l.hooks ∧ hook.id ≠ i :=
  mem_eraseP_id l.nodup

/-- Callbacks that are taken out and put back are where they were. -/
lemma put_put {i : ℕ} {value : α} (h : l.callbacks i = some value) :
    (l.put i none).put i (some value) = l := by
  refine ext_hooks ?_ rfl
  change (l.hooks.map _).map _ = l.hooks
  rw [List.map_map]
  refine (List.map_congr_left fun hook hmem => ?_).trans (List.map_id l.hooks)
  simp only [Function.comp_apply, id]
  by_cases hi : hook.id = i
  · subst hi
    rw [callbacks_of_mem hmem] at h
    simp [← h]
  · simp [hi]

end HookList

end PipewireNative.Core
