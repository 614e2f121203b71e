import Mathlib.Algebra.Order.BigOperators.Group.List
import Mathlib.Algebra.Order.Ring.Nat
import Mathlib.Tactic.Common
import Mathlib.Data.List.Nodup
import Mathlib.Order.Basic

/-!
Maps by keys whose order tells them apart.
-/

namespace PipewireNative.Lib

variable {α β : Type} [Ord α] [Std.TransOrd α] [Std.LawfulEqOrd α]
  (t : Std.ExtTreeMap α β) (a k : α)

lemma getElem?_erase_key [DecidableEq α] :
    (t.erase a)[k]? = if k = a then none else t[k]? := by
  rw [Std.ExtTreeMap.getElem?_erase]
  simp only [Std.LawfulEqCmp.compare_eq_iff_eq, @eq_comm _ k]

lemma getElem?_insert_key [DecidableEq α] (b : β) :
    (t.insert a b)[k]? = if k = a then some b else t[k]? := by
  rw [Std.ExtTreeMap.getElem?_insert]
  simp only [Std.LawfulEqCmp.compare_eq_iff_eq, @eq_comm _ k]

end PipewireNative.Lib
