import PipewireNative.Node.Accept
import PipewireNative.Node.Phases

/-!
Parts of shared memory the server keeps its hands off. While it does, what they hold is known from
what the owner stored there, whatever the server does elsewhere: `World.On` follows these parts,
and the callbacks that ran, through the accesses of the owner.
-/

namespace PipewireNative.Node

open Lib Lib.Word World

def storeSpan (l : Addr) (n : ℕ) : MemoryInterval := ⟨l.obj, l.addr, l.addr + n⟩

def ServerAct.Avoids (ivs : List MemoryInterval) : ServerAct → Prop
  | .store l bs => ∀ i ∈ ivs, i.Disjoint (storeSpan l bs.length)
  | .signal _ _ => True

/-- The server stores nothing in the intervals, as long as the script lasts. -/
def Sparing (ivs : List MemoryInterval) (script : List (List ServerAct)) : Prop :=
  ∀ acts ∈ script, ∀ a ∈ acts, a.Avoids ivs

instance (ivs : List MemoryInterval) : DecidablePred (ServerAct.Avoids ivs)
  | .store l bs => inferInstanceAs (Decidable (∀ i ∈ ivs, i.Disjoint (storeSpan l bs.length)))
  | .signal _ _ => isTrue trivial

instance (ivs : List MemoryInterval) (script : List (List ServerAct)) :
    Decidable (Sparing ivs script) := by unfold Sparing; infer_instance

/-- The action changes nothing in the intervals and runs no callback. -/
def Action.Avoids (ivs : List MemoryInterval) : Action → Prop
  | .store _ l bs => ∀ i ∈ ivs, i.Disjoint (storeSpan l bs.length)
  | .exchange _ l expected _ seen => seen ≠ expected ∨ ∀ i ∈ ivs, i.Disjoint (storeSpan l 4)
  | .swap _ l _ _ => ∀ i ∈ ivs, i.Disjoint (storeSpan l 4)
  | .callback _ _ => False
  | _ => True

namespace World

/-- The server spares the intervals, which hold what they hold in `m`, and the callbacks `ids` ran. -/
structure On (ivs : List MemoryInterval) (m : Shm) (ids : List (ℕ × Handed)) (w : World) : Prop where
  sparing : Sparing ivs w.script
  agree : ∀ i ∈ ivs, Memory.Agree i w.mem m
  called : calls w.log = ids

section On

variable {ivs : List MemoryInterval} {m : Shm} {ids : List (ℕ × Handed)} {w w' : World}

lemma On.interfere (h : On ivs m ids w) : On ivs m ids w.interfere := by
  unfold World.interfere
  split
  · exact h
  · rename_i acts rest hs
    have hacts : ∀ a ∈ acts, a.Avoids ivs := h.sparing acts (by rw [hs]; exact List.mem_cons_self)
    have h' : On ivs m ids { w with script := rest } :=
      ⟨fun acts' h' => h.sparing acts' (by rw [hs]; exact List.mem_cons_of_mem _ h'), h.agree,
        h.called⟩
    generalize ({ w with script := rest } : World) = v at h'
    clear hs
    -- by induction on the acts: each of them leaves the intervals as they are
    induction acts generalizing v with
    | nil => exact h'
    | cons a acts ih =>
      refine ih (fun a' ha' => hacts a' (List.mem_cons_of_mem _ ha')) _ ?_
      have ha := hacts a List.mem_cons_self
      cases a with
      | store l bs =>
        exact ⟨h'.sparing, fun i hi => (h'.agree i hi).write_beside (ha i hi), h'.called⟩
      | signal fd n => exact ⟨h'.sparing, h'.agree, h'.called⟩

lemma On.perform (h : On ivs m ids w) {a : Action} (ha : a.Avoids ivs) :
    On ivs m ids (w.perform a) := by
  cases a with
  | store f l bs =>
    exact ⟨h.sparing, fun i hi => (h.agree i hi).write_beside (ha i hi), h.called⟩
  | exchange f l x d seen =>
    refine ⟨h.sparing, fun i hi => ?_, h.called⟩
    rw [perform_mem, effect]
    split_ifs with hx
    · rcases ha with ha | ha
      · exact absurd hx ha
      · exact (h.agree i hi).write_beside (by rw [leBytes_length]; exact ha i hi)
    · exact h.agree i hi
  | swap f l d seen =>
    exact ⟨h.sparing, fun i hi => (h.agree i hi).write_beside
      (by rw [leBytes_length]; exact ha i hi), h.called⟩
  | callback id handed => exact ha.elim
  | _ => exact ⟨h.sparing, h.agree, h.called⟩

lemma On.steps {P : Action → Prop} (h : On ivs m ids w) (hs : Steps P w w')
    (hP : ∀ a, P a → a.Avoids ivs) : On ivs m ids w' := by
  induction hs with
  | refl => exact h
  | tail _ hstep ih =>
    cases hstep with
    | interfere => exact ih.interfere
    | own a _ ha => exact ih.perform (hP a ha)

lemma On.reads (h : On ivs m ids w) (hs : Steps Reads w w') : On ivs m ids w' :=
  h.steps hs fun a ha => by cases a <;> trivial

lemma On.callback (h : On ivs m ids w) (id : ℕ) (handed : Handed) :
    On ivs m ((id, handed) :: ids) (w.perform (.callback id handed)) :=
  ⟨h.sparing, h.agree, by simp only [calls, perform_log, List.filterMap_cons]; rw [← h.called]; rfl⟩

lemma On.stored (h : On ivs m ids w) (f : Field) (l : Addr) (bs : List UInt8) :
    On ivs (m.write l bs) ids (w.stored f l bs) :=
  ⟨h.interfere.sparing, fun i hi => (h.interfere.agree i hi).write, h.interfere.called⟩

lemma On.stored_beside (h : On ivs m ids w) (f : Field) {l : Addr} {bs : List UInt8}
    (hd : ∀ i ∈ ivs, i.Disjoint (storeSpan l bs.length)) : On ivs m ids (w.stored f l bs) :=
  h.interfere.perform hd

lemma On.word (h : On ivs m ids w) {i : MemoryInterval} (hi : i ∈ ivs) {l : Addr} {n : ℕ}
    (hl : i.Covers l n) : w.mem.word l n = m.word l n := (h.agree i hi).word hl

variable {ε : Type} {f : Field} {l : Addr} {n v : ℕ} {E : ε → World → Prop}

lemma On.ends_load (h : On ivs m ids w) {i : MemoryInterval} (hi : i ∈ ivs) (hl : i.Covers l n)
    {Q : ℕ → World → Prop} (hQ : ∀ w', On ivs m ids w' → Q (m.word l n) w') :
    (load f l n : Prog World ε ℕ).Ends w Q E := by
  rw [World.ends_load, h.interfere.word hi hl]
  exact hQ _ (h.interfere.perform (by trivial))

lemma On.ends_storeWord (h : On ivs m ids w) {Q : Unit → World → Prop}
    (hQ : ∀ w', On ivs (m.setWord l n v) ids w' → Q () w') :
    (storeWord f l n v : Prog World ε Unit).Ends w Q E := by
  rw [storeWord, World.ends_store]
  exact hQ _ (h.stored f l (leBytes n v))

end On

end World

end PipewireNative.Node
