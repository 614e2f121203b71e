import Mathlib.Data.Finset.Card
import Mathlib.Data.Finset.Lattice.Fold
import Mathlib.Data.Fintype.Card
import PipewireNative.Lib.Run
import PipewireNative.Node.Call

/-!
Several sessions that trigger one peer. Each of them makes a call of `PeerActivation::trigger` on
the same record: it takes one off the pending count by compare and exchange, and the one that takes
off the last moves the status word, writes the time and signals the eventfd. The accesses of the
calls happen in any order.
-/

namespace PipewireNative.Node

open Lib Lib.Word World

/-! ### Shares of the count

What the calls have come to, without the memory. -/

namespace Calls

section Shares

variable {n : ℕ} {places : Fin n → Place} {i : Fin n} {place : Place}

/-- How many calls have not taken one off yet. -/
def left (places : Fin n → Place) : ℕ := (Finset.univ.filter fun i => (places i).undecided).card

lemma left_pos (hi : (places i).undecided = true) : 0 < left places :=
  Finset.card_pos.2 ⟨i, by simp [hi]⟩

lemma left_le (places : Fin n → Place) : left places ≤ n := by
  have h := Finset.card_filter_le Finset.univ fun i => (places i).undecided = true
  simpa [left] using h

lemma filter_update : (Finset.univ.filter fun j => (Function.update places i place j).undecided) =
    if place.undecided then insert i (Finset.univ.filter fun j => (places j).undecided)
    else (Finset.univ.filter fun j => (places j).undecided).erase i := by
  ext j
  by_cases hji : j = i
  · subst hji
    split_ifs with h <;> simp [h]
  · split_ifs <;> simp [hji]

lemma left_same (h : place.undecided = (places i).undecided) :
    left (Function.update places i place) = left places := by
  unfold left
  rw [filter_update]
  split_ifs with hp
  · rw [Finset.insert_eq_of_mem (by simp [← h, hp])]
  · rw [Finset.erase_eq_of_notMem (by simp [← h, hp])]

lemma left_decided (h : place.undecided = false) (hi : (places i).undecided = true) :
    left (Function.update places i place) = left places - 1 := by
  unfold left
  rw [filter_update, if_neg (by simp [h]), Finset.card_erase_of_mem (by simp [hi])]

/-- The shares are dealt: every number from what is left up to `n` has gone to one call, and the last
one has gone to one call if nothing is left. -/
structure Dealt (places : Fin n → Place) : Prop where
  range : ∀ i r, places i = .waiting r → ∃ m : ℕ, r = m ∧ left places ≤ m ∧ 1 ≤ m ∧ m < n
  given : ∀ m : ℕ, left places ≤ m → 1 ≤ m → m < n → ∃ i, places i = .waiting m
  once : ∀ i j r, places i = .waiting r → places j = .waiting r → i = j
  last : left places = 0 → ∃ i, (places i).last = true
  alone : ∀ i j, (places i).last = true → (places j).last = true → i = j
  zero : ∀ i, (places i).last = true → left places = 0

lemma update_eq_waiting (hplace : ∀ r, place ≠ .waiting r) (hi : ∀ r, places i ≠ .waiting r) (j : Fin n)
    (r : ℤ) : Function.update places i place j = .waiting r ↔ places j = .waiting r := by
  by_cases hji : j = i
  · subst hji
    simp [hplace r, hi r]
  · rw [Function.update_of_ne hji]

lemma update_last (h : place.last = (places i).last) (j : Fin n) :
    (Function.update places i place j).last = (places j).last := by
  by_cases hji : j = i
  · subst hji
    simpa using h
  · rw [Function.update_of_ne hji]

lemma Dealt.go (h : Dealt places) (hundecided : place.undecided = (places i).undecided)
    (hlast : place.last = (places i).last) (hplace : ∀ r, place ≠ .waiting r)
    (hi : ∀ r, places i ≠ .waiting r) : Dealt (Function.update places i place) := by
  constructor
  · simpa only [update_eq_waiting hplace hi, left_same hundecided] using h.range
  · simpa only [update_eq_waiting hplace hi, left_same hundecided] using h.given
  · simpa only [update_eq_waiting hplace hi] using h.once
  · simpa only [update_last hlast, left_same hundecided] using h.last
  · simpa only [update_last hlast] using h.alone
  · simpa only [update_last hlast, left_same hundecided] using h.zero

lemma not_last_of_undecided {place : Place} (h : place.undecided = true) : place.last = false := by
  cases place <;> first | rfl | cases h

lemma not_waiting_of_undecided {place : Place} (h : place.undecided = true) (r : ℤ) :
    place ≠ .waiting r := by
  rintro rfl
  cases h

lemma decided_of_last {place : Place} (h : place.last = true) :
    place.undecided = false ∧ ∀ r, place ≠ .waiting r := by
  cases place with
  | transition | store | signal | triggered => exact ⟨rfl, by simp⟩
  | load | exchange | waiting | failed => cases h

lemma left_last (h : place.last = true) (hi : (places i).last = true) :
    left (Function.update places i place) = left places :=
  left_same (by rw [(decided_of_last h).1, (decided_of_last hi).1])

lemma Dealt.wait (h : Dealt places) (hi : (places i).undecided = true) (hleft : 1 < left places) :
    Dealt (Function.update places i (.waiting (left places - 1 : ℕ))) := by
  have hnew : left (Function.update places i (.waiting (left places - 1 : ℕ))) = left places - 1 :=
    left_decided rfl hi
  have hn := left_le places
  have hnolast : ∀ j, (Function.update places i (.waiting (left places - 1 : ℕ)) j).last = false := by
    intro j
    by_cases hji : j = i
    · subst hji
      simp [Place.last]
    · rw [Function.update_of_ne hji]
      by_contra hlast
      have hzero := h.zero j (by simpa using hlast)
      omega
  have hother : ∀ j r, j ≠ i →
      Function.update places i (.waiting (left places - 1 : ℕ)) j = .waiting r → places j = .waiting r := by
    intro j r hji hj
    rwa [Function.update_of_ne hji] at hj
  refine ⟨?_, ?_, ?_, ?_, ?_, ?_⟩
  · intro j r hj
    rw [hnew]
    by_cases hji : j = i
    · subst hji
      rw [Function.update_self] at hj
      cases hj
      exact ⟨left places - 1, rfl, le_rfl, by omega, by omega⟩
    · obtain ⟨m, hr, hm, hone, hless⟩ := h.range j r (hother j r hji hj)
      exact ⟨m, hr, by omega, hone, hless⟩
  · intro m hm hone hless
    rw [hnew] at hm
    by_cases hmi : m = left places - 1
    · subst hmi
      exact ⟨i, Function.update_self ..⟩
    · obtain ⟨j, hj⟩ := h.given m (by omega) hone hless
      refine ⟨j, ?_⟩
      have hji : j ≠ i := by
        rintro rfl
        exact not_waiting_of_undecided hi _ hj
      rw [Function.update_of_ne hji]
      exact hj
  · intro j l r hj hl
    -- the new share is smaller than the others
    have hnewer : ∀ k, k ≠ i → Function.update places i (.waiting (left places - 1 : ℕ)) k = .waiting r →
        r ≠ (left places - 1 : ℕ) := by
      intro k hki hk heq
      obtain ⟨m, hr, hm, -⟩ := h.range k r (hother k r hki hk)
      omega
    by_cases hji : j = i
    · by_cases hli : l = i
      · rw [hji, hli]
      · rw [hji, Function.update_self] at hj
        cases hj
        exact absurd rfl (hnewer l hli hl)
    · by_cases hli : l = i
      · rw [hli, Function.update_self] at hl
        cases hl
        exact absurd rfl (hnewer j hji hj)
      · exact h.once j l r (hother j r hji hj) (hother l r hli hl)
  · intro hzero
    omega
  · intro j l hj
    rw [hnolast j] at hj
    cases hj
  · intro j hj
    rw [hnolast j] at hj
    cases hj

lemma Dealt.take (h : Dealt places) (hi : (places i).undecided = true) (hleft : left places = 1) :
    Dealt (Function.update places i .transition) := by
  have hnew : left (Function.update places i .transition) = 0 := by
    rw [left_decided rfl hi, hleft]
  have hlast : ∀ j, (Function.update places i .transition j).last = true → j = i := by
    intro j hj
    by_contra hji
    rw [Function.update_of_ne hji] at hj
    have hzero := h.zero j hj
    omega
  have hwait : ∀ j r, Function.update places i .transition j = .waiting r ↔ places j = .waiting r :=
    update_eq_waiting (by simp) (not_waiting_of_undecided hi)
  refine ⟨?_, ?_, ?_, ?_, ?_, fun _ _ => hnew⟩
  · intro j r hj
    obtain ⟨m, hr, -, hone, hless⟩ := h.range j r ((hwait j r).1 hj)
    exact ⟨m, hr, by omega, hone, hless⟩
  · intro m _ hone hless
    obtain ⟨j, hj⟩ := h.given m (by omega) hone hless
    exact ⟨j, (hwait j m).2 hj⟩
  · intro j l r hj hl
    exact h.once j l r ((hwait j r).1 hj) ((hwait l r).1 hl)
  · intro _
    exact ⟨i, by simp [Place.last]⟩
  · intro j l hj hl
    rw [hlast j hj, hlast l hl]

end Shares

end Calls

/-! ### The calls side by side -/

/-- A write to an eventfd, taken or refused. -/
def Event.isSignal : Event → Bool
  | .own (.signal _ _) | .own (.failedSignal _ _) => true
  | _ => false

/-- No eventfd was written to. -/
def Unsignalled (log : List Event) : Prop := ∀ e ∈ log, e.isSignal = false

/-- The eventfd was written to once, and `stamp` came before that. -/
def SignalledOnce (fd : Fd) (stamp : Action) (log : List Event) : Prop :=
  ∃ later a earlier, log = later ++ .own a :: earlier ∧
    (a = .signal fd 1 ∨ a = .failedSignal fd 1) ∧ Unsignalled later ∧ Unsignalled earlier ∧
    .own stamp ∈ earlier

lemma Unsignalled.cons {log : List Event} (h : Unsignalled log) {e : Event} (he : e.isSignal = false) :
    Unsignalled (e :: log) := by
  intro e' he'
  rcases List.mem_cons.1 he' with rfl | he'
  · exact he
  · exact h e' he'

/-- Calls on one record: its view, what the kernel answers each of them, the eventfd, and the time
each of them was given. -/
structure Calls (n : ℕ) where
  view : ActivationView
  kernel : Fin n → Kernel
  fd : Fd
  nowNs : Fin n → ℕ

/-- The world and where the calls are. -/
structure Race (n : ℕ) where
  world : World
  places : Fin n → Place

namespace Calls

variable {n : ℕ} (c : Calls n)

def start (mem : Shm) (counter : Fd → ℕ) : Race n := ⟨⟨mem, counter, [], []⟩, fun _ => .load⟩

def step (t : Race n) (i : Fin n) : Race n :=
  let r := c.view.next (c.kernel i) c.fd (c.nowNs i) t.world (t.places i)
  ⟨r.1, Function.update t.places i r.2⟩

/-- All calls have come to an end: one has triggered the record and signalled the eventfd after the
time was written, and the others have got the counts before it, each of them once. -/
structure Over (t : Race n) : Prop where
  pending : asI32 (c.view.pendingAt t.world) = 0
  status : c.view.statusWordAt t.world = ActivationStatus.triggered.code
  triggered : ∃ i, (∃ refused, t.places i = .triggered refused) ∧
    (∀ j refused, t.places j = .triggered refused → j = i) ∧
    SignalledOnce c.fd (c.view.stamp (c.nowNs i)) t.world.log
  waiting : ∀ m : ℕ, 1 ≤ m → m < n → ∃ i, t.places i = .waiting m ∧
    ∀ j, t.places j = .waiting m → j = i
  others : ∀ i, (∃ refused, t.places i = .triggered refused) ∨
    ∃ m : ℕ, 1 ≤ m ∧ m < n ∧ t.places i = .waiting m

/-- The count is never negative, no call fails, and all of them come to an end once each has had
enough accesses. -/
structure Exact (t : Race n) : Prop where
  nonneg : 0 ≤ asI32 (c.view.pendingAt t.world)
  fine : ∀ i e, t.places i ≠ .failed e
  ends : ∃ k, ∀ steps : List (Fin n), (∀ i, k ≤ steps.count i) → c.Over (after c.step steps t)

/-- What holds of the world while a call is at a place. -/
def Ready (i : Fin n) (w : World) : Place → Prop
  | .load | .waiting _ => True
  | .exchange current => 1 ≤ current ∧ current ≤ n
  | .transition =>
    c.view.statusWordAt w = ActivationStatus.notTriggered.code ∧ Unsignalled w.log
  | .store => c.view.statusWordAt w = ActivationStatus.triggered.code ∧ Unsignalled w.log
  | .signal => c.view.statusWordAt w = ActivationStatus.triggered.code ∧ Unsignalled w.log ∧
      .own (c.view.stamp (c.nowNs i)) ∈ w.log
  | .triggered _ => c.view.statusWordAt w = ActivationStatus.triggered.code ∧
      SignalledOnce c.fd (c.view.stamp (c.nowNs i)) w.log
  | .failed _ => False

/-- The count is what is left, and every call is where it can be. -/
structure Sound (t : Race n) : Prop where
  quiet : t.world.script = []
  small : n < 2 ^ 31
  dealt : Dealt t.places
  pending : c.view.pendingAt t.world = left t.places
  before : left t.places ≠ 0 →
    c.view.statusWordAt t.world = ActivationStatus.notTriggered.code ∧ Unsignalled t.world.log
  ready : ∀ i, c.Ready i t.world (t.places i)

variable {c} {t : Race n} {w w' : World} {i j : Fin n} {place : Place}

/-! ### What an access changes -/

lemma Ready.more {a : Action} (h : c.Ready i w place)
    (hstatus : c.view.statusWordAt w' = c.view.statusWordAt w) (hlog : w'.log = .own a :: w.log)
    (ha : (Event.own a).isSignal = false) : c.Ready i w' place := by
  cases place with
  | load | waiting | exchange | failed => exact h
  | transition | store =>
    refine ⟨hstatus.trans h.1, ?_⟩
    rw [hlog]
    exact h.2.cons ha
  | signal =>
    refine ⟨hstatus.trans h.1, ?_⟩
    rw [hlog]
    exact ⟨h.2.1.cons ha, List.mem_cons_of_mem _ h.2.2⟩
  | triggered refused =>
    obtain ⟨later, a', earlier, heq, hsignal, hlater, hearlier, hstamp⟩ := h.2
    refine ⟨hstatus.trans h.1, .own a :: later, a', earlier, ?_, hsignal, hlater.cons ha, hearlier, hstamp⟩
    rw [hlog, heq]
    rfl

lemma Ready.off (h : c.Ready i w place) (hlast : place.last = false) : c.Ready i w' place := by
  cases place with
  | load | waiting | exchange | failed => exact h
  | transition | store | signal | triggered => cases hlast

lemma at_apart (v : ActivationView) {f g m n : ℕ} (h : f + m ≤ g ∨ g + n ≤ f) :
    Apart (v.at_ f) m (v.at_ g) n := by
  intro _
  show v.region.offset + f + m ≤ v.region.offset + g ∨ v.region.offset + g + n ≤ v.region.offset + f
  omega

/-- A turn of the exchange finds the count it expects exactly when that is what is left. -/
lemma Sound.seen_iff (h : c.Sound t) {current : ℤ} (hcurrent : 1 ≤ current ∧ current ≤ n) :
    c.view.pendingAt t.world = ofI32 current ↔ (left t.places : ℤ) = current := by
  have hsmall := h.small
  have hof : (ofI32 current : ℤ) = current := by
    unfold ofI32
    omega
  rw [h.pending]
  omega

lemma Sound.asI32_pending (h : c.Sound t) : asI32 (c.view.pendingAt t.world) = left t.places := by
  have hsmall := h.small
  have hle := left_le t.places
  rw [h.pending]
  unfold asI32
  rw [if_pos (by omega)]

lemma Sound.look (h : c.Sound t) (hi : (t.places i).undecided = true) {current : ℤ}
    (hcurrent : current = left t.places) {a : Action} (hmem : effect a t.world.mem = t.world.mem)
    (ha : (Event.own a).isSignal = false) :
    c.Sound ⟨t.world.perform a, Function.update t.places i (.exchange current)⟩ := by
  have hleft : left (Function.update t.places i (.exchange current)) = left t.places :=
    left_same (by rw [hi]; rfl)
  have hstatus : c.view.statusWordAt (t.world.perform a) = c.view.statusWordAt t.world := by
    simp [ActivationView.statusWordAt, hmem]
  refine ⟨h.quiet, h.small, ?_, ?_, ?_, ?_⟩
  · exact h.dealt.go (by rw [hi]; rfl) (by rw [not_last_of_undecided hi]; rfl) (by simp)
      (not_waiting_of_undecided hi)
  · show (effect a t.world.mem).word _ 4 = left (Function.update t.places i (.exchange current))
    rw [hleft, hmem]
    exact h.pending
  · intro hne
    rw [hleft] at hne
    exact ⟨hstatus.trans (h.before hne).1, (h.before hne).2.cons ha⟩
  · intro j
    by_cases hji : j = i
    · subst hji
      have hpos := left_pos hi
      have hle := left_le t.places
      simp only [Function.update_self, Ready]
      omega
    · simp only [Function.update_of_ne hji]
      exact (h.ready j).more hstatus rfl ha

lemma Sound.decide (h : c.Sound t) (hi : (t.places i).undecided = true) {place : Place}
    (hplace : place = if 1 < left t.places then .waiting (left t.places - 1 : ℕ) else .transition) :
    c.Sound ⟨t.world.perform (.exchange .pending (c.view.at_ Abi.state0Pending)
        (ofI32 (left t.places)) (ofI32 (left t.places - 1)) (c.view.pendingAt t.world)),
      Function.update t.places i place⟩ := by
  have hpos := left_pos hi
  have hle := left_le t.places
  have hsmall := h.small
  have hundecided : place.undecided = false := by
    rw [hplace]
    split_ifs <;> rfl
  have hleft : left (Function.update t.places i place) = left t.places - 1 :=
    left_decided hundecided hi
  have hseen : c.view.pendingAt t.world = ofI32 (left t.places) :=
    (h.seen_iff ⟨by omega, by omega⟩).2 rfl
  have hstatus : c.view.statusWordAt (t.world.perform (.exchange .pending
      (c.view.at_ Abi.state0Pending) (ofI32 (left t.places)) (ofI32 (left t.places - 1))
      (c.view.pendingAt t.world))) = c.view.statusWordAt t.world := by
    simp only [ActivationView.statusWordAt, perform_mem, effect, if_pos hseen]
    exact Memory.word_setWord_apart (at_apart _ (by decide))
  have hbefore := h.before (by omega)
  refine ⟨h.quiet, h.small, ?_, ?_, ?_, ?_⟩
  · rw [hplace]
    split_ifs with hone
    · exact h.dealt.wait hi hone
    · exact h.dealt.take hi (by omega)
  · simp only [hleft]
    rw [ActivationView.pendingAt, perform_mem, effect, if_pos hseen,
      Memory.word_setWord_same (ofI32_lt _)]
    unfold ofI32
    omega
  · intro _
    exact ⟨hstatus.trans hbefore.1, hbefore.2.cons rfl⟩
  · intro j
    by_cases hji : j = i
    · subst hji
      simp only [Function.update_self]
      rw [hplace]
      split_ifs
      · trivial
      · exact ⟨hstatus.trans hbefore.1, hbefore.2.cons rfl⟩
    · simp only [Function.update_of_ne hji]
      exact (h.ready j).more hstatus rfl rfl

lemma Sound.go (h : c.Sound t) (hi : (t.places i).last = true) {a : Action}
    (hplace : place.last = true) (hpending : c.view.pendingAt (t.world.perform a) = c.view.pendingAt t.world)
    (hready : c.Ready i (t.world.perform a) place) :
    c.Sound ⟨t.world.perform a, Function.update t.places i place⟩ := by
  have hsame : place.undecided = (t.places i).undecided := by
    rw [(decided_of_last hplace).1, (decided_of_last hi).1]
  have hzero := h.dealt.zero i hi
  refine ⟨h.quiet, h.small, ?_, ?_, ?_, ?_⟩
  · exact h.dealt.go hsame (by rw [hplace, hi]) (decided_of_last hplace).2 (decided_of_last hi).2
  · show c.view.pendingAt (t.world.perform a) = left (Function.update t.places i place)
    rw [hpending, left_same hsame, h.pending]
  · intro hne
    rw [left_same hsame] at hne
    exact absurd hzero hne
  · intro j
    by_cases hji : j = i
    · subst hji
      simpa only [Function.update_self] using hready
    · simp only [Function.update_of_ne hji]
      refine (h.ready j).off ?_
      by_contra hlast
      exact hji (h.dealt.alone j i (by simpa using hlast) hi)

/-- How many accesses a call makes at most, when so many are left. -/
def placeWork (left : ℕ) : Place → ℕ
  | .load => left + 6
  | .exchange current => left + 4 + if current = left then 0 else 1
  | .transition => 3
  | .store => 2
  | .signal => 1
  | .waiting _ | .triggered _ | .failed _ => 0

/-- Another call that takes one off costs an exchange that fails, and leaves one less. -/
lemma placeWork_le {l l' : ℕ} (hle : l' ≤ l) (hge : l ≤ l' + 1) (place : Place) :
    placeWork l' place ≤ placeWork l place := by
  cases place with
  | load => exact Nat.add_le_add_right hle 6
  | exchange current =>
    simp only [placeWork]
    by_cases hl : l' = l
    · rw [hl]
    · split_ifs <;> omega
  | transition | store | signal | waiting | triggered | failed => exact le_rfl

/-- **One access of one call**: it keeps everything in order, leaves the call less to do, and takes
at most one off the count. -/
lemma Sound.step_cases (h : c.Sound t) (i : Fin n) : c.Sound (c.step t i) ∧
    ∃ place, (c.step t i).places = Function.update t.places i place ∧
      placeWork (left (c.step t i).places) place ≤ placeWork (left t.places) (t.places i) - 1 ∧
      left (c.step t i).places ≤ left t.places ∧ left t.places ≤ left (c.step t i).places + 1 := by
  have hready := h.ready i
  unfold step
  cases hplace : t.places i with
  | load =>
    have hi : (t.places i).undecided = true := by rw [hplace]; rfl
    have hleft : ∀ r, left (Function.update t.places i (.exchange r)) = left t.places := fun r =>
      left_same (by rw [hi]; rfl)
    refine ⟨h.look hi h.asI32_pending rfl rfl, _, rfl, ?_, ?_⟩
    · simp only [ActivationView.next, hleft, h.asI32_pending, placeWork, if_true]
      omega
    · simp only [ActivationView.next, hleft]
      omega
  | exchange current =>
    rw [hplace] at hready
    have hi : (t.places i).undecided = true := by rw [hplace]; rfl
    have hpos := left_pos hi
    have hnext : c.view.next (c.kernel i) c.fd (c.nowNs i) t.world (.exchange current) = _ :=
      if_neg (show ¬ current ≤ 0 by have := hready.1; omega)
    have hseen := h.seen_iff hready
    rw [hnext]
    by_cases hcurrent : (left t.places : ℤ) = current
    · -- the exchange goes through
      subst hcurrent
      have hto : ActivationView.exchanged (left t.places) (c.view.pendingAt t.world) =
          if 1 < left t.places then .waiting (left t.places - 1 : ℕ) else .transition := by
        unfold ActivationView.exchanged
        rw [if_pos (hseen.2 rfl)]
        split_ifs <;> first | omega | (congr 1; omega) | rfl
      have hundecided : (ActivationView.exchanged (left t.places)
          (c.view.pendingAt t.world)).undecided = false := by
        rw [hto]
        split_ifs <;> rfl
      have hleft : left (Function.update t.places i (ActivationView.exchanged (left t.places)
          (c.view.pendingAt t.world))) = left t.places - 1 := left_decided hundecided hi
      refine ⟨h.decide hi hto, _, rfl, ?_, ?_⟩
      · simp only [hleft]
        rw [hto]
        simp only [placeWork, if_true]
        split_ifs <;> simp only [] <;> omega
      · simp only [hleft]
        omega
    · -- another call was faster
      have hto : ActivationView.exchanged current (c.view.pendingAt t.world) =
          .exchange (left t.places) := by
        unfold ActivationView.exchanged
        rw [if_neg (fun hs => hcurrent (hseen.1 hs)), h.asI32_pending]
      have hleft : left (Function.update t.places i (.exchange (left t.places))) = left t.places :=
        left_same (by rw [hi]; rfl)
      rw [hto]
      refine ⟨h.look hi rfl (if_neg fun hs => hcurrent (hseen.1 hs)) rfl, _, rfl, ?_, ?_⟩
      · simp only [hleft, placeWork, if_true, if_neg (Ne.symm hcurrent)]
        omega
      · simp only [hleft]
        omega
  | transition =>
    rw [hplace] at hready
    have hi : (t.places i).last = true := by rw [hplace]; rfl
    have hto : ActivationView.moved (c.view.statusWordAt t.world) = .store := if_pos hready.1
    have hmem : (t.world.perform (.exchange .status (c.view.at_ Abi.status)
        ActivationStatus.notTriggered.code ActivationStatus.triggered.code
        (c.view.statusWordAt t.world))).mem = t.world.mem.setWord (c.view.at_ Abi.status) 4
          ActivationStatus.triggered.code := by
      rw [perform_mem, effect, if_pos hready.1]
    simp only [ActivationView.next, hto]
    refine ⟨h.go hi rfl ?_ ⟨?_, hready.2.cons rfl⟩, _, rfl, ?_⟩
    · rw [ActivationView.pendingAt, hmem]
      exact Memory.word_setWord_apart (at_apart _ (by decide))
    · rw [ActivationView.statusWordAt, hmem]
      exact Memory.word_setWord_same (ActivationStatus.code_lt _)
    · have hleft : left (Function.update t.places i .store) = left t.places := left_last rfl hi
      simp only [hleft, placeWork]
      omega
  | store =>
    rw [hplace] at hready
    have hi : (t.places i).last = true := by rw [hplace]; rfl
    simp only [ActivationView.next]
    refine ⟨h.go hi rfl ?_ ⟨?_, hready.2.cons rfl, List.mem_cons_self⟩, _, rfl, ?_⟩
    · exact Memory.word_write_apart (by rw [leBytes_length]; exact at_apart _ (by decide))
    · refine Eq.trans ?_ hready.1
      exact Memory.word_write_apart (by rw [leBytes_length]; exact at_apart _ (by decide))
    · have hleft : left (Function.update t.places i .signal) = left t.places := left_last rfl hi
      simp only [hleft, placeWork]
      omega
  | signal =>
    rw [hplace] at hready
    have hi : (t.places i).last = true := by rw [hplace]; rfl
    obtain ⟨a, ha, hrun⟩ := EventFd.signal_quiet (c.kernel i) c.fd h.quiet
    have hmem : effect a t.world.mem = t.world.mem := by
      rcases ha with rfl | rfl <;> rfl
    simp only [ActivationView.next, hrun]
    refine ⟨h.go hi rfl ?_ ⟨?_, [], a, t.world.log, rfl, ha, fun _ he => (nomatch he), hready.2.1,
      hready.2.2⟩, _, rfl, ?_⟩
    · rw [ActivationView.pendingAt, perform_mem, hmem]
      rfl
    · rw [ActivationView.statusWordAt, perform_mem, hmem]
      exact hready.1
    · have hleft : ∀ refused, left (Function.update t.places i (.triggered refused)) = left t.places :=
        fun _ => left_last rfl hi
      simp only [hleft, placeWork]
      omega
  | waiting _ | triggered _ =>
    simp only [ActivationView.next]
    rw [← hplace, Function.update_eq_self]
    exact ⟨h, _, (Function.update_eq_self ..).symm, by rw [hplace]; exact Nat.zero_le _, by omega⟩
  | failed e =>
    rw [hplace] at hready
    exact hready.elim

/-! ### The race -/

lemma Sound.step (h : c.Sound t) (i : Fin n) : c.Sound (c.step t i) := (h.step_cases i).1

def work (t : Race n) (i : Fin n) : ℕ := placeWork (left t.places) (t.places i)

lemma Sound.work_self (h : c.Sound t) (i : Fin n) : work (c.step t i) i ≤ work t i - 1 := by
  obtain ⟨-, place, hplaces, hwork, -⟩ := h.step_cases i
  have hi : (c.step t i).places i = place := by rw [hplaces, Function.update_self]
  rw [work, hi]
  exact hwork

lemma Sound.work_other (h : c.Sound t) (i j : Fin n) (hji : j ≠ i) : work (c.step t i) j ≤ work t j := by
  obtain ⟨-, place, hplaces, -, hle, hge⟩ := h.step_cases i
  have hj : (c.step t i).places j = t.places j := by rw [hplaces, Function.update_of_ne hji]
  rw [work, hj]
  exact placeWork_le hle hge _

lemma Sound.over (h : c.Sound t) (hdone : ∀ i, work t i = 0) : c.Over t := by
  have hzero : left t.places = 0 := by
    by_contra hne
    obtain ⟨i, hi⟩ := Finset.card_pos.1 (Nat.pos_of_ne_zero hne)
    have hi' : (t.places i).undecided = true := by simpa using hi
    have hwork := hdone i
    unfold work at hwork
    cases hplace : t.places i with
    | load | exchange => rw [hplace] at hwork; simp [placeWork] at hwork
    | _ => rw [hplace] at hi'; cases hi'
  have hends : ∀ i, (∃ refused, t.places i = .triggered refused) ∨ ∃ r, t.places i = .waiting r := by
    intro i
    have hwork := hdone i
    have hready := h.ready i
    unfold work at hwork
    cases hplace : t.places i with
    | triggered refused => exact .inl ⟨refused, rfl⟩
    | waiting r => exact .inr ⟨r, rfl⟩
    | failed e => rw [hplace] at hready; exact hready.elim
    | _ => rw [hplace] at hwork; simp [placeWork] at hwork
  obtain ⟨i, hi⟩ := h.dealt.last hzero
  obtain ⟨refused, hplace⟩ : ∃ refused, t.places i = .triggered refused := by
    rcases hends i with hend | ⟨r, hr⟩
    · exact hend
    · rw [hr] at hi
      cases hi
  have hready := h.ready i
  rw [hplace] at hready
  refine ⟨?_, hready.1, ⟨i, ⟨refused, hplace⟩, ?_, hready.2⟩, ?_, ?_⟩
  · rw [h.asI32_pending, hzero]
    rfl
  · intro j refused' hj
    exact h.dealt.alone j i (by rw [hj]; rfl) hi
  · intro m hone hless
    obtain ⟨j, hj⟩ := h.dealt.given m (by omega) hone hless
    exact ⟨j, hj, fun l hl => h.dealt.once l j m hl hj⟩
  · intro j
    rcases hends j with hend | ⟨r, hr⟩
    · exact .inl hend
    · obtain ⟨m, rfl, -, hone, hless⟩ := h.dealt.range j r hr
      exact .inr ⟨m, hone, hless, hr⟩

lemma Sound.exact (h : c.Sound t) : c.Exact t := by
  refine ⟨?_, ?_, ?_⟩
  · rw [h.asI32_pending]
    exact Int.natCast_nonneg _
  · intro i e hi
    have hready := h.ready i
    rw [hi] at hready
    exact hready
  · refine ⟨Finset.univ.sup (work t), ?_⟩
    intro steps hcount
    refine Sound.over (after_keeps (I := c.Sound) (fun _ i hu => hu.step i) steps h) fun i => ?_
    exact after_ends (I := c.Sound) (fun _ i hu => hu.step i) (fun _ i hu => hu.work_self i)
      (fun _ i j hu hji => hu.work_other i j hji) h
      (fun i => (Finset.le_sup (Finset.mem_univ i)).trans (hcount i)) i

lemma sound_start (hn : 1 ≤ n) {mem : Shm} {counter : Fd → ℕ}
    (hpending : asI32 (mem.word (c.view.at_ Abi.state0Pending) 4) = n)
    (hstatus : mem.word (c.view.at_ Abi.status) 4 = ActivationStatus.notTriggered.code) :
    c.Sound (start mem counter) := by
  have hleft : left (start mem counter : Race n).places = n := by
    simp [start, left, Place.undecided]
  have hlt : mem.word (c.view.at_ Abi.state0Pending) 4 < 2 ^ 32 := Memory.word_lt32 _ _
  have hword : mem.word (c.view.at_ Abi.state0Pending) 4 = n ∧ n < 2 ^ 31 := by
    unfold asI32 at hpending
    split_ifs at hpending <;> omega
  refine ⟨rfl, hword.2, ?_, hword.1.trans hleft.symm, fun _ => ⟨hstatus, fun _ he => (nomatch he)⟩,
    fun _ => trivial⟩
  refine ⟨fun i r hi => (nomatch hi), ?_, fun i j r hi => (nomatch hi), ?_, fun i j hi => (nomatch hi),
    fun i hi => (nomatch hi)⟩
  · intro m hm _ hless
    omega
  · intro hzero
    omega

/-- **The last decrement triggers.** However the accesses of `n` calls on one record interleave, when
the count is `n`, the record not triggered and nobody else writes to it, the count never goes below
zero, one call triggers the record and signals the eventfd, and the others get the counts before. -/
theorem race_exact (n : ℕ) (hn : 1 ≤ n) (c : Calls n) (mem : Shm) (counter : Fd → ℕ)
    (hpending : asI32 (mem.word (c.view.at_ Abi.state0Pending) 4) = n)
    (hstatus : mem.word (c.view.at_ Abi.status) 4 = ActivationStatus.notTriggered.code)
    (steps : List (Fin n)) : c.Exact (after c.step steps (start mem counter)) :=
  (after_keeps (I := c.Sound) (fun _ i hu => hu.step i) steps
    (sound_start hn hpending hstatus)).exact

/-- Two calls on a record at the beginning of a page, with a kernel that has nothing to object. -/
def sample : Calls 2 where
  view := ⟨⟨⟨65536, 4096, 65536, 4096, .unsupported⟩, ⟨⟨1, 1⟩, ⟨1, 1⟩, 4096⟩, 0, by decide, by decide,
    by decide⟩, by decide, by decide⟩
  kernel _ := ⟨fun _ => .sample, fun _ => none, none, fun _ => none⟩
  fd := 3
  nowNs i := 100 + i

theorem race_exact_two :
    sample.Exact (after sample.step [0, 1, 1, 0, 0]
      (start (fun _ a => if a = 16 then 2 else 0) fun _ => 0)) :=
  race_exact 2 (by decide) sample _ _ (by decide +kernel) (by decide +kernel) _

/-- **The calls that race are calls of `trigger`.** `trigger` makes a view of the record and is then
at its load; and whatever the other calls did before, what a call still has to do is its next step
in the race and then what it has to do from there. -/
theorem trigger_simulated (c : Calls n) (i : Fin n) :
    (∀ p : PeerActivation, p.signal = c.fd → p.trigger (c.kernel i) (c.nowNs i) =
      (ActivationView.fromRawParts p.mapping).mapErr .activation >>= fun v w =>
        v.rest (c.kernel i) c.fd (c.nowNs i) (w.script.length + 2) .load w) ∧
    ∀ (t : Race n) (fuel : ℕ), t.world.script = [] →
      c.view.rest (c.kernel i) c.fd (c.nowNs i) (fuel + 1) (t.places i) t.world =
        c.view.rest (c.kernel i) c.fd (c.nowNs i) fuel ((c.step t i).places i) (c.step t i).world := by
  refine ⟨fun p hfd => hfd ▸ ActivationView.trigger_eq p, fun t fuel hquiet => ?_⟩
  rw [ActivationView.rest_next hquiet]
  simp only [step, Function.update_self]

/-- The second call of the sample makes its load. -/
theorem trigger_simulated_two :
    let t : Race 2 := start (fun _ a => if a = 16 then 2 else 0) fun _ => 0
    sample.view.rest (sample.kernel 1) 3 101 1 .load t.world =
      sample.view.rest (sample.kernel 1) 3 101 0 (.exchange 2) (sample.step t 1).world :=
  (trigger_simulated sample 1).2 (start _ _) 0 rfl

end Calls

end PipewireNative.Node
