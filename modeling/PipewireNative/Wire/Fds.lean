import PipewireNative.Pod.Calm
import PipewireNative.Wire.Event
import Mathlib.Data.List.Perm.Subperm
import Mathlib.Data.List.NodupEquivFin
import Mathlib.Data.List.Range

/-!
What becomes of the descriptors of a frame when an event is decoded.
-/

namespace PipewireNative.Wire

open Lib Lib.Word Prog Pod
open Frame (FrameFds OwnedFd)

/-! ### Required descriptors -/

/-- The descriptors of a frame are exactly those of some indices, each of them there. -/
structure Required (fds : FrameFds) (indices : List UInt32) : Prop where
  length : fds.length = indices.length
  nodup : indices.Nodup
  present : ∀ i ∈ indices, ∃ fd, fds[i.toNat]? = some (some fd)

lemma get_eq_ok {fds : FrameFds} {i : UInt32} {fd : OwnedFd} :
    fds.get i = .ok fd ↔ fds[i.toNat]? = some (some fd) := by
  unfold Frame.FrameFds.get
  split
  · rename_i h
    simp [h]
  · rename_i h
    simp [h]
  · rename_i fd' h
    simp [h]

lemma checkIndices_eq_ok {fds : FrameFds} {seen indices : List UInt32} {u : Unit} :
    checkIndices fds seen indices = .ok u ↔ indices.Nodup ∧ (∀ i ∈ indices, i ∉ seen) ∧
      ∀ i ∈ indices, ∃ fd, fds[i.toNat]? = some (some fd) := by
  induction indices generalizing seen with
  | nil => simp [checkIndices]
  | cons i indices ih =>
    have hget : (∃ fd, (fds.get i).mapError tableError = .ok fd) ↔
        ∃ fd, fds[i.toNat]? = some (some fd) := by
      simp only [← get_eq_ok]
      cases fds.get i <;> simp [Except.mapError]
    unfold checkIndices
    simp only [except_bind_eq_ok, rejectIf_eq_ok, ih, List.nodup_cons, List.mem_append,
      List.mem_cons, List.not_mem_nil, or_false, forall_eq_or_imp, ← hget]
    constructor
    · rintro ⟨-, hseen, fd, hfd, hnodup, hout, hrest⟩
      exact ⟨⟨fun hmem => hout i hmem (.inr rfl), hnodup⟩,
        ⟨hseen, fun j hj hmem => hout j hj (.inl hmem)⟩, ⟨fd, hfd⟩, hrest⟩
    · rintro ⟨⟨hmem, hnodup⟩, ⟨hseen, hout⟩, ⟨fd, hfd⟩, hrest⟩
      refine ⟨(), hseen, fd, hfd, hnodup, ?_, hrest⟩
      rintro j hj (hmem' | rfl)
      · exact hout j hj hmem'
      · exact hmem hj

/-- `require_fds` looks at the table, and passes exactly when it is as required. -/
lemma requireFds_ends (fds : FrameFds) (indices : List UInt32) :
    (requireFds indices).Ends fds (fun _ fds' => fds' = fds ∧ Required fds indices)
      (fun _ fds' => fds' = fds ∧ ¬ Required fds indices) := by
  unfold requireFds
  rw [ends_bind, ends_get, ends_bind, ends_failIf]
  refine ⟨fun hlen => ⟨rfl, fun h => hlen h.length⟩, fun hlen => ?_⟩
  have hlength : fds.length = indices.length := by
    by_contra h
    exact hlen h
  rw [ends_ofExcept]
  cases hcheck : checkIndices fds [] indices with
  | ok u =>
    obtain ⟨hnodup, -, hpresent⟩ := checkIndices_eq_ok.1 hcheck
    exact ⟨rfl, hlength, hnodup, hpresent⟩
  | error e =>
    refine ⟨rfl, fun h => ?_⟩
    have hok : checkIndices fds [] indices = .ok () :=
      checkIndices_eq_ok.2 ⟨h.nodup, fun _ _ => List.not_mem_nil, h.present⟩
    cases hcheck.symm.trans hok

lemma Required.covers {fds : FrameFds} {indices : List UInt32} (h : Required fds indices) {n : ℕ}
    (hn : n < fds.length) : ∃ i ∈ indices, i.toNat = n := by
  have hsub : indices.map UInt32.toNat ⊆ List.range fds.length := by
    intro m hm
    obtain ⟨i, hi, rfl⟩ := List.mem_map.1 hm
    obtain ⟨fd, hfd⟩ := h.present i hi
    exact List.mem_range.2 (List.getElem?_eq_some_iff.1 hfd).1
  have hnodup : (indices.map UInt32.toNat).Nodup :=
    h.nodup.map fun i j hij => UInt32.toNat_inj.1 hij
  have hperm := (List.subperm_of_subset hnodup hsub).perm_of_length_le (by
    rw [List.length_range, List.length_map, h.length])
  exact List.mem_map.1 (hperm.mem_iff.2 (List.mem_range.2 hn))

/-! ### Descriptors that are taken -/

lemma takeFd_run {fds : FrameFds} {i : UInt32} {fd : OwnedFd}
    (h : fds[i.toNat]? = some (some fd)) :
    takeFd i fds = (.ok fd, fds.set i.toNat none) := by
  have hget := get_eq_ok.2 h
  have htake : Frame.FrameFds.take i fds = (.ok fd, fds.set i.toNat none) := by
    unfold Frame.FrameFds.take
    rw [get_bind, ofExcept_bind hget]
    rfl
  unfold takeFd mapErr
  rw [htake]

/-- The table with some of its entries taken. -/
def without (fds : FrameFds) (indices : List UInt32) : FrameFds :=
  indices.foldl (fun table i => table.set i.toNat none) fds

/-- The descriptors of an event. -/
def Event.fds : Event → List OwnedFd
  | .transport value => [value.triggerFd, value.completionFd]
  | .setActivation (.set _ signalFd _) => [signalFd]
  | _ => []

/-- The indices that a payload refers to: those in the two `Fd` pods that a transport begins with,
and the one behind the node of an activation, unless that is -1 and the region behind it is clear. -/
def referred (opcode : UInt8) (payload : List UInt8) : List UInt32 :=
  let body := (payload.drop 8).take (declared payload)
  let fd (place : ℕ) : Int64 := (UInt64.ofNat (wordAt body (place + 8) 8)).toInt64
  let int (place : ℕ) : UInt32 := .ofNat (wordAt body (place + 8) 4)
  if opcode = Opcode.transport then (tryU32 (fd 0)).toList ++ (tryU32 (fd 16)).toList
  else if opcode = Opcode.setActivation then
    if fd 16 = -1 ∧ RegionRef.IsClear ⟨int 32, int 48, int 64⟩ then [] else (tryU32 (fd 16)).toList
  else []

/-! ### What the fields of a payload hold -/

section Found

variable {q : Parser} {s : Parser × Unit} {payload : List UInt8}

lemma popPrim_found {p : Prim .plain} {v : p.Val} (h : Parser.popPrim p (q, ()) = (.ok v, s)) :
    p.decodeBody ((q.data.drop (q.pos + 8)).take p.podSize) = .ok v ∧
      s = (⟨q.data, q.pos + frame p.podSize⟩, ()) := by
  have h : Parser.popWith p.decode (q, ()) = (.ok v, s) := h
  unfold Parser.popWith at h
  simp only [Parser.here_bind, ofExcept_bind_eq_ok, failIf_bind_eq_ok] at h
  obtain ⟨_, hrest, ⟨_, _⟩, hdecode, -, -, h⟩ := h
  cases h
  simp only [Prim.decode, except_bind_eq_ok, rejectIf_eq_ok, slice_eq_ok, podTotalSize_eq_ok]
    at hdecode
  obtain ⟨_, -, _, -, _, hsize, _, -, _, -, _, ⟨-, rfl⟩, _, -, _, ⟨-, -, rfl⟩, _, hbody, h⟩ := hdecode
  cases h
  obtain ⟨-, -, rfl⟩ := slice_eq_ok.1 hrest
  rw [not_not.1 hsize, Nat.add_sub_cancel_left, List.take_of_length_le (l := q.data.drop q.pos)
    (by rw [List.length_drop]), List.drop_drop] at hbody
  rw [not_not.1 hsize]
  exact ⟨hbody, rfl⟩

lemma popFd_found {fd : Int64} (h : popFd (q, ()) = (.ok fd, s)) :
    fd = (UInt64.ofNat (wordAt q.data (q.pos + 8) 8)).toInt64 ∧ s = (⟨q.data, q.pos + 16⟩, ()) := by
  obtain ⟨_, _, hpop, h⟩ := bind_eq_ok.1 h
  obtain ⟨hbody, rfl⟩ := popPrim_found hpop
  cases h
  obtain ⟨w, hw, hvalue⟩ := except_bind_eq_ok.1 hbody
  cases hvalue
  rw [u64At_eq_ok, wordAt_take (Nat.le_refl 8), wordAt_drop] at hw
  rw [← hw.2, UInt64.ofNat_toNat]
  exact ⟨rfl, rfl⟩

lemma popInt_found {n : UInt32} (h : popInt (q, ()) = (.ok n, s)) :
    n = .ofNat (wordAt q.data (q.pos + 8) 4) ∧ s = (⟨q.data, q.pos + 16⟩, ()) := by
  obtain ⟨_, _, hpop, h⟩ := bind_eq_ok.1 h
  obtain ⟨hbody, rfl⟩ := popPrim_found hpop
  cases h
  obtain ⟨w, hw, hvalue⟩ := except_bind_eq_ok.1 hbody
  cases hvalue
  rw [u32At_eq_ok, wordAt_take (Nat.le_refl 4), wordAt_drop] at hw
  exact ⟨by rw [← hw.2, UInt32.ofNat_toNat]; rfl, rfl⟩

lemma parsePayload_found {α : Type} {parse : Parse α} {a : α}
    (h : parsePayload payload parse = .ok a) :
    ∃ s, parse (.new ((payload.drop 8).take (declared payload)), ()) = (.ok a, s) := by
  unfold parsePayload at h
  split at h
  · cases h
  rename_i value size hpop
  split_ifs at h
  cases h
  obtain ⟨s, hrun⟩ : ∃ s, Parser.popStruct (parseAll parse) (.new payload, ()) =
    (.ok (a, size), s) := ⟨_, Prod.ext hpop rfl⟩
  unfold Parser.popStruct at hrun
  simp only [Parser.here_bind, ofExcept_bind_eq_ok, failIf_bind_eq_ok, slice_eq_ok] at hrun
  obtain ⟨-, n, hn, _, -, -, _, -, -, _, ⟨-, -, rfl⟩, hrun⟩ := hrun
  obtain ⟨b, _, hnested, hrun⟩ := bind_eq_ok.1 hrun
  cases hrun
  rw [Nat.add_sub_cancel_left, show n.toNat = declared payload from (u32At_eq_ok.1 hn).2] at hnested
  have hall : (parseAll parse (.new ((payload.drop 8).take (declared payload)), ())).1 = .ok a :=
    congrArg Prod.fst hnested
  obtain ⟨_, s, hparse, hall⟩ := bind_eq_ok.1 (Prod.ext hall rfl)
  rw [Parser.here_bind, failIf_bind_eq_ok] at hall
  obtain ⟨⟨⟩, -⟩ := Prod.ext_iff.1 hall.2
  exact ⟨s, hparse⟩

lemma referred_transport {r : UInt32 × UInt32 × RegionRef}
    (h : parsePayload payload popTransport = .ok r) :
    referred Opcode.transport payload = [r.1, r.2.1] := by
  have hindex {fd : Int64} {index : UInt32} (h : podFdIndex fd = .ok index) :
      (tryU32 fd).toList = [index] := by
    unfold podFdIndex at h
    split at h <;> cases h
    simp [*]
  obtain ⟨_, h⟩ := parsePayload_found h
  obtain ⟨_, _, hfd, h⟩ := bind_eq_ok.1 h
  obtain ⟨_, htrigger, h⟩ := ofExcept_bind_eq_ok.1 h
  obtain ⟨_, _, hfd', h⟩ := bind_eq_ok.1 h
  obtain ⟨_, hcompletion, h⟩ := ofExcept_bind_eq_ok.1 h
  obtain ⟨_, _, -, h⟩ := bind_eq_ok.1 h
  cases h
  obtain ⟨rfl, rfl⟩ := popFd_found hfd
  obtain ⟨rfl, -⟩ := popFd_found hfd'
  exact congrArg₂ List.append (hindex htrigger) (hindex hcompletion)

lemma referred_setActivation {r : UInt32 × Int64 × RegionRef}
    (h : parsePayload payload popSetActivation = .ok r) :
    referred Opcode.setActivation payload =
      if r.2.1 = -1 ∧ r.2.2.IsClear then [] else (tryU32 r.2.1).toList := by
  obtain ⟨_, h⟩ := parsePayload_found h
  simp only [popSetActivation, popRegion, bind_eq_ok] at h
  obtain ⟨_, _, hnode, _, _, hfd, _, _, ⟨_, _, hid, _, _, hoffset, _, _, hsize, hregion⟩, h⟩ := h
  cases h
  cases hregion
  obtain ⟨-, rfl⟩ := popInt_found hnode
  obtain ⟨rfl, rfl⟩ := popFd_found hfd
  obtain ⟨rfl, rfl⟩ := popInt_found hid
  obtain ⟨rfl, rfl⟩ := popInt_found hoffset
  obtain ⟨rfl, -⟩ := popInt_found hsize
  rfl

end Found
/-! ### What is taken -/

/-- An event took the descriptors of some indices, each of them once, and there were no others. -/
structure Took (fds : FrameFds) (indices : List UInt32) (event : Event) (fds' : FrameFds) :
    Prop where
  required : Required fds indices
  moved : indices.map (fun i => fds[i.toNat]?) = event.fds.map fun fd => some (some fd)
  left : fds' = without fds indices

lemma requireFds_run (fds : FrameFds) (indices : List UInt32) :
    Required fds indices ∧ requireFds indices fds = (.ok (), fds) ∨
      ¬ Required fds indices ∧ ∃ e, requireFds indices fds = (.error e, fds) := by
  have h := requireFds_ends fds indices
  unfold Ends at h
  generalize requireFds indices fds = r at h
  obtain ⟨e | ⟨⟩, fds'⟩ := r
  · obtain ⟨rfl, hnot⟩ := h
    exact .inr ⟨hnot, e, rfl⟩
  · obtain ⟨rfl, hrequired⟩ := h
    exact .inl ⟨hrequired, rfl⟩

lemma takeTransport_run {fds : FrameFds} {trigger completion : UInt32}
    (h : Required fds [trigger, completion]) (activation : RegionRef) :
    ∃ fd fd', fds[trigger.toNat]? = some (some fd) ∧ fds[completion.toNat]? = some (some fd') ∧
      takeTransport trigger completion activation fds =
        (.ok (.transport ⟨fd, fd', activation⟩), without fds [trigger, completion]) := by
  obtain ⟨fd, hfd⟩ := h.present trigger (by simp)
  obtain ⟨fd', hfd'⟩ := h.present completion (by simp)
  have hne : trigger.toNat ≠ completion.toNat := by
    intro heq
    have hnodup := h.nodup
    rw [UInt32.toNat_inj.1 heq] at hnodup
    simp at hnodup
  have hafter : (fds.set trigger.toNat none)[completion.toNat]? = some (some fd') := by
    rw [List.getElem?_set_ne hne, hfd']
  refine ⟨fd, fd', hfd, hfd', ?_⟩
  rcases requireFds_run fds [trigger, completion] with ⟨-, hrun⟩ | ⟨hnot, -⟩
  · unfold takeTransport
    rw [bind_ok hrun, bind_ok (takeFd_run hfd), bind_ok (takeFd_run hafter)]
    rfl
  · exact absurd h hnot

lemma takeTransport_ends (fds : FrameFds) (trigger completion : UInt32) (activation : RegionRef) :
    (takeTransport trigger completion activation).Ends fds
      (fun event fds' => Took fds [trigger, completion] event fds') (fun _ fds' => fds' = fds) := by
  rcases requireFds_run fds [trigger, completion] with ⟨hrequired, -⟩ | ⟨-, e, hrun⟩
  · obtain ⟨fd, fd', hfd, hfd', hrun⟩ := takeTransport_run hrequired activation
    rw [ends_of_run hrun, ends_ofExcept]
    exact ⟨hrequired, by simp [Event.fds, hfd, hfd'], rfl⟩
  · have hfail : takeTransport trigger completion activation fds = (.error e, fds) :=
      bind_error hrun
    rw [ends_of_run hfail, ends_ofExcept]

lemma took_nil {fds : FrameFds} (h : Required fds []) {event : Event} (hevent : event.fds = []) :
    Took fds [] event fds := ⟨h, by simp [hevent], rfl⟩

/-! ### Events without descriptors -/

/-- Whatever is parsed, the value has a property. -/
def Gives {α : Type} (parse : Parse α) (P : α → Prop) : Prop :=
  ∀ s, parse.Ends s (fun a _ => P a) (fun _ _ => True)

section Gives

variable {α β : Type} {P : α → Prop}

lemma gives_pure {a : α} (h : P a) : Gives (pure a) P := fun _ => h

lemma gives_fail {f : Pod.Fault} : Gives (.fail f : Parse α) P := fun _ => trivial

lemma gives_bind {m : Parse β} {f : β → Parse α} (h : ∀ b, Gives (f b) P) : Gives (m >>= f) P :=
  fun _ => ends_bind_of_forall (fun _ _ => trivial) h

lemma Gives.bind {m : Parse β} {R : β → Prop} (hm : Gives m R) {f : β → Parse α}
    (h : ∀ b, R b → Gives (f b) P) : Gives (m >>= f) P := by
  intro s
  rw [ends_bind]
  exact (hm s).mono (fun b s hb => h b hb s) fun _ _ _ => trivial

lemma gives_failIf {c : Prop} [Decidable c] {f : Pod.Fault} {m : Unit → Parse α}
    (h : ¬ c → Gives (m ()) P) : Gives (.failIf c f >>= m) P :=
  fun s => ends_failIf_bind trivial fun hc => h hc s

lemma gives_ofExcept {r : Read α} (h : ∀ a, r = .ok a → P a) : Gives (.ofExcept r) P := by
  intro s
  rw [ends_ofExcept]
  cases hr : r with
  | ok a => exact h a hr
  | error f => trivial

lemma gives_ofExcept_bind {r : Read β} {f : β → Parse α} (h : ∀ b, r = .ok b → Gives (f b) P) :
    Gives (.ofExcept r >>= f) P := (gives_ofExcept fun _ hb => hb).bind h

lemma Gives.payload {parse : Parse α} (h : Gives parse P) {payload : List UInt8} {a : α}
    (ha : parsePayload payload parse = .ok a) : P a :=
  let ⟨_, hrun⟩ := parsePayload_found ha
  (h _).run_ok hrun

end Gives

lemma popPortSetParam_gives (limits : Limits) :
    Gives (popPortSetParam limits) fun event => event.fds = [] :=
  gives_bind fun _ => gives_bind fun _ => gives_bind fun _ => gives_bind fun _ =>
    gives_bind fun _ => gives_bind fun _ => gives_bind fun _ => gives_pure rfl

lemma popPortUseBuffers_gives (limits : Limits) :
    Gives (popPortUseBuffers limits) fun event => event.fds = [] :=
  gives_bind fun _ => gives_bind fun _ => gives_bind fun _ => gives_bind fun _ =>
    gives_bind fun _ => gives_bind fun _ => gives_bind fun _ => gives_pure rfl

lemma popPortSetIo_gives : Gives popPortSetIo fun event => event.fds = [] := by
  refine gives_bind fun _ => gives_bind fun _ => gives_bind fun _ => gives_bind fun _ =>
    gives_bind fun _ => gives_bind fun region => ?_
  split_ifs
  · exact gives_pure rfl
  · exact gives_bind fun _ => gives_pure rfl

lemma popCommand_gives : Gives popCommand fun event => event.fds = [] :=
  gives_bind fun _ => gives_bind fun _ => gives_pure rfl

lemma decodePlain_ends {parse : Parse Event} (h : Gives parse fun event => event.fds = [])
    (fds : FrameFds) (payload : List UInt8) :
    (decodePlain payload parse).Ends fds (fun event fds' => Took fds [] event fds')
      (fun _ fds' => fds' = fds) := by
  unfold decodePlain
  rw [ends_bind]
  refine (requireFds_ends fds []).mono ?_ fun _ _ h => h.1
  rintro - fds' ⟨rfl, hrequired⟩
  rw [ends_ofExcept]
  cases hparse : parsePayload payload parse with
  | ok event => exact took_nil hrequired (h.payload hparse)
  | error f => rfl

lemma takeSignal_run {fds : FrameFds} {index : UInt32} (h : Required fds [index])
    (nodeId : UInt32) (activation : RegionRef) :
    ∃ fd, fds[index.toNat]? = some (some fd) ∧ takeSignal nodeId index activation fds =
      (.ok (.setActivation (.set nodeId fd activation)), without fds [index]) := by
  obtain ⟨fd, hfd⟩ := h.present index (by simp)
  refine ⟨fd, hfd, ?_⟩
  rcases requireFds_run fds [index] with ⟨-, hrun⟩ | ⟨hnot, -⟩
  · unfold takeSignal
    rw [bind_ok hrun, bind_ok (takeFd_run hfd)]
    rfl
  · exact absurd h hnot

lemma takeSignal_ends (fds : FrameFds) (nodeId index : UInt32) (activation : RegionRef) :
    (takeSignal nodeId index activation).Ends fds (fun event fds' => Took fds [index] event fds')
      (fun _ fds' => fds' = fds) := by
  rcases requireFds_run fds [index] with ⟨hrequired, -⟩ | ⟨-, e, hrun⟩
  · obtain ⟨fd, hfd, hrun⟩ := takeSignal_run hrequired nodeId activation
    rw [ends_of_run hrun, ends_ofExcept]
    exact ⟨hrequired, by simp [Event.fds, hfd], rfl⟩
  · have hfail : takeSignal nodeId index activation fds = (.error e, fds) := bind_error hrun
    rw [ends_of_run hfail, ends_ofExcept]

lemma takeActivation_ends (fds : FrameFds) (nodeId : UInt32) (fd : Int64) (activation : RegionRef) :
    (takeActivation nodeId fd activation).Ends fds
      (fun event fds' => Took fds (if fd = -1 ∧ activation.IsClear then [] else (tryU32 fd).toList)
        event fds') (fun _ fds' => fds' = fds) := by
  unfold takeActivation
  split_ifs with hclear
  · rw [ends_bind]
    refine (requireFds_ends fds []).mono ?_ fun _ _ h => h.1
    rintro - fds' ⟨rfl, hrequired⟩
    exact took_nil hrequired rfl
  · rw [ends_bind, ends_ofExcept]
    cases (rejectPartialClear activation).mapError podError with
    | error f => rfl
    | ok _ =>
      simp only []
      rw [ends_bind, ends_ofExcept, fdIndex]
      cases tryU32 fd with
      | none => rfl
      | some index => exact takeSignal_ends fds nodeId index activation

lemma decodeEvent_took (opcode : UInt8) (payload : List UInt8) (limits : Limits)
    (fds : FrameFds) :
    (decodeEvent opcode payload limits).Ends fds
      (fun event fds' => Took fds (referred opcode payload) event fds')
      (fun _ fds' => fds' = fds) := by
  unfold decodeEvent
  by_cases htransport : opcode = Opcode.transport
  · rw [if_pos htransport, ends_bind, ends_ofExcept]
    cases hparse : parsePayload payload popTransport with
    | ok r =>
      rw [htransport, referred_transport hparse]
      exact takeTransport_ends fds r.1 r.2.1 r.2.2
    | error f => rfl
  rw [if_neg htransport]
  by_cases hactivation : opcode = Opcode.setActivation
  · rw [hactivation, if_neg (by decide), if_neg (by decide), if_neg (by decide), if_pos rfl,
      ends_bind, ends_ofExcept]
    cases hparse : parsePayload payload popSetActivation with
    | ok r =>
      rw [referred_setActivation hparse]
      exact takeActivation_ends fds r.1 r.2.1 r.2.2
    | error f => rfl
  rw [show referred opcode payload = [] from (if_neg htransport).trans (if_neg hactivation),
    if_neg hactivation]
  split_ifs
  · exact decodePlain_ends (popPortSetParam_gives limits) fds payload
  · exact decodePlain_ends (popPortUseBuffers_gives limits) fds payload
  · exact decodePlain_ends popPortSetIo_gives fds payload
  · exact decodePlain_ends popCommand_gives fds payload
  · rfl

/-- **Descriptors are conserved.** An error leaves the table as it was; an event took exactly the
descriptors that the payload refers to, each once, and the frame carried no others. -/
theorem decodeEvent_conserves (opcode : UInt8) (payload : List UInt8) (limits : Limits)
    (fds : FrameFds) :
    (decodeEvent opcode payload limits).Ends fds
      (fun event fds' => Took fds (referred opcode payload) event fds' ∧
        ∀ n < fds.length, ∃ i ∈ referred opcode payload, i.toNat = n)
      (fun _ fds' => fds' = fds) :=
  (decodeEvent_took opcode payload limits fds).mono
    (fun _ _ h => ⟨h, fun _ hn => h.required.covers hn⟩) fun _ _ h => h

end PipewireNative.Wire
