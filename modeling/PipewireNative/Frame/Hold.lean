import Mathlib.Data.List.Forall2
import PipewireNative.Frame.Flush

/-!
What the receiving end holds: the bytes that have come in and are not yet given away, and the
descriptors they carry. Reads cut the stream anywhere, so a batch of descriptors only knows where
its read began; every descriptor it has belongs to a byte at or behind that place. This is enough
to give every frame the descriptors that came with its bytes, and no others.
-/

namespace PipewireNative.Frame

open Lib Prog

/-! ### Descriptors and places -/

/-- The descriptors of some batches, each with the place its read began. -/
def tags (batches : List FdBatch) : List (ℕ × OwnedFd) :=
  batches.flatMap fun b => b.fds.map fun fd => (b.pos, fd)

/-- The descriptors some bytes carry, each with the place of its byte; the first byte is at
`base`. -/
def spots : ℕ → List Loaded → List (ℕ × OwnedFd)
  | _, [] => []
  | base, b :: bs => (b.2.map fun fd => (base, fd)) ++ spots (base + 1) bs

/-- The same descriptor, at the same place or before it. -/
def Before (t s : ℕ × OwnedFd) : Prop := t.2 = s.2 ∧ t.1 ≤ s.1

lemma tags_append (bs bs' : List FdBatch) : tags (bs ++ bs') = tags bs ++ tags bs' :=
  List.flatMap_append

lemma spots_append (base : ℕ) (l l' : List Loaded) :
    spots base (l ++ l') = spots base l ++ spots (base + l.length) l' := by
  induction l generalizing base with
  | nil => rfl
  | cons b l ih =>
    simp only [List.cons_append, spots, ih, List.append_assoc, List.length_cons]
    rw [Nat.add_right_comm, Nat.add_assoc]

lemma spots_fds (base : ℕ) (l : List Loaded) : (spots base l).map (·.2) = cargo l := by
  induction l generalizing base with
  | nil => rfl
  | cons b l ih => simp [spots, ih, cargo, Function.comp_def]

lemma spots_mem {base : ℕ} {l : List Loaded} {s : ℕ × OwnedFd} (h : s ∈ spots base l) :
    base ≤ s.1 ∧ s.1 < base + l.length := by
  induction l generalizing base with
  | nil => simp [spots] at h
  | cons b l ih =>
    rw [spots, List.mem_append] at h
    rw [List.length_cons]
    rcases h with h | h
    · obtain ⟨fd, -, rfl⟩ := List.mem_map.1 h
      dsimp only
      omega
    · have := ih h
      omega

lemma before_fds {ts ss : List (ℕ × OwnedFd)} (h : List.Forall₂ Before ts ss) :
    ts.map (·.2) = ss.map (·.2) := by
  induction h with
  | nil => rfl
  | cons hb _ ih => rw [List.map_cons, List.map_cons, hb.1, ih]

lemma before_lt {ts ss : List (ℕ × OwnedFd)} {bound : ℕ} (h : List.Forall₂ Before ts ss)
    (hlt : ∀ s ∈ ss, s.1 < bound) : ∀ t ∈ ts, t.1 < bound := by
  induction h with
  | nil => simp
  | cons hb _ ih =>
    intro t ht
    rcases List.mem_cons.1 ht with rfl | ht
    · exact Nat.lt_of_le_of_lt hb.2 (hlt _ List.mem_cons_self)
    · exact ih (fun s hs => hlt s (List.mem_cons_of_mem _ hs)) t ht

lemma before_read {pos base : ℕ} (hpos : pos ≤ base) (taken : List Loaded) :
    List.Forall₂ Before ((cargo taken).map fun fd => (pos, fd)) (spots base taken) := by
  induction taken generalizing base with
  | nil => exact .nil
  | cons b taken ih =>
    have hcargo : cargo (b :: taken) = b.2 ++ cargo taken := rfl
    rw [hcargo, List.map_append, spots]
    refine List.rel_append ?_ (ih (Nat.le_succ_of_le hpos))
    rw [List.forall₂_map_left_iff, List.forall₂_map_right_iff]
    exact List.forall₂_same.2 fun fd _ => ⟨rfl, hpos⟩

namespace FrameReceiver

/-! ### Taking descriptors -/

lemma available_eq (frameEnd : ℕ) (batches : List FdBatch) :
    ((batches.filter fun b => b.pos < frameEnd).map (·.fds.length)).sum =
      (tags batches).countP fun t => t.1 < frameEnd := by
  induction batches with
  | nil => rfl
  | cons b batches ih =>
    have htags : tags (b :: batches) = (b.fds.map fun fd => (b.pos, fd)) ++ tags batches := rfl
    rw [htags, List.countP_append, List.countP_map, ← ih]
    by_cases hb : b.pos < frameEnd
    · simp [hb, Function.comp_def]
    · simp [hb, Function.comp_def]

/-- **Taking descriptors.** Where the first descriptors there are came in before the end of the
frame, they are taken, in order, and the others stay. -/
theorem takeFds_of_tags {frameEnd n : ℕ} {batches : List FdBatch} {front back : List (ℕ × OwnedFd)}
    (hne : ∀ b ∈ batches, b.fds ≠ []) (htags : tags batches = front ++ back)
    (hlen : front.length = n) (hlt : ∀ t ∈ front, t.1 < frameEnd) :
    ∃ batches', takeFds frameEnd n batches = some (front.map (·.2), batches') ∧
      tags batches' = back ∧ ∀ b ∈ batches', b.fds ≠ [] := by
  induction batches generalizing n front with
  | nil =>
    obtain ⟨rfl, rfl⟩ := List.append_eq_nil_iff.1 htags.symm
    subst hlen
    exact ⟨[], rfl, rfl, hne⟩
  | cons b batches ih =>
    have hrest : ∀ b' ∈ batches, b'.fds ≠ [] := fun b' h => hne b' (List.mem_cons_of_mem _ h)
    cases n with
    | zero =>
      obtain rfl := List.length_eq_zero_iff.1 hlen
      exact ⟨b :: batches, rfl, htags, hne⟩
    | succ n =>
      have hcons : (b.fds.map fun fd => (b.pos, fd)) ++ tags batches = front ++ back := htags
      -- the batch has a descriptor, which is the first one there is
      have hpos : b.pos < frameEnd := by
        obtain ⟨fd, fds, hfds⟩ := List.exists_cons_of_ne_nil (hne b List.mem_cons_self)
        obtain ⟨t, front, rfl⟩ := List.exists_cons_of_length_eq_add_one hlen
        rw [hfds] at hcons
        have ht : (b.pos, fd) = t := (List.cons.inj hcons).1
        have := hlt t List.mem_cons_self
        rwa [← ht] at this
      unfold takeFds
      rw [if_neg (Nat.not_le.2 hpos)]
      rcases List.append_eq_append_iff.1 hcons with ⟨front', hfront, hback⟩ | ⟨more, hmore, hback⟩
      · -- the whole batch goes
        have hle : b.fds.length + front'.length = n + 1 := by
          rw [← hlen, hfront, List.length_append, List.length_map]
        have hsub : ∀ t ∈ front', t.1 < frameEnd := fun t ht =>
          hlt t (hfront ▸ List.mem_append_right _ ht)
        obtain ⟨batches', htake, htags', hne'⟩ := ih hrest hback
          (n := n + 1 - b.fds.length) (by omega) hsub
        rw [if_pos (by omega), htake, hfront]
        exact ⟨batches', by simp [Function.comp_def], htags', hne'⟩
      · -- some of the batch, or all of it, goes
        have hle : n + 1 + more.length = b.fds.length := by
          rw [← hlen, ← List.length_append, ← hmore, List.length_map]
        have hfront : b.fds.take (n + 1) = front.map (·.2) := by
          have := congrArg (List.map (·.2)) (congrArg (List.take (n + 1)) hmore)
          rw [List.take_left' hlen] at this
          simpa [List.map_take, Function.comp_def] using this
        have hdrop : (b.fds.drop (n + 1)).map (fun fd => (b.pos, fd)) = more := by
          rw [List.map_drop, hmore, List.drop_left' hlen]
        by_cases hall : more = []
        · subst hall
          have heq : b.fds.length = n + 1 := by simpa using hle.symm
          rw [if_pos (by omega), heq, Nat.sub_self, takeFds]
          refine ⟨batches, ?_, by simpa using hback.symm, hrest⟩
          rw [← hfront, List.take_of_length_le (by omega)]
          simp
        · have hpos' := List.length_pos_iff.2 hall
          rw [if_neg (by omega)]
          refine ⟨_, by rw [hfront], ?_, ?_⟩
          · rw [hback, ← hdrop]
            rfl
          · intro b' hb'
            rcases List.mem_cons.1 hb' with rfl | hb'
            · intro (hnil : b.fds.drop (n + 1) = [])
              rw [hnil] at hdrop
              exact hall hdrop.symm
            · exact hrest b' hb'

end FrameReceiver

/-! ### Frames as they come in -/

namespace OutboundFrame

variable (f : OutboundFrame)

lemma payloadLen_le : f.header.payloadLen.toNat ≤ wireMaxPayload := by
  obtain ⟨payload, hlen, hpayload, -, -⟩ := f.made
  rw [hpayload, UInt32.toNat_ofNat']
  exact Nat.le_trans (Nat.mod_le _ _) hlen

lemma bytes_length : f.bytes.length = headerLen + f.header.payloadLen.toNat := by
  obtain ⟨payload, hlen, hpayload, -, hbytes⟩ := f.made
  rw [hbytes, List.length_append, Header.bytes_length, hpayload, UInt32.toNat_ofNat',
    Nat.mod_eq_of_lt]
  unfold wireMaxPayload at hlen
  omega

lemma bytes_ne_nil : f.bytes ≠ [] := by
  refine List.ne_nil_of_length_pos ?_
  rw [f.bytes_length]
  unfold headerLen
  omega

variable {f}

lemma nFds_toNat (h : f.fds.length ≤ scmMaxFd) : f.header.nFds.toNat = f.fds.length := by
  obtain ⟨payload, -, -, hfds, -⟩ := f.made
  rw [hfds, UInt32.toNat_ofNat', Nat.mod_eq_of_lt]
  unfold scmMaxFd at h
  omega

lemma decode_take (f : OutboundFrame) : Header.decode (f.bytes.take headerLen) = f.header := by
  obtain ⟨payload, -, -, -, hbytes⟩ := f.made
  rw [hbytes, List.take_left' Header.bytes_length, ← List.append_nil f.header.bytes,
    Header.decode_bytes f.payloadLen_le]

/-- A frame within the limits, with no more descriptors than a message carries. -/
structure Fits (limits : FrameLimits) (f : OutboundFrame) : Prop where
  payload : f.header.payloadLen.toNat ≤ limits.payloadLimit
  frameFds : f.fds.length ≤ limits.maxFrameFds
  message : f.fds.length ≤ scmMaxFd
  control : f.fds.length ≤ limits.recvControlFds

end OutboundFrame

namespace FrameReceiver

/-! ### What a receiver holds -/

/-- The receiver holds the bytes `held`, the first of them at `base`, and what they carry. -/
structure Holding (r : FrameReceiver) (base : ℕ) (held : List Loaded) : Prop where
  bytes : r.bytes = held.map (·.1)
  byteBase : r.byteBase = base
  streamEnd : r.streamEnd = base + held.length
  batches : ∀ b ∈ r.fdBatches, b.fds ≠ []
  fds : List.Forall₂ Before (tags r.fdBatches) (spots base held)

/-- The receiver waits for a header, or for the rest of the frame that comes next. -/
def Awaits (state : RecvState) (base : ℕ) (fs : List OutboundFrame) : Prop :=
  state = .header ∨
    ∃ f rest, fs = f :: rest ∧ state = .payload f.header base (base + f.bytes.length)

variable {r : FrameReceiver} {base : ℕ} {held later : List Loaded} {fs : List OutboundFrame}

lemma Holding.length (h : Holding r base held) : r.bytes.length = held.length := by
  rw [h.bytes, List.length_map]

lemma Holding.setState (h : Holding r base held) (state : RecvState) :
    Holding { r with state } base held := ⟨h.bytes, h.byteBase, h.streamEnd, h.batches, h.fds⟩

lemma Holding.pendingFds (h : Holding r base held) : r.pendingFds = (cargo held).length := by
  have htags : ∀ batches : List FdBatch,
      (batches.map (·.fds.length)).sum = (tags batches).length := by
    intro batches
    simp [tags, List.length_flatMap]
  unfold FrameReceiver.pendingFds
  rw [htags, h.fds.length_eq, ← spots_fds base held, List.length_map]

lemma held_head {f : OutboundFrame} {rest : List OutboundFrame}
    (hflow : held ++ later = wire (f :: rest)) (hlen : f.bytes.length ≤ held.length) :
    ∃ held', held = load f.bytes f.fds ++ held' ∧ held' ++ later = wire rest := by
  rw [wire_cons] at hflow
  rcases List.append_eq_append_iff.1 hflow with ⟨more, hmore, hlater⟩ | ⟨held', hheld, hrest⟩
  · -- all of it is held, so no more of it is to come
    have := congrArg List.length hmore
    rw [load_length, List.length_append] at this
    obtain rfl : more = [] := List.length_eq_zero_iff.1 (by omega)
    exact ⟨[], by simpa using hmore.symm, by simpa using hlater⟩
  · exact ⟨held', hheld, hrest.symm⟩

lemma readHeader_ends (hold : Holding r base held) (hawait : Awaits r.state base fs)
    (hflow : held ++ later = wire fs) (hfits : ∀ f ∈ fs, f.Fits r.limits)
    (htotal : base + (wire fs).length < usizeBound) :
    readHeader.Ends r
      (fun _ r' => Holding r' base held ∧ r'.limits = r.limits ∧ Awaits r'.state base fs ∧
        (r'.state = .header → held.length < headerLen))
      (fun _ _ => False) := by
  unfold readHeader
  simp only [ends_bind, ends_get]
  rw [ends_ite]
  constructor
  · rintro ⟨hstate, hlen⟩
    rw [hold.length] at hlen
    cases fs with
    | nil =>
      have hnil := (List.append_eq_nil_iff.1 hflow).1
      rw [hnil] at hlen
      exact absurd hlen (by decide)
    | cons f rest =>
      have hf := hfits f List.mem_cons_self
      have hdecode : Header.decode (r.bytes.take headerLen) = f.header := by
        have hbytes : r.bytes ++ later.map (·.1) = f.bytes ++ (wire rest).map (·.1) := by
          rw [hold.bytes, ← List.map_append, hflow, wire_cons, List.map_append, load_bytes]
        have hle : headerLen ≤ f.bytes.length := by rw [f.bytes_length]; omega
        have htake : r.bytes.take headerLen = f.bytes.take headerLen := by
          have := congrArg (List.take headerLen) hbytes
          rwa [List.take_append_of_le_length (by rw [hold.length]; exact hlen),
            List.take_append_of_le_length hle] at this
        rw [htake, f.decode_take]
      have hlength := f.bytes_length
      have hpayload := f.payloadLen_le
      have hwire : f.bytes.length ≤ (wire (f :: rest)).length := by simp
      have hnfds := OutboundFrame.nFds_toNat hf.message
      simp only [hdecode]
      rw [if_neg (Nat.not_lt.2 hf.payload), if_neg (by rw [hnfds]; exact Nat.not_lt.2 hf.frameFds),
        if_neg (by unfold headerLen wireMaxPayload usizeBound at *; omega), hold.byteBase,
        ← hlength, if_neg (by omega)]
      simp only [ends_modify]
      exact ⟨hold.setState _, trivial, .inr ⟨f, rest, rfl, by rw [hold.byteBase]⟩, by simp⟩
  · intro hnot
    refine ⟨hold, rfl, hawait, fun hstate => ?_⟩
    rw [← hold.length]
    exact Nat.lt_of_not_le fun hle => hnot ⟨hstate, hle⟩

lemma extract_ends {f : OutboundFrame} {rest : List OutboundFrame} (hold : Holding r base held)
    (hstate : r.state = .payload f.header base (base + f.bytes.length))
    (hflow : held ++ later = wire (f :: rest)) (hf : f.Fits r.limits)
    (hlen : f.bytes.length ≤ held.length) :
    extract.Ends r
      (fun o r' => o = some f.received ∧ r'.limits = r.limits ∧ r'.state = .header ∧
        ∃ held', held' ++ later = wire rest ∧ Holding r' (base + f.bytes.length) held')
      (fun _ _ => False) := by
  obtain ⟨held', rfl, hrest⟩ := held_head hflow hlen
  have hfds := hold.fds
  rw [spots_append, load_length] at hfds
  have hcargo : (spots base (load f.bytes f.fds)).map (·.2) = f.fds := by
    rw [spots_fds, cargo_load _ _ f.bytes_ne_nil]
  have hcount : (spots base (load f.bytes f.fds)).length = f.fds.length := by
    conv_rhs => rw [← hcargo]
    rw [List.length_map]
  -- the descriptors of the frame come first, those of later bytes behind them
  have hfront := List.forall₂_take_append _ _ _ hfds
  have hback := List.forall₂_drop_append _ _ _ hfds
  rw [hcount] at hfront hback
  have hlt : ∀ t ∈ (tags r.fdBatches).take f.fds.length, t.1 < base + f.bytes.length := by
    refine before_lt hfront fun s hs => ?_
    have := (spots_mem hs).2
    rwa [load_length] at this
  have hfrontLen : ((tags r.fdBatches).take f.fds.length).length = f.fds.length :=
    hfront.length_eq.trans hcount
  obtain ⟨batches', htake, htags, hne⟩ := takeFds_of_tags hold.batches
    (List.take_append_drop f.fds.length _).symm hfrontLen hlt
  rw [before_fds hfront, hcargo] at htake
  have havailable : f.fds.length ≤
      (tags r.fdBatches).countP fun t => t.1 < base + f.bytes.length := by
    have hall : ((tags r.fdBatches).take f.fds.length).countP
        (fun t => t.1 < base + f.bytes.length) = f.fds.length := by
      rw [List.countP_eq_length.2 (by simpa using hlt), hfrontLen]
    conv_lhs => rw [← hall]
    exact (List.take_sublist _ _).countP_le
  have hbytes : r.bytes = f.bytes ++ held'.map (·.1) := by
    rw [hold.bytes, List.map_append, load_bytes]
  have hpayload : (r.bytes.drop headerLen).take f.header.payloadLen.toNat =
      f.bytes.drop headerLen := by
    have hdrop : (f.bytes.drop headerLen).length = f.header.payloadLen.toNat := by
      rw [List.length_drop, f.bytes_length]
      omega
    rw [hbytes, List.drop_append_of_le_length (by rw [f.bytes_length]; omega),
      List.take_left' hdrop]
  have hrestBytes : (r.bytes.drop headerLen).drop f.header.payloadLen.toNat =
      held'.map (·.1) := by
    rw [List.drop_drop, ← f.bytes_length, hbytes, List.drop_left]
  unfold extract
  simp only [ends_bind, ends_get, hstate]
  have hlength := hold.length
  rw [List.length_append, load_length] at hlength
  rw [if_pos (by omega)]
  simp only [available_eq, OutboundFrame.nFds_toNat hf.message]
  rw [if_neg (Nat.not_lt.2 havailable), htake]
  simp only [ends_bind, ends_modify, ends_pure, hpayload, hrestBytes]
  refine ⟨rfl, trivial, trivial, held', hrest, rfl, rfl, ?_, hne, ?_⟩
  · rw [hold.streamEnd, List.length_append, load_length, Nat.add_assoc]
  · rw [htags]
    exact hback

/-- **One advance.** The next frame is taken out as soon as all of it is there. -/
theorem advance_ends (hold : Holding r base held) (hawait : Awaits r.state base fs)
    (hflow : held ++ later = wire fs) (hfits : ∀ f ∈ fs, f.Fits r.limits)
    (htotal : base + (wire fs).length < usizeBound) :
    advance.Ends r
      (fun o r' => r'.limits = r.limits ∧ match o with
        | none => Holding r' base held ∧ Awaits r'.state base fs ∧
            ∀ f rest, fs = f :: rest → held.length < f.bytes.length
        | some g => ∃ f rest held', fs = f :: rest ∧ g = f.received ∧ held' ++ later = wire rest ∧
            Holding r' (base + f.bytes.length) held' ∧ r'.state = .header)
      (fun _ _ => False) := by
  unfold advance
  rw [ends_bind]
  refine (readHeader_ends hold hawait hflow hfits htotal).mono ?_ fun _ _ h => h
  rintro - r' ⟨hold', hlimits, hawait', hshort⟩
  rcases hawait' with hstate | ⟨f, rest, hfs, hstate⟩
  · have hlt := hshort hstate
    unfold extract
    simp only [ends_bind, ends_get, hstate, ends_pure]
    refine ⟨hlimits, hold', .inl rfl, fun f rest _ => ?_⟩
    rw [f.bytes_length]
    omega
  · subst hfs
    by_cases hlen : f.bytes.length ≤ held.length
    · have hf := hfits f List.mem_cons_self
      rw [← hlimits] at hf
      refine (extract_ends hold' hstate hflow hf hlen).mono ?_ fun _ _ h => h
      rintro o r'' ⟨rfl, hlimits', hstate', held', hflow', hold''⟩
      exact ⟨hlimits'.trans hlimits, f, rest, held', rfl, rfl, hflow', hold'', hstate'⟩
    · unfold extract
      simp only [ends_bind, ends_get, hstate]
      have hlength := hold'.length
      rw [if_neg (by omega)]
      refine ⟨hlimits, hold', .inr ⟨f, rest, rfl, hstate⟩, fun g rest' hfs => ?_⟩
      obtain ⟨rfl, -⟩ := List.cons.inj hfs
      omega

/-! ### Reads -/

lemma absorb_ends {taken : List Loaded} (hold : Holding r base held) (hne : taken ≠ [])
    (htotal : base + (held ++ taken).length < usizeBound) :
    (absorb (taken.map (·.1)) (cargo taken)).Ends r
      (fun o r' => o = none ∧ r'.limits = r.limits ∧ r'.state = r.state ∧
        Holding r' base (held ++ taken))
      (fun e _ => (∃ received limit, e = .error (.tooManyPendingFds received limit)) ∧
        r.limits.maxPendingFds < (cargo (held ++ taken)).length) := by
  unfold absorb
  simp only [ends_bind, ends_get]
  rw [if_neg (by simpa using hne), ends_ite]
  constructor
  · intro hlt
    simp only [fail, ends_bind, ends_modify, ends_fail]
    rw [hold.pendingFds] at hlt
    rw [cargo_append, List.length_append]
    exact ⟨⟨_, _, rfl⟩, by omega⟩
  · intro _
    rw [List.length_append] at htotal
    rw [List.length_map, hold.streamEnd, if_neg (by omega)]
    simp only [ends_bind, ends_modify, ends_pure]
    refine ⟨trivial, trivial, trivial, ?_, hold.byteBase, ?_, ?_, ?_⟩
    · rw [hold.bytes, List.map_append]
    · rw [hold.streamEnd, List.length_append, Nat.add_assoc]
    · dsimp only
      split_ifs with hfds
      · exact hold.batches
      · intro b hb
        rcases List.mem_append.1 hb with hb | hb
        · exact hold.batches b hb
        · rw [List.mem_singleton.1 hb]
          exact hfds
    · dsimp only
      have hread := before_read (Nat.le_refl (base + held.length)) taken
      have htags : tags (if cargo taken = [] then r.fdBatches
          else r.fdBatches ++ [⟨r.streamEnd, cargo taken⟩]) =
          tags r.fdBatches ++ (cargo taken).map fun fd => (base + held.length, fd) := by
        split_ifs with hfds
        · simp [hfds]
        · rw [tags_append, hold.streamEnd]
          simp [tags]
      rw [htags, spots_append]
      exact List.rel_append hold.fds hread

lemma absorb_nil_ends (hold : Holding r base []) :
    (absorb [] []).Ends r
      (fun o r' => o = some .closed ∧ r' = { r with state := .eof }) (fun _ _ => False) := by
  have hbytes : r.bytes = [] := hold.bytes
  have hpending : r.pendingFds = 0 := hold.pendingFds
  unfold absorb
  simp only [ends_bind, ends_get, if_true, ne_eq, not_true_eq_false, if_false, hbytes, hpending,
    ends_modify, ends_pure, and_self]

end FrameReceiver

end PipewireNative.Frame
