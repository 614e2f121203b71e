import PipewireNative.Frame.Control

/-!
The socket between two ends, as the kernel runs it. Every byte in flight carries the descriptors
that arrive with it: those of a message travel with its first byte. A receive hands over some of
the first bytes in flight with all they carry. It may put the descriptors of several messages
together where there is room for them; where there is no room for those of one message, what does
not fit is lost and the receive says so.
-/

namespace PipewireNative.Frame

open Lib Lib.Word

/-- A byte in flight, with the descriptors that arrive with it. -/
abbrev Loaded := UInt8 × List OwnedFd

structure Socket where
  stream : List Loaded
  closed : Bool

/-- The bytes of a message: the first one carries the descriptors. -/
def load : List UInt8 → List OwnedFd → List Loaded
  | [], _ => []
  | b :: bs, fds => (b, fds) :: bs.map fun b => (b, [])

/-- The descriptors some bytes carry. -/
def cargo (bytes : List Loaded) : List OwnedFd := bytes.flatMap (·.2)

/-- How the kernel answers `sendmsg`. -/
inductive SendAnswer where
  | interrupted
  | again
  | refused (errno : ℕ)
  | accepted (count : ℕ)
  deriving DecidableEq, Repr

/-- How the kernel answers `recvmsg`. -/
inductive RecvAnswer where
  | interrupted
  | again
  | refused (errno : ℕ)
  | delivered (count : ℕ)
  deriving DecidableEq, Repr

/-- `SCM_MAX_FD`. -/
def scmMaxFd : ℕ := 253

/-- `EINVAL`. -/
def einval : ℕ := 22

namespace Socket

/-- `sendmsg`: a message with too many descriptors is refused, whatever else. -/
def sendmsg (bytes control : List UInt8) (answer : SendAnswer) : Prog Socket IoError ℕ :=
  match parseControl control 0 with
  | .error _ => .fail (.os einval)
  | .ok fds => do
    .failIf (scmMaxFd < fds.length) (.os einval)
    match answer with
    | .interrupted => .fail .interrupted
    | .again => .fail .wouldBlock
    | .refused errno => .fail (.os errno)
    | .accepted count => do
      .modify fun s => { s with stream := s.stream ++ load (bytes.take count) fds }
      pure (min count bytes.length)

def room (capacity : ℕ) : ℕ := (capacity - cmsghdrSize) / 4

/-- Splits off the bytes one receive hands over, at most `count` of them: it ends before
descriptors that do not fit behind others. -/
def gather (room : ℕ) : ℕ → List Loaded → List Loaded → List Loaded × List Loaded
  | 0, taken, rest => (taken, rest)
  | _ + 1, taken, [] => (taken, [])
  | count + 1, taken, byte :: rest =>
    if byte.2 = [] ∨ cargo taken = [] ∨ (cargo taken).length + byte.2.length ≤ room then
      gather room count (taken ++ [byte]) rest
    else (taken, byte :: rest)

/-- `recvmsg`: bytes, control data and flags. -/
def recvmsg (chunkLen capacity : ℕ) (answer : RecvAnswer) :
    Prog Socket IoError (List UInt8 × List UInt8 × ℕ) :=
  match answer with
  | .interrupted => .fail .interrupted
  | .again => .fail .wouldBlock
  | .refused errno => .fail (.os errno)
  | .delivered count => do
    let s ← .get
    if s.stream = [] then if s.closed then pure ([], [], 0) else .fail .wouldBlock
    else do
      let (taken, rest) := gather (room capacity) (max 1 (min count chunkLen)) [] s.stream
      .modify fun s => { s with stream := rest }
      let fds := cargo taken
      let kept := fds.take (room capacity)
      pure (taken.map (·.1), if kept = [] then [] else rightsRecord kept,
        if room capacity < fds.length then msgCtrunc else 0)

end Socket

/-! ### What is loaded -/

section Load

variable (bs : List UInt8) (fds : List OwnedFd)

@[simp] lemma load_length : (load bs fds).length = bs.length := by cases bs <;> simp [load]

@[simp] lemma load_bytes : (load bs fds).map (·.1) = bs := by
  cases bs with
  | nil => rfl
  | cons b bs => simp [load, Function.comp_def]

lemma load_nil : load bs [] = bs.map fun b => (b, []) := by cases bs <;> rfl

@[simp] lemma cargo_nil : cargo [] = [] := rfl

@[simp] lemma cargo_append (l l' : List Loaded) : cargo (l ++ l') = cargo l ++ cargo l' :=
  List.flatMap_append

lemma cargo_load (h : bs ≠ []) : cargo (load bs fds) = fds := by
  cases bs with
  | nil => exact absurd rfl h
  | cons b bs => simp [load, cargo, List.flatMap_map]

/-- A message that goes in two parts: the descriptors go with the first one. -/
lemma load_split {n : ℕ} (h : 0 < n) :
    load bs fds = load (bs.take n) fds ++ load (bs.drop n) [] := by
  cases bs with
  | nil => simp [load]
  | cons b bs =>
    obtain ⟨n, rfl⟩ := Nat.exists_eq_add_one.2 h
    rw [List.drop_succ_cons, load_nil, List.take_succ_cons, load, load, List.cons_append,
      ← List.map_append, List.take_append_drop]

end Load

/-! ### What a receive hands over -/

namespace Socket

variable {room : ℕ}

/-- Nothing is lost between what is handed over and what stays, and nothing changes places. -/
lemma gather_append (count : ℕ) (taken rest : List Loaded) :
    (gather room count taken rest).1 ++ (gather room count taken rest).2 = taken ++ rest := by
  induction count generalizing taken rest with
  | zero => rfl
  | succ count ih =>
    cases rest with
    | nil => rfl
    | cons byte rest =>
      unfold gather
      split_ifs with h
      · rw [ih, List.append_assoc, List.singleton_append]
      · rfl

lemma gather_grows (count : ℕ) (taken rest : List Loaded) :
    taken.length ≤ (gather room count taken rest).1.length := by
  induction count generalizing taken rest with
  | zero => exact Nat.le_refl _
  | succ count ih =>
    cases rest with
    | nil => exact Nat.le_refl _
    | cons byte rest =>
      unfold gather
      split_ifs with h
      · have hlen := ih (taken ++ [byte]) rest
        rw [List.length_append] at hlen
        omega
      · exact Nat.le_refl _

lemma gather_pos {count : ℕ} {stream : List Loaded} (hcount : 0 < count) (h : stream ≠ []) :
    0 < (gather room count [] stream).1.length := by
  obtain ⟨n, rfl⟩ := Nat.exists_eq_add_one.2 hcount
  obtain ⟨byte, rest, rfl⟩ := List.exists_cons_of_ne_nil h
  unfold gather
  rw [if_pos (Or.inr (Or.inl cargo_nil))]
  exact gather_grows n ([] ++ [byte]) rest

/-- Where there is room for the descriptors of every message, there is room for what a receive
puts together. -/
lemma gather_cargo_le {count : ℕ} {taken rest : List Loaded} (hrest : ∀ b ∈ rest, b.2.length ≤ room)
    (htaken : (cargo taken).length ≤ room) :
    (cargo (gather room count taken rest).1).length ≤ room := by
  induction count generalizing taken rest with
  | zero => exact htaken
  | succ count ih =>
    cases rest with
    | nil => exact htaken
    | cons byte rest =>
      unfold gather
      split_ifs with h
      · refine ih (fun b hb => hrest b (List.mem_cons_of_mem _ hb)) ?_
        have hbyte := hrest byte List.mem_cons_self
        have hcargo : cargo (taken ++ [byte]) = cargo taken ++ byte.2 := by simp [cargo]
        rw [hcargo, List.length_append]
        rcases h with h | h | h
        · simpa [h] using htaken
        · simpa [h] using hbyte
        · exact h
      · exact htaken

end Socket

end PipewireNative.Frame
