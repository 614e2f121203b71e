import Mathlib.Data.List.Forall2
import PipewireNative.Pod.Retry

/-!
Typed readers and raw ones. Arrays, choices and objects can be popped as what they are or given to a
closure in pieces; both ways accept the same bytes, see the same pieces and move the parser alike.
-/

namespace PipewireNative.Pod

open Lib Lib.Word Prog

variable {E : Enums} {ω α β : Type}

lemma PodType.tryFrom_eq_some {n : ℕ} {t : PodType} : tryFrom n = some t ↔ n = t.toNat := by
  constructor
  · intro h
    have hlt := (List.getElem?_eq_some_iff.1 h).1
    exact (List.getElem?_inj hlt (by decide)).1 (h.trans (tryFrom_toNat t).symm)
  · rintro rfl
    exact tryFrom_toNat t

lemma PodType.toNat_inj {t u : PodType} (h : t.toNat = u.toNat) : t = u := by
  have ht := PodType.tryFrom_toNat t
  rw [h, PodType.tryFrom_toNat] at ht
  exact (Option.some.inj ht).symm

/-! ### Readings that go through -/

section Through

variable {data : List UInt8} {i : ℕ}

lemma exists_u32At {P : UInt32 → Prop} : (∃ w, (u32At data i : Read _) = .ok w ∧ P w) ↔
    i + 4 ≤ data.length ∧ P (.ofNat (wordAt data i 4)) := by
  constructor
  · rintro ⟨w, hw, h⟩
    have hle := (u32At_eq_ok.1 hw).1
    rw [u32At_of_le hle] at hw
    cases hw
    exact ⟨hle, h⟩
  · rintro ⟨hle, h⟩
    exact ⟨_, u32At_of_le hle, h⟩

lemma exists_slice {j : ℕ} {P : List UInt8 → Prop} :
    (∃ bytes, (slice data i j : Read _) = .ok bytes ∧ P bytes) ↔
      (i ≤ j ∧ j ≤ data.length) ∧ P ((data.drop i).take (j - i)) := by
  constructor
  · rintro ⟨bytes, hbytes, h⟩
    obtain ⟨hij, hj, rfl⟩ := slice_eq_ok.1 hbytes
    exact ⟨⟨hij, hj⟩, h⟩
  · rintro ⟨⟨hij, hj⟩, h⟩
    exact ⟨_, slice_of_le hij hj, h⟩

lemma exists_podTotalSize {n : ℕ} (hn : n < 2 ^ 32) {P : ℕ → Prop} :
    (∃ total, podTotalSize n = .ok total ∧ P total) ↔ P (frame n) := by
  rw [podTotalSize_frame hn]
  exact ⟨fun ⟨_, h, hP⟩ => Except.ok.inj h ▸ hP, fun h => ⟨_, rfl, h⟩⟩

end Through

lemma ofNat_wordAt_eq_zero {data : List UInt8} {i : ℕ} :
    UInt32.ofNat (wordAt data i 4) = 0 ↔ wordAt data i 4 = 0 := by
  rw [← UInt32.toNat_inj, toNat_wordAt]
  rfl

/-! ### Children -/

/-- One of the children of so many bytes that lie one behind the other. -/
def part (data : List UInt8) (base size i : ℕ) : List UInt8 :=
  (data.drop (base + i * size)).take size

/-- So many of them, from one on. -/
def parts (data : List UInt8) (base size i n : ℕ) : List (List UInt8) :=
  (List.range' i n).map (part data base size)

/-- The bytes are the body of a value. -/
def Prim.Reads (p : Prim E) (bytes : List UInt8) (v : p.Val) : Prop := p.decodeBody bytes = .ok v

section Children

variable {data : List UInt8} {base size i n : ℕ}

lemma parts_succ : parts data base size i (n + 1) =
    part data base size i :: parts data base size (i + 1) n := by
  unfold parts
  rw [List.range'_succ, List.map_cons]

lemma parts_zero_succ : parts data 0 size 0 (n + 1) =
    data.take size :: parts (data.drop size) 0 size 0 n := by
  have hshift : ∀ j, part data 0 size (1 + j) = part (data.drop size) 0 size j := by
    intro j
    unfold part
    rw [List.drop_drop, Nat.add_mul, Nat.one_mul, Nat.zero_add, Nat.zero_add]
  have hfirst : part data 0 size 0 = data.take size := by
    unfold part
    rw [Nat.zero_mul, Nat.add_zero, List.drop_zero]
  rw [parts_succ, hfirst]
  unfold parts
  rw [List.range'_eq_map_range, List.map_map, List.range_eq_range']
  exact congrArg _ (List.map_congr_left fun j _ => hshift j)

lemma child_eq (p : Prim E) (h : base + i * p.podSize + p.podSize ≤ data.length) :
    p.child data base i = p.decodeBody (part data base p.podSize i) := by
  unfold Prim.child
  rw [slice_of_le (by omega) h, except_ok_bind, Nat.add_sub_cancel_left]
  rfl

lemma children_eq_ok (p : Prim E) (h : base + (i + n) * p.podSize ≤ data.length) {vs : List p.Val} :
    p.children data base i n = .ok vs ↔ List.Forall₂ p.Reads (parts data base p.podSize i n) vs := by
  induction n generalizing i vs with
  | zero =>
    change (.ok [] : Read _) = .ok vs ↔ List.Forall₂ p.Reads [] vs
    rw [List.forall₂_nil_left_iff, Except.ok.injEq]
    exact eq_comm
  | succ n ih =>
    have hall : (i + (n + 1)) * p.podSize = (i + 1 + n) * p.podSize := by
      rw [Nat.add_right_comm, Nat.add_assoc i n 1]
    have hchild : i * p.podSize + p.podSize ≤ (i + (n + 1)) * p.podSize := by
      rw [← Nat.succ_mul]
      exact Nat.mul_le_mul_right _ (by omega)
    unfold Prim.children
    rw [parts_succ, child_eq p (by omega), except_bind_eq_ok]
    simp only [except_bind_eq_ok, ih (hall ▸ h), pure, Except.pure, Except.ok.injEq]
    constructor
    · rintro ⟨v, hv, vs', hvs, rfl⟩
      exact .cons hv hvs
    · rintro (_ | ⟨hv, hvs⟩)
      exact ⟨_, hv, _, hvs, rfl⟩

end Children

/-! ### Arrays -/

/-- An array whose children have so many bytes. -/
structure ArrayAt (data : List UInt8) (size : ℕ) : Prop where
  header : 16 ≤ data.length
  body : 8 ≤ declared data
  room : frame (declared data) ≤ data.length
  type : wordAt data 4 4 = PodType.array.toNat
  childSize : wordAt data 8 4 = size
  nonempty : size ≠ 0
  whole : (declared data - 8) % size = 0

/-- The children of an array. -/
def elements (data : List UInt8) (size : ℕ) : List (List UInt8) :=
  parts ((data.drop 16).take (declared data - 8)) 0 size 0 ((declared data - 8) / size)

lemma decodeArray_eq_ok {p : Prim E} {data : List UInt8} {vs : List p.Val} {total : ℕ} :
    decodeArray p data = .ok (vs, total) ↔ ArrayAt data p.podSize ∧
      wordAt data 12 4 = p.podType.toNat ∧ List.Forall₂ p.Reads (elements data p.podSize) vs ∧
        total = frame (declared data) := by
  have hframe : frame (declared data) = 8 + declared data + pad8 (declared data) := rfl
  have hchildren : ∀ vs', ArrayAt data p.podSize →
      (p.children ((data.drop 16).take (declared data - 8)) 0 0 ((declared data - 8) / p.podSize) =
        .ok vs' ↔ List.Forall₂ p.Reads (elements data p.podSize) vs') := by
    intro vs' h
    refine children_eq_ok p ?_
    have hall := Nat.div_mul_le_self (declared data - 8) p.podSize
    have hroom := h.room
    have hbody := h.body
    rw [List.length_take, List.length_drop, Nat.zero_add, Nat.zero_add]
    omega
  have hdeclared : wordAt data 0 4 = declared data := rfl
  unfold decodeArray
  simp only [except_bind_eq_ok, exists_rejectIf, exists_u32At, toNat_wordAt,
    exists_podTotalSize (wordAt_lt data 0 4), exists_slice, Nat.add_sub_cancel_left,
    ofNat_wordAt_eq_zero, ne_eq, not_not, not_or, PodType.tryFrom_eq_some]
  simp only [hdeclared]
  constructor
  · rintro ⟨h16, -, h8, hroom, -, htype, -, ⟨hne, hsize⟩, -, hchild, hwhole, -, vs', hvs, hpair⟩
    rw [hsize] at hne hwhole hvs
    have hat : ArrayAt data p.podSize :=
      ⟨by omega, by omega, by omega, htype, hsize, hne, hwhole⟩
    cases hpair
    exact ⟨hat, hchild, (hchildren vs hat).1 hvs, rfl⟩
  · rintro ⟨hat, hchild, hvs, rfl⟩
    obtain ⟨h16, h8, hroom, htype, hsize, hne, hwhole⟩ := id hat
    refine ⟨by omega, by omega, by omega, by omega, by omega, htype, by omega, ⟨?_, hsize⟩,
      by omega, hchild, ?_, by omega, vs, ?_, rfl⟩
    · rwa [hsize]
    · rwa [hsize]
    · rw [hsize]
      exact (hchildren vs hat).2 hvs

namespace Parser

variable {q : Parser} {w : ω} {s : Parser × ω}

/-- What is behind the parser. -/
def rest (q : Parser) : List UInt8 := q.data.drop q.pos

lemma wordAt_rest (q : Parser) (i : ℕ) : wordAt q.data (q.pos + i) 4 = wordAt q.rest i 4 :=
  (wordAt_drop q.data q.pos i 4).symm

lemma length_rest (q : Parser) : q.available = q.rest.length := List.length_drop.symm

lemma outside_bind_eq_ok {p : Prog ω Fault α} {f : α → Pop ω β} {b : β} :
    (outside p >>= f) (q, w) = (.ok b, s) ↔
      ∃ a w', p w = (.ok a, w') ∧ f a (q, w') = (.ok b, s) := by
  cases hrun : p w with
  | mk r w' =>
    cases r with
    | error e =>
      have hout : outside p (q, w) = (.error e, (q, w')) := by simp only [outside, zoom, hrun]
      rw [bind_error hout]
      simp
    | ok a =>
      have hout : outside p (q, w) = (.ok a, (q, w')) := by simp only [outside, zoom, hrun]
      rw [bind_ok hout]
      simp

lemma popArrayRaw_eq_ok {item : PodType → List UInt8 → Prog ω Fault Unit} {total : ℕ} :
    popArrayRaw item (q, w) = (.ok total, s) ↔ ∃ size type w', ArrayAt q.rest size ∧
      wordAt q.rest 12 4 = PodType.toNat type ∧
        eachChunk size (item type) ((Pod.declared q.rest - 8) / size)
          ((q.rest.drop 16).take (Pod.declared q.rest - 8)) w = (.ok (), w') ∧
        total = frame (Pod.declared q.rest) ∧ s = (⟨q.data, q.pos + total⟩, w') := by
  have hdeclared : wordAt q.data q.pos 4 = Pod.declared q.rest := q.wordAt_rest 0
  unfold popArrayRaw
  rw [here_bind]
  simp only [failIf_bind_eq_ok, ofExcept_bind_eq_ok, exists_u32At, toNat_wordAt,
    exists_podTotalSize (wordAt_lt q.data q.pos 4), ofNat_wordAt_eq_zero, ne_eq, not_not]
  simp only [hdeclared, wordAt_rest, length_rest]
  have hlen : q.rest.length = q.data.length - q.pos := List.length_drop
  have hbody : (q.data.drop (q.pos + 16)).take (Pod.declared q.rest - 8) =
      (q.rest.drop 16).take (Pod.declared q.rest - 8) := by
    rw [rest, List.drop_drop]
  cases htype : PodType.tryFrom (wordAt q.rest 12 4) with
  | none =>
    refine iff_of_false (fun h => ?_) ?_
    · cases h.2.2.2.2.2.2.2.2.2
    · rintro ⟨size, type, w', -, hchild, -⟩
      rw [hchild, PodType.tryFrom_toNat] at htype
      cases htype
  | some type =>
    have hchild := PodType.tryFrom_eq_some.1 htype
    simp only [failIf_bind_eq_ok, ofExcept_bind_eq_ok, exists_slice, outside_bind_eq_ok,
      toNat_wordAt, not_not, Nat.add_sub_cancel_left, hbody]
    simp only [hdeclared, wordAt_rest, advance_bind]
    constructor
    · rintro ⟨h16, -, h8, hroom, -, hkind, -, hne, -, hwhole, -, u, w', hrun, hend⟩
      cases hend
      exact ⟨_, type, w', ⟨by omega, by omega, by omega, hkind, rfl, hne, hwhole⟩, hchild, hrun, rfl,
        rfl⟩
    · rintro ⟨size, type', w', ⟨h16, h8, hroom, hkind, rfl, hne, hwhole⟩, hchild', hrun, rfl, rfl⟩
      have hsame : type' = type := by
        rw [hchild', PodType.tryFrom_toNat] at htype
        exact Option.some.inj htype
      subst hsame
      have hframe : frame (Pod.declared q.rest) = 8 + Pod.declared q.rest + pad8 (Pod.declared q.rest) :=
        rfl
      exact ⟨by omega, by omega, by omega, by omega, by omega, hkind, by omega, hne, by omega, hwhole,
        by omega, (), w', hrun, rfl⟩

/-- What a closure sees of an array: the type and the bytes of every child. -/
def seeItem (type : PodType) (bytes : List UInt8) : Prog (List (PodType × List UInt8)) Fault Unit :=
  .modify (· ++ [(type, bytes)])

lemma eachChunk_see {size count : ℕ} {type : PodType} {data : List UInt8}
    {seen : List (PodType × List UInt8)} : eachChunk size (seeItem type) count data seen =
      (.ok (), seen ++ (parts data 0 size 0 count).map (type, ·)) := by
  induction count generalizing data seen with
  | zero =>
    change (_, seen) = (_, seen ++ [])
    rw [List.append_nil]
  | succ count ih =>
    unfold eachChunk
    have hsee : seeItem type (data.take size) seen = (.ok (), seen ++ [(type, data.take size)]) := rfl
    rw [bind_ok hsee, ih, parts_zero_succ, List.map_cons, List.append_assoc, List.singleton_append]

lemma popPod_eq_ok (t : PodTy E) {v : t.Val} : popPod t (q, w) = (.ok v, s) ↔
    q.Inside ∧ ∃ n, t.decode q.rest = .ok (v, n) ∧ n ≤ q.rest.length ∧ q.pos + n < usizeBound ∧
      s = (⟨q.data, q.pos + n⟩, w) := by
  unfold popPod popWith
  rw [here_bind]
  simp only [ofExcept_bind_eq_ok, failIf_bind_eq_ok, advance_bind, length_rest]
  constructor
  · rintro ⟨rest, hleft, ⟨v', n⟩, hdecode, hle, hpos, hend⟩
    have hinside : q.Inside := (slice_eq_ok.1 hleft).1
    rw [left_inside hinside] at hleft
    cases hleft
    cases hend
    exact ⟨hinside, n, hdecode, Nat.le_of_not_lt hle, Nat.lt_of_not_le hpos, rfl⟩
  · rintro ⟨hinside, n, hdecode, hle, hpos, rfl⟩
    exact ⟨_, left_inside hinside, (v, n), hdecode, Nat.not_lt.2 hle, Nat.not_le.2 hpos, rfl⟩

lemma pos_add_lt {n : ℕ} (hq : q.data.length < usizeBound) (hn : n ≤ q.rest.length)
    (hinside : q.Inside) : q.pos + n < usizeBound := by
  have hlen : q.rest.length = q.data.length - q.pos := List.length_drop
  unfold Inside at hinside
  omega

lemma popArray_iff (p : Prim E) (hq : q.data.length < usizeBound) {vs : List p.Val} :
    popPod (.array p) (q, w) = (.ok vs, s) ↔ s.2 = w ∧ ∃ total seen,
      popArrayRaw seeItem (q, []) = (.ok total, s.1, seen) ∧
        wordAt q.data (q.pos + 8) 4 = p.podSize ∧ wordAt q.data (q.pos + 12) 4 = p.podType.toNat ∧
        List.Forall₂ (fun item v => item.1 = p.podType ∧ p.Reads item.2 v) seen vs := by
  have hseen : ∀ parts : List (List UInt8),
      List.Forall₂ (fun item v => item.1 = p.podType ∧ p.Reads item.2 v)
        (parts.map (p.podType, ·)) vs ↔ List.Forall₂ p.Reads parts vs := by
    intro parts
    rw [List.forall₂_map_left_iff]
    simp only [true_and]
  refine (popPod_eq_ok (.array p)).trans ?_
  simp only [wordAt_rest, popArrayRaw_eq_ok, eachChunk_see]
  constructor
  · rintro ⟨-, n, hdecode, -, -, rfl⟩
    obtain ⟨hat, hchild, hvs, rfl⟩ := decodeArray_eq_ok.1 hdecode
    exact ⟨rfl, _, _, ⟨p.podSize, p.podType, _, hat, hchild, rfl, rfl, rfl⟩, hat.childSize, hchild,
      (hseen _).2 hvs⟩
  · rintro ⟨hw, total, seen, ⟨size, type, seen', hat, htype, hrun, rfl, hs⟩, hsize, hchild, hvs⟩
    obtain rfl : size = p.podSize := hat.childSize.symm.trans hsize
    obtain rfl : type = p.podType := PodType.toNat_inj (htype.symm.trans hchild)
    cases hrun
    obtain ⟨q', w'⟩ := s
    cases hs
    cases hw
    have hinside : q.Inside := by
      have hheader := hat.header
      unfold rest at hheader
      rw [List.length_drop] at hheader
      unfold Inside
      omega
    exact ⟨hinside, _, decodeArray_eq_ok.2 ⟨hat, hchild, (hseen _).1 hvs, rfl⟩, hat.room,
      pos_add_lt hq hat.room hinside, rfl⟩

end Parser

/-! ### Choices -/

/-- Choices of one kind with related values. -/
inductive Choice.Rel (R : α → β → Prop) : Choice α → Choice β → Prop
  | none {a b} : R a b → Rel R (.none a) (.none b)
  | range {a₀ a₁ a₂ b₀ b₁ b₂} : R a₀ b₀ → R a₁ b₁ → R a₂ b₂ →
    Rel R (.range a₀ a₁ a₂) (.range b₀ b₁ b₂)
  | step {a₀ a₁ a₂ a₃ b₀ b₁ b₂ b₃} : R a₀ b₀ → R a₁ b₁ → R a₂ b₂ → R a₃ b₃ →
    Rel R (.step a₀ a₁ a₂ a₃) (.step b₀ b₁ b₂ b₃)
  | enum {a b as bs} : R a b → List.Forall₂ R as bs → Rel R (.enum a as) (.enum b bs)
  | flags {a₀ a₁ b₀ b₁} : R a₀ b₀ → R a₁ b₁ → Rel R (.flags a₀ a₁) (.flags b₀ b₁)

lemma Choice.ofChildren_eq_ok {R : α → β → Prop} {kind count : ℕ} {child : ℕ → Read α}
    {child' : ℕ → Read β} {alternatives : ℕ → Read (List α)} {alternatives' : ℕ → Read (List β)}
    (hchild : ∀ i < count, ∃ a, child i = .ok a ∧ ∀ b, child' i = .ok b ↔ R a b)
    (halternatives : count ≠ 0 → ∃ as, alternatives (count - 1) = .ok as ∧
      ∀ bs, alternatives' (count - 1) = .ok bs ↔ List.Forall₂ R as bs) {c : Choice β} :
    ofChildren kind count child' alternatives' = .ok c ↔
      ∃ c₀, ofChildren kind count child alternatives = .ok c₀ ∧ c₀.Rel R c := by
  have hsame : ∀ {i a}, i < count → child i = .ok a → ∀ b, child' i = .ok b ↔ R a b := by
    intro i a hi ha
    obtain ⟨a', ha', hR⟩ := hchild i hi
    cases ha.symm.trans ha'
    exact hR
  unfold ofChildren
  split
  · simp only [except_bind_eq_ok, exists_rejectIf, not_not]
    constructor
    · rintro ⟨rfl, b, hb, hc⟩
      cases hc
      obtain ⟨a, ha, hR⟩ := hchild 0 (by decide)
      exact ⟨_, ⟨rfl, a, ha, rfl⟩, .none ((hR b).1 hb)⟩
    · rintro ⟨c₀, ⟨rfl, a, ha, hc₀⟩, hrel⟩
      cases hc₀
      cases hrel with
      | none h => exact ⟨rfl, _, (hsame (by decide) ha _).2 h, rfl⟩
  · simp only [except_bind_eq_ok, exists_rejectIf, not_not]
    constructor
    · rintro ⟨rfl, b₀, h₀, b₁, h₁, b₂, h₂, hc⟩
      cases hc
      obtain ⟨a₀, ha₀, hR₀⟩ := hchild 0 (by decide)
      obtain ⟨a₁, ha₁, hR₁⟩ := hchild 1 (by decide)
      obtain ⟨a₂, ha₂, hR₂⟩ := hchild 2 (by decide)
      exact ⟨_, ⟨rfl, a₀, ha₀, a₁, ha₁, a₂, ha₂, rfl⟩,
        .range ((hR₀ _).1 h₀) ((hR₁ _).1 h₁) ((hR₂ _).1 h₂)⟩
    · rintro ⟨c₀, ⟨rfl, a₀, ha₀, a₁, ha₁, a₂, ha₂, hc₀⟩, hrel⟩
      cases hc₀
      cases hrel with
      | range h₀ h₁ h₂ =>
        exact ⟨rfl, _, (hsame (by decide) ha₀ _).2 h₀, _, (hsame (by decide) ha₁ _).2 h₁, _,
          (hsame (by decide) ha₂ _).2 h₂, rfl⟩
  · simp only [except_bind_eq_ok, exists_rejectIf, not_not]
    constructor
    · rintro ⟨rfl, b₀, h₀, b₁, h₁, b₂, h₂, b₃, h₃, hc⟩
      cases hc
      obtain ⟨a₀, ha₀, hR₀⟩ := hchild 0 (by decide)
      obtain ⟨a₁, ha₁, hR₁⟩ := hchild 1 (by decide)
      obtain ⟨a₂, ha₂, hR₂⟩ := hchild 2 (by decide)
      obtain ⟨a₃, ha₃, hR₃⟩ := hchild 3 (by decide)
      exact ⟨_, ⟨rfl, a₀, ha₀, a₁, ha₁, a₂, ha₂, a₃, ha₃, rfl⟩,
        .step ((hR₀ _).1 h₀) ((hR₁ _).1 h₁) ((hR₂ _).1 h₂) ((hR₃ _).1 h₃)⟩
    · rintro ⟨c₀, ⟨rfl, a₀, ha₀, a₁, ha₁, a₂, ha₂, a₃, ha₃, hc₀⟩, hrel⟩
      cases hc₀
      cases hrel with
      | step h₀ h₁ h₂ h₃ =>
        exact ⟨rfl, _, (hsame (by decide) ha₀ _).2 h₀, _, (hsame (by decide) ha₁ _).2 h₁, _,
          (hsame (by decide) ha₂ _).2 h₂, _, (hsame (by decide) ha₃ _).2 h₃, rfl⟩
  · simp only [except_bind_eq_ok, exists_rejectIf]
    constructor
    · rintro ⟨hcount, b, hb, bs, hbs, hc⟩
      cases hc
      obtain ⟨a, ha, hR⟩ := hchild 0 (by omega)
      obtain ⟨as, has, hRs⟩ := halternatives hcount
      exact ⟨_, ⟨hcount, a, ha, as, has, rfl⟩, .enum ((hR _).1 hb) ((hRs _).1 hbs)⟩
    · rintro ⟨c₀, ⟨hcount, a, ha, as, has, hc₀⟩, hrel⟩
      cases hc₀
      obtain ⟨as', has', hRs⟩ := halternatives hcount
      cases has.symm.trans has'
      cases hrel with
      | enum h hs => exact ⟨hcount, _, (hsame (by omega) ha _).2 h, _, (hRs _).2 hs, rfl⟩
  · simp only [except_bind_eq_ok, exists_rejectIf, not_not]
    constructor
    · rintro ⟨rfl, b₀, h₀, b₁, h₁, hc⟩
      cases hc
      obtain ⟨a₀, ha₀, hR₀⟩ := hchild 0 (by decide)
      obtain ⟨a₁, ha₁, hR₁⟩ := hchild 1 (by decide)
      exact ⟨_, ⟨rfl, a₀, ha₀, a₁, ha₁, rfl⟩, .flags ((hR₀ _).1 h₀) ((hR₁ _).1 h₁)⟩
    · rintro ⟨c₀, ⟨rfl, a₀, ha₀, a₁, ha₁, hc₀⟩, hrel⟩
      cases hc₀
      cases hrel with
      | flags h₀ h₁ =>
        exact ⟨rfl, _, (hsame (by decide) ha₀ _).2 h₀, _, (hsame (by decide) ha₁ _).2 h₁, rfl⟩
  · refine iff_of_false (fun h => by cases h) ?_
    rintro ⟨_, h, _⟩
    cases h

/-- A choice whose children have so many bytes. -/
structure ChoiceAt (data : List UInt8) (size : ℕ) : Prop where
  header : 24 ≤ data.length
  body : 16 ≤ declared data
  room : frame (declared data) ≤ data.length
  type : wordAt data 4 4 = PodType.choice.toNat
  childSize : wordAt data 16 4 = size
  nonempty : size ≠ 0
  whole : (declared data - 16) % size = 0

/-- The choice of the bytes that its children have. -/
def rawChoice (data : List UInt8) (size : ℕ) : Read (Choice (List UInt8)) :=
  Choice.ofChildren (wordAt data 8 4) ((declared data - 16) / size) (Parser.rawChild data size)
    (Parser.rawChildren data size 1)

lemma ChoiceAt.child_le {data : List UInt8} {size i : ℕ} (h : ChoiceAt data size)
    (hi : i < (declared data - 16) / size) : 24 + i * size + size ≤ data.length := by
  have hall := Nat.div_mul_le_self (declared data - 16) size
  have hend := child_end_le 24 hall hi
  have hroom := h.room
  have hbody := h.body
  have hframe : frame (declared data) = 8 + declared data + pad8 (declared data) := rfl
  omega

lemma rawChildren_eq {data : List UInt8} {size i n : ℕ}
    (h : ∀ j < i + n, 24 + j * size + size ≤ data.length) :
    Parser.rawChildren data size i n = .ok (parts data 24 size i n) := by
  induction n generalizing i with
  | zero => rfl
  | succ n ih =>
    have hfirst : Parser.rawChild data size i = .ok (part data 24 size i) := by
      unfold Parser.rawChild part
      rw [slice_of_le (by omega) (h i (by omega)), Nat.add_sub_cancel_left]
    unfold Parser.rawChildren
    rw [hfirst, except_ok_bind, ih fun j hj => h j (by omega), except_ok_bind, parts_succ]
    rfl

lemma ChoiceAt.typed_eq_ok {p : Prim E} {data : List UInt8} (h : ChoiceAt data p.podSize)
    {c : Choice p.Val} : Choice.ofChildren (wordAt data 8 4) ((declared data - 16) / p.podSize)
      (p.child data 24) (p.children data 24 1) = .ok c ↔
        ∃ c₀, rawChoice data p.podSize = .ok c₀ ∧ c₀.Rel p.Reads c := by
  refine Choice.ofChildren_eq_ok ?_ ?_
  · intro i hi
    have hle := h.child_le hi
    refine ⟨part data 24 p.podSize i, ?_, fun v => ?_⟩
    · unfold Parser.rawChild part
      rw [slice_of_le (by omega) hle, Nat.add_sub_cancel_left]
    · rw [child_eq p hle]
      exact Iff.rfl
  · intro hcount
    have hlast := h.child_le (Nat.sub_lt (Nat.pos_of_ne_zero hcount) Nat.one_pos)
    have hall : (1 + ((declared data - 16) / p.podSize - 1)) * p.podSize =
        ((declared data - 16) / p.podSize - 1) * p.podSize + p.podSize := by
      rw [Nat.add_comm, Nat.succ_mul]
    have hcount' : 1 + ((declared data - 16) / p.podSize - 1) = (declared data - 16) / p.podSize := by
      generalize (declared data - 16) / p.podSize = count at hcount
      omega
    exact ⟨_, rawChildren_eq fun j hj => h.child_le (hcount' ▸ hj),
      fun vs => children_eq_ok p (by omega)⟩

lemma decodeChoice_eq_ok {p : Prim E} {data : List UInt8} {c : Choice p.Val} {total : ℕ} :
    decodeChoice p data = .ok (c, total) ↔ ChoiceAt data p.podSize ∧
      wordAt data 20 4 = p.podType.toNat ∧
        (∃ c₀, rawChoice data p.podSize = .ok c₀ ∧ c₀.Rel p.Reads c) ∧
          total = frame (declared data) := by
  have hdeclared : wordAt data 0 4 = declared data := rfl
  unfold decodeChoice
  simp only [except_bind_eq_ok, exists_rejectIf, exists_u32At, toNat_wordAt,
    exists_podTotalSize (wordAt_lt data 0 4), ofNat_wordAt_eq_zero, ne_eq, not_not, not_or]
  simp only [hdeclared]
  constructor
  · rintro ⟨h24, -, h16, hroom, -, htype, -, -, ⟨hne, hsize⟩, -, hchild, hwhole, c', hc, hpair⟩
    rw [hsize] at hne hwhole hc
    have hat : ChoiceAt data p.podSize :=
      ⟨by omega, by omega, by omega, htype, hsize, hne, hwhole⟩
    cases hpair
    exact ⟨hat, hchild, hat.typed_eq_ok.1 hc, rfl⟩
  · rintro ⟨hat, hchild, hc, rfl⟩
    obtain ⟨h24, h16, hroom, htype, hsize, hne, hwhole⟩ := id hat
    refine ⟨by omega, by omega, by omega, by omega, by omega, htype, by omega, by omega, ⟨?_, hsize⟩,
      by omega, hchild, ?_, c, ?_, rfl⟩
    · rwa [hsize]
    · rwa [hsize]
    · rw [hsize]
      exact hat.typed_eq_ok.2 hc

namespace Parser

variable {q : Parser} {w : ω} {s : Parser × ω}

lemma popChoiceRaw_eq_ok {parse : PodType → Choice (List UInt8) → Prog ω Fault Unit} {total : ℕ} :
    popChoiceRaw parse (q, w) = (.ok total, s) ↔ q.Inside ∧ ∃ size type c w',
      ChoiceAt q.rest size ∧ wordAt q.rest 20 4 = PodType.toNat type ∧ rawChoice q.rest size = .ok c ∧
        parse type c w = (.ok (), w') ∧ total = frame (Pod.declared q.rest) ∧
          s = (⟨q.data, q.pos + total⟩, w') := by
  have hdeclared : wordAt q.rest 0 4 = Pod.declared q.rest := rfl
  unfold popChoiceRaw
  rw [here_bind, ofExcept_bind_eq_ok]
  have hleft : ∀ {P : List UInt8 → Prop}, (∃ data, q.left = .ok data ∧ P data) ↔ q.Inside ∧ P q.rest := by
    intro P
    constructor
    · rintro ⟨data, hdata, h⟩
      have hinside : q.Inside := (slice_eq_ok.1 hdata).1
      rw [left_inside hinside] at hdata
      cases hdata
      exact ⟨hinside, h⟩
    · rintro ⟨hinside, h⟩
      exact ⟨_, left_inside hinside, h⟩
  simp only [hleft, failIf_bind_eq_ok, ofExcept_bind_eq_ok, exists_u32At, toNat_wordAt,
    exists_podTotalSize (wordAt_lt q.rest 0 4), ofNat_wordAt_eq_zero, ne_eq, not_not]
  simp only [hdeclared]
  refine and_congr_right fun _ => ?_
  cases htype : PodType.tryFrom (wordAt q.rest 20 4) with
  | none =>
    refine iff_of_false (fun h => ?_) ?_
    · cases h.2.2.2.2.2.2.2.2.2.2
    · rintro ⟨size, type, c, w', -, hchild, -⟩
      rw [hchild, PodType.tryFrom_toNat] at htype
      cases htype
  | some type =>
    have hchild := PodType.tryFrom_eq_some.1 htype
    simp only [failIf_bind_eq_ok, ofExcept_bind_eq_ok, outside_bind_eq_ok, toNat_wordAt, not_not,
      advance_bind]
    simp only [hdeclared]
    constructor
    · rintro ⟨h24, -, h16, hroom, -, hkind, -, -, hne, -, hwhole, c, hc, u, w', hrun, hend⟩
      cases hend
      exact ⟨_, type, c, w', ⟨by omega, by omega, by omega, hkind, rfl, hne, hwhole⟩, hchild, hc, hrun,
        rfl, rfl⟩
    · rintro ⟨size, type', c, w', ⟨h24, h16, hroom, hkind, rfl, hne, hwhole⟩, hchild', hc, hrun, rfl, rfl⟩
      have hsame : type' = type := by
        rw [hchild', PodType.tryFrom_toNat] at htype
        exact Option.some.inj htype
      subst hsame
      exact ⟨by omega, by omega, by omega, by omega, by omega, hkind, by omega, by omega, hne, by omega,
        hwhole, c, hc, (), w', hrun, rfl⟩

/-- What a closure sees of a choice. -/
def seeChoice (type : PodType) (c : Choice (List UInt8)) :
    Prog (Option (PodType × Choice (List UInt8))) Fault Unit := .modify fun _ => some (type, c)

lemma popChoice_iff (p : Prim E) (hq : q.data.length < usizeBound) {c : Choice p.Val} :
    popPod (.choice p) (q, w) = (.ok c, s) ↔ s.2 = w ∧ ∃ total c₀,
      popChoiceRaw seeChoice (q, none) = (.ok total, s.1, some (p.podType, c₀)) ∧
        wordAt q.data (q.pos + 16) 4 = p.podSize ∧ wordAt q.data (q.pos + 20) 4 = p.podType.toNat ∧
        c₀.Rel p.Reads c := by
  refine (popPod_eq_ok (.choice p)).trans ?_
  simp only [wordAt_rest, popChoiceRaw_eq_ok]
  constructor
  · rintro ⟨hinside, n, hdecode, -, -, rfl⟩
    obtain ⟨hat, hchild, ⟨c₀, hc₀, hrel⟩, rfl⟩ := decodeChoice_eq_ok.1 hdecode
    exact ⟨rfl, _, c₀, ⟨hinside, p.podSize, p.podType, c₀, _, hat, hchild, hc₀, rfl, rfl, rfl⟩,
      hat.childSize, hchild, hrel⟩
  · rintro ⟨hw, total, c₀, ⟨hinside, size, type, c₁, seen, hat, htype, hc₁, hrun, rfl, hs⟩, hsize, hchild,
      hrel⟩
    obtain rfl : size = p.podSize := hat.childSize.symm.trans hsize
    cases hrun
    obtain ⟨q', w'⟩ := s
    cases hs
    cases hw
    exact ⟨hinside, _, decodeChoice_eq_ok.2 ⟨hat, hchild, ⟨c₀, hc₁, hrel⟩, rfl⟩, hat.room,
      pos_add_lt hq hat.room hinside, rfl⟩

/-! ### Objects -/

/-- The header of an object whose id is to be an enumeration, and of one whose id is any number. -/
lemma objectHeader_eq_ok {i : E.Name} {sizes : ℕ × ℕ} {type : ObjectType} {id : E.T i} :
    objectHeader i q = .ok (sizes, type, id) ↔
      ∃ raw : UInt32, objectHeader (E := Enums.plain) () q = .ok (sizes, type, raw) ∧
        E.tryFrom raw = some id := by
  unfold objectHeader
  simp only [except_bind_eq_ok, exists_rejectIf, exists_u32At,
    exists_podTotalSize (wordAt_lt q.data q.pos 4), toNat_wordAt]
  cases ObjectType.tryFrom (wordAt q.data (q.pos + 8) 4) with
  | none => simp
  | some type' =>
    simp only [except_bind_eq_ok, exists_u32At, Enums.plain, and_assoc, exists_and_left]
    -- both are the same up to the id
    iterate 8 refine and_congr_right fun _ => ?_
    constructor
    · intro h
      split at h
      · cases h
      · next id' hid =>
        cases h
        exact ⟨_, rfl, hid⟩
    · rintro ⟨raw, h, hid⟩
      cases h
      rw [hid]
      rfl

/-- What a closure sees of an object: its type and id, and the parser it is called with. -/
def seeObject (type : ObjectType) (id : UInt32) : Pop (Option (ObjectType × UInt32 × Parser)) Unit :=
  fun s => (.ok (), s.1, some (type, id, s.1))

lemma objectBody_eq_ok {f : Pop ω α} {a : α} {total : ℕ} (height : 8 ≤ q.declared)
    (hroom : q.pos + frame q.declared ≤ q.data.length) :
    objectBody q.declared (frame q.declared) f (q, w) = (.ok (a, total), s) ↔
      total = frame q.declared ∧ s.1 = ⟨q.data, q.pos + frame q.declared⟩ ∧
        ∃ inner, f (.new q.window, w) = (.ok a, inner, s.2) := by
  rw [objectBody_run height hroom]
  obtain ⟨q', w'⟩ := s
  cases f (.new q.window, w) with
  | mk r out =>
    obtain ⟨inner, w''⟩ := out
    cases r with
    | error e => simp
    | ok b =>
      simp only [Prod.mk.injEq, Except.ok.injEq]
      constructor
      · rintro ⟨⟨rfl, rfl⟩, rfl, rfl⟩
        exact ⟨rfl, rfl, inner, rfl, rfl, rfl⟩
      · rintro ⟨rfl, rfl, inner', rfl, -, rfl⟩
        exact ⟨⟨rfl, rfl⟩, rfl, rfl⟩

lemma popObject_iff {type : ObjectType} {i : E.Name} {parse : E.T i → Pop ω α} {a : α} {total : ℕ} :
    popObject type i parse (q, w) = (.ok (a, total), s) ↔ ∃ raw inner,
      popObjectRaw (E := Enums.plain) () seeObject (q, none) =
          (.ok ((), total), s.1, some (type, raw, inner)) ∧
        ∃ id, E.tryFrom raw = some id ∧ ∃ inner', parse id (inner, w) = (.ok a, inner', s.2) := by
  unfold popObject popObjectRaw
  rw [here_bind, here_bind]
  simp only [ofExcept_bind_eq_ok, failIf_bind_eq_ok, ne_eq, not_not]
  constructor
  · rintro ⟨⟨sizes, type', id⟩, hheader, rfl, hbody⟩
    obtain ⟨hsizes, height, hroom⟩ := (objectHeader_calm i q).ok hheader
    obtain ⟨raw, hraw, hid⟩ := objectHeader_eq_ok.1 hheader
    cases hsizes
    obtain ⟨htotal, hpos, inner', hparse⟩ := (objectBody_eq_ok height hroom).1 hbody
    exact ⟨raw, .new q.window, ⟨_, hraw, (objectBody_eq_ok height hroom).2 ⟨htotal, hpos, _, rfl⟩⟩,
      id, hid, inner', hparse⟩
  · rintro ⟨raw, inner, ⟨⟨sizes, type', raw'⟩, hraw, hbody⟩, id, hid, inner', hparse⟩
    obtain ⟨hsizes, height, hroom⟩ := (objectHeader_calm (E := Enums.plain) () q).ok hraw
    cases hsizes
    obtain ⟨htotal, hpos, inner'', hsee⟩ := (objectBody_eq_ok height hroom).1 hbody
    cases hsee
    exact ⟨(_, type', id), objectHeader_eq_ok.2 ⟨raw', hraw, hid⟩, rfl,
      (objectBody_eq_ok height hroom).2 ⟨htotal, hpos, inner', hparse⟩⟩

/-- **Pops of a type and their raw siblings.** An array or a choice of a primitive type is popped
exactly where the raw pop sees children of that type and size all of which can be read as the
primitive, and an object of a type where the raw pop sees one of that type, whose id is accepted and
whose closure returns. Both see the same children or properties and leave the parser in one place. -/
theorem typed_pops_iff_raw {q : Parser} (hq : q.data.length < usizeBound) (w : ω) (s : Parser × ω) :
    (∀ (p : Prim E) (vs : List p.Val), popPod (.array p) (q, w) = (.ok vs, s) ↔
      s.2 = w ∧ ∃ total seen, popArrayRaw seeItem (q, []) = (.ok total, s.1, seen) ∧
        wordAt q.data (q.pos + 8) 4 = p.podSize ∧ wordAt q.data (q.pos + 12) 4 = p.podType.toNat ∧
        List.Forall₂ (fun item v => item.1 = p.podType ∧ p.Reads item.2 v) seen vs) ∧
    (∀ (p : Prim E) (c : Choice p.Val), popPod (.choice p) (q, w) = (.ok c, s) ↔
      s.2 = w ∧ ∃ total c₀,
        popChoiceRaw seeChoice (q, none) = (.ok total, s.1, some (p.podType, c₀)) ∧
        wordAt q.data (q.pos + 16) 4 = p.podSize ∧ wordAt q.data (q.pos + 20) 4 = p.podType.toNat ∧
        c₀.Rel p.Reads c) ∧
    ∀ (α : Type) (type : ObjectType) (i : E.Name) (parse : E.T i → Pop ω α) (a : α) (total : ℕ),
      popObject type i parse (q, w) = (.ok (a, total), s) ↔ ∃ raw inner,
        popObjectRaw (E := Enums.plain) () seeObject (q, none) =
            (.ok ((), total), s.1, some (type, raw, inner)) ∧
          ∃ id, E.tryFrom raw = some id ∧ ∃ inner', parse id (inner, w) = (.ok a, inner', s.2) :=
  ⟨fun p _ => popArray_iff p hq, fun p _ => popChoice_iff p hq, fun _ _ _ _ _ _ => popObject_iff⟩

/-- An array of one number. -/
def oneSeven : List UInt8 :=
  [12, 0, 0, 0, 13, 0, 0, 0, 4, 0, 0, 0, 4, 0, 0, 0, 7, 0, 0, 0, 0, 0, 0, 0]

theorem typed_pops_iff_raw_oneSeven : oneSeven.length < usizeBound ∧ ∃ total seen,
    popArrayRaw seeItem (.new oneSeven, []) = (.ok total, ⟨oneSeven, 24⟩, seen) ∧
      List.Forall₂ (fun item v => item.1 = .int ∧ (Prim.int : Prim Enums.plain).Reads item.2 v) seen
        [(7 : Int32)] := by
  have hlen : oneSeven.length < usizeBound := by decide
  have hpop : popPod (.array (.int : Prim Enums.plain)) (.new oneSeven, ()) =
      (.ok [(7 : Int32)], (⟨oneSeven, 24⟩ : Parser), ()) := rfl
  obtain ⟨-, total, seen, hraw, -, -, hreads⟩ :=
    ((typed_pops_iff_raw (E := Enums.plain) (q := .new oneSeven) hlen () (⟨oneSeven, 24⟩, ())).1 .int _).1 hpop
  exact ⟨hlen, total, seen, hraw, hreads⟩

end Parser

end PipewireNative.Pod
