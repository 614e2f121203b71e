import PipewireNative.Pod.Types

/-!
Encoding and decoding of single pods. Slices are taken and written as the code does it, and what
is out of range is a panic; so is an overflow, as in a build that checks for it. Words are written
least significant byte first.
-/

namespace PipewireNative.Pod

open Lib Lib.Word Prog

/-! ### Reading and writing -/

/-- What reading comes to. -/
abbrev Read (α : Type) := Except Fault α

/-- A buffer that is written to. -/
abbrev Write (α : Type) := Prog (List UInt8) Fault α

def pad8 (size : ℕ) : ℕ := if size % 8 ≠ 0 then 8 - size % 8 else 0

def podTotalSize (bodySize : ℕ) : Read ℕ :=
  if usizeBound ≤ 8 + bodySize ∨ usizeBound ≤ 8 + bodySize + pad8 bodySize then
    .error (.invalid "Pod size overflow")
  else .ok (8 + bodySize + pad8 bodySize)

/-- A `u32` as it is written. -/
abbrev word (n : ℕ) : List UInt8 := leBytes 4 n

/-- A `u64` as it is written. -/
abbrev long (n : ℕ) : List UInt8 := leBytes 8 n

/-! ### Primitives -/

variable {E : Enums}

/-- The types with `Primitive`. -/
inductive Prim (E : Enums) where
  | unit
  | bool
  | id (n : E.Name)
  | int
  | long
  | float
  | double
  | fd
  | rectangle
  | fraction

namespace Prim

def Val : Prim E → Type
  | .unit => Unit
  | .bool => Bool
  | .id n => E.T n
  | .int => Int32
  | .long => Int64
  | .float => Float32Bits
  | .double => Float64Bits
  | .fd => Fd
  | .rectangle => Rectangle
  | .fraction => Fraction

def podType : Prim E → PodType
  | .unit => .none
  | .bool => .bool
  | .id _ => .id
  | .int => .int
  | .long => .long
  | .float => .float
  | .double => .double
  | .fd => .fd
  | .rectangle => .rectangle
  | .fraction => .fraction

def podSize : Prim E → ℕ
  | .unit => 0
  | .bool | .id _ | .int | .float => 4
  | .long | .double | .fd | .rectangle | .fraction => 8

def body : (p : Prim E) → p.Val → List UInt8
  | .unit, _ => []
  | .bool, (b : Bool) => word b.toNat
  | .id _, x => word (E.into x).toNat
  | .int, (x : Int32) => word x.toUInt32.toNat
  | .long, (x : Int64) => Pod.long x.toUInt64.toNat
  | .float, (x : Float32Bits) => word x.bits.toNat
  | .double, (x : Float64Bits) => Pod.long x.bits.toNat
  | .fd, (x : Fd) => Pod.long x.value.toUInt64.toNat
  | .rectangle, (x : Rectangle) => word x.width.toNat ++ word x.height.toNat
  | .fraction, (x : Fraction) => word x.num.toNat ++ word x.denom.toNat

def encodeBody (p : Prim E) (v : p.Val) : Write Unit := write 0 (p.body v)

def decodeBody : (p : Prim E) → List UInt8 → Read p.Val
  | .unit, _ => pure ()
  | .bool, data => do
    let val ← u32At data 0
    pure (val != 0 : Bool)
  | .id _, data => do
    let raw ← u32At data 0
    match E.tryFrom raw with
    | some val => pure val
    | none => .error (.invalid s!"Could not decode Id({raw})")
  | .int, data => do
    let val ← u32At data 0
    pure val.toInt32
  | .long, data => do
    let val ← u64At data 0
    pure val.toInt64
  | .float, data => do
    let val ← u32At data 0
    pure (Float32Bits.mk val)
  | .double, data => do
    let val ← u64At data 0
    pure (Float64Bits.mk val)
  | .fd, data => do
    let val ← u64At data 0
    pure (Fd.mk val.toInt64)
  | .rectangle, data => do
    let width ← u32At data 0
    let height ← u32At data 4
    pure (Rectangle.mk width height)
  | .fraction, data => do
    let num ← u32At data 0
    let denom ← u32At data 4
    pure (Fraction.mk num denom)

/-- `Pod::encode` of a primitive. -/
def encode (p : Prim E) (v : p.Val) : Write ℕ := do
  let data ← .get
  let size := p.podSize
  let padding := pad8 size
  .failIf (data.length < 8 + size + padding) .noSpace
  write 0 (word size)
  write 4 (word p.podType.toNat)
  within 8 (p.encodeBody v)
  if 0 < padding then write (8 + size) (List.replicate padding 0) else pure ()
  pure (8 + size + padding)

/-- `Pod::decode` of a primitive. -/
def decode (p : Prim E) (data : List UInt8) : Read (p.Val × ℕ) := do
  rejectIf (data.length < 8) (.invalid "Not enough data for primitive")
  let size ← u32At data 0
  rejectIf (size.toNat ≠ p.podSize) (.invalid s!"Mismatched pod size: {size} != {p.podSize}")
  let t ← u32At data 4
  rejectIf (t.toNat ≠ p.podType.toNat) (.invalid s!"Type {t} is not {p.podType.name}")
  let total ← podTotalSize size.toNat
  rejectIf (data.length < total) (.invalid "Not enough data for primitive")
  let body ← slice data 8 (8 + size.toNat)
  let val ← p.decodeBody body
  pure (val, total)

/-- Bodies one behind the other, from a place on. -/
def encodeBodies (p : Prim E) (base : ℕ) : ℕ → List p.Val → Write Unit
  | _, [] => pure ()
  | i, v :: vs => do
    within (base + i * p.podSize) (p.encodeBody v)
    encodeBodies p base (i + 1) vs

/-- The body of one of the children that are at a place, one behind the other. -/
def child (p : Prim E) (data : List UInt8) (base i : ℕ) : Read p.Val := do
  let body ← slice data (base + i * p.podSize) (base + i * p.podSize + p.podSize)
  p.decodeBody body

/-- So many children, from one of them on. -/
def children (p : Prim E) (data : List UInt8) (base : ℕ) : ℕ → ℕ → Read (List p.Val)
  | _, 0 => pure []
  | i, n + 1 => do
    let v ← p.child data base i
    let vs ← children p data base (i + 1) n
    pure (v :: vs)

end Prim

/-! ### Strings and bytes -/

def utf8 (s : String) : List UInt8 := s.toByteArray.data.toList

/-- `String::from_utf8_lossy`: what is not valid is read character by character, and every longest
beginning of a character that is not one is replaced. -/
def utf8Lossy (bytes : List UInt8) : String :=
  match String.fromUTF8? ⟨bytes.toArray⟩ with
  | some s => s
  | none => lossy bytes.length bytes
where
  /-- The next character, or what stands for it, and how many bytes it takes. -/
  step (bytes : List UInt8) : Char × ℕ :=
    match (List.range' 1 4).findSome? fun n =>
        (String.fromUTF8? ⟨(bytes.take n).toArray⟩).bind fun s => s.toList.head?.map (·, n) with
    | some r => r
    | none => (Char.ofNat 0xfffd, broken bytes)
  /-- The bytes that begin a character and do not end it, at least one. -/
  broken : List UInt8 → ℕ
    | b :: c :: rest =>
      if continues b c then
        if 0xe0 ≤ b then
          match rest with
          | d :: _ => if 0x80 ≤ d ∧ d ≤ 0xbf ∧ 0xf0 ≤ b then 3 else 2
          | [] => 2
        else 1
      else 1
    | _ => 1
  /-- The second byte of a character may follow its first one. -/
  continues (b c : UInt8) : Bool :=
    if b = 0xe0 then 0xa0 ≤ c && c ≤ 0xbf
    else if b = 0xed then 0x80 ≤ c && c ≤ 0x9f
    else if b = 0xf0 then 0x90 ≤ c && c ≤ 0xbf
    else if b = 0xf4 then 0x80 ≤ c && c ≤ 0x8f
    else 0xc2 ≤ b && b ≤ 0xf4 && 0x80 ≤ c && c ≤ 0xbf
  /-- Every step takes a byte, so that their number is fuel enough. -/
  lossy : ℕ → List UInt8 → String
    | 0, _ => ""
    | fuel + 1, bytes =>
      if bytes = [] then ""
      else
        let r := step bytes
        String.singleton r.1 ++ lossy fuel (bytes.drop r.2)

/-- The largest `u32`. -/
def u32Max : ℕ := 2 ^ 32 - 1

def encodeString (s : String) : Write ℕ := do
  let data ← .get
  let bytes := utf8 s
  let len := bytes.length + 1
  let padding := pad8 len
  .failIf (u32Max < len % 2 ^ 32 ∨ data.length < 8 + len + padding) .noSpace
  write 0 (word len)
  write 4 (word PodType.string.toNat)
  write 8 bytes
  write (8 + bytes.length) [0]
  write (8 + len) (List.replicate padding 0)
  pure (8 + len + padding)

def decodeString (data : List UInt8) : Read (String × ℕ) := do
  rejectIf (data.length < 8) (.invalid "Not enough data for string")
  let len ← u32At data 0
  rejectIf (len = 0) (.invalid "String has no null terminator")
  let total ← podTotalSize len.toNat
  rejectIf (data.length < total) (.invalid "Not enough data for string")
  let t ← u32At data 4
  rejectIf (t.toNat ≠ PodType.string.toNat) (.invalid s!"Type {t} is not string")
  let bytes ← slice data 8 (8 + len.toNat - 1)
  let last ← slice data (8 + len.toNat - 1) (8 + len.toNat)
  rejectIf (last ≠ [0]) (.invalid "Not enough data for string")
  pure (utf8Lossy bytes, total)

def encodeBytes (bytes : List UInt8) : Write ℕ := do
  let data ← .get
  let len := bytes.length
  let padding := pad8 len
  .failIf (u32Max < len % 2 ^ 32 ∨ data.length < 8 + len + padding) .noSpace
  write 0 (word len)
  write 4 (word PodType.bytes.toNat)
  write 8 bytes
  write (8 + len) (List.replicate padding 0)
  pure (8 + len + padding)

def decodeBytes (data : List UInt8) : Read (List UInt8 × ℕ) := do
  rejectIf (data.length < 8) (.invalid "Not enough data for byte array")
  let len ← u32At data 0
  let total ← podTotalSize len.toNat
  rejectIf (data.length < total) (.invalid "Not enough data for byte array")
  let t ← u32At data 4
  rejectIf (t.toNat ≠ PodType.bytes.toNat) (.invalid s!"Type {t} is not bytes")
  let bytes ← slice data 8 (8 + len.toNat)
  pure (bytes, total)

/-! ### Pointers -/

/-- `size_of::<*const c_void>()`. -/
def ptrSize : ℕ := 8

def encodePointer (p : Pointer) : Write ℕ := do
  let data ← .get
  .failIf (data.length < 24) .noSpace
  write 0 (word (8 + ptrSize))
  write 4 (word PodType.pointer.toNat)
  write 8 (word p.type.toNat)
  write 12 [0, 0, 0, 0]
  write 16 (long p.ptr.toNat)
  pure 24

def decodePointer (data : List UInt8) : Read (Pointer × ℕ) := do
  rejectIf (data.length < 8) (.invalid "Not enough data for pointer")
  let size ← u32At data 0
  let total ← podTotalSize size.toNat
  rejectIf (size.toNat ≠ 8 + ptrSize ∨ data.length < total) (.invalid "Not enough data for pointer")
  let t ← u32At data 4
  rejectIf (t.toNat ≠ PodType.pointer.toNat) (.invalid s!"Type {t} is not pointer")
  let raw ← u32At data 8
  match PodType.tryFrom raw.toNat with
  | none => .error (.invalid "Could not decode type: ()")
  | some type => do
    let ptr ← u64At data 16
    pure (⟨type, ptr⟩, total)

/-! ### Arrays -/

def encodeArray (p : Prim E) (vs : List p.Val) : Write ℕ := do
  let data ← .get
  let elems := p.podSize * vs.length
  .failIf (usizeBound ≤ elems) .panic
  let padding := pad8 elems
  .failIf (usizeBound ≤ 8 + 8 + elems + padding) .panic
  .failIf (data.length < 8 + 8 + elems + padding) .noSpace
  -- `8 + elems_size as u32`
  .failIf (2 ^ 32 ≤ 8 + elems % 2 ^ 32) .panic
  write 0 (word (8 + elems))
  write 4 (word PodType.array.toNat)
  write 8 (word p.podSize)
  write 12 (word p.podType.toNat)
  p.encodeBodies 16 0 vs
  pure (8 + 8 + elems + padding)

/-- A type, or that there is none, as it is shown. -/
def showType : Option PodType → String
  | some t => "Ok(" ++ t.name ++ ")"
  | none => "Err(())"

def decodeArray (p : Prim E) (data : List UInt8) : Read (List p.Val × ℕ) := do
  rejectIf (data.length < 16) (.invalid "Not enough data for array")
  let size ← u32At data 0
  rejectIf (size.toNat < 8) (.invalid "Array body is smaller than its header")
  let total ← podTotalSize size.toNat
  rejectIf (data.length < total) (.invalid "Not enough data for array")
  let t ← u32At data 4
  rejectIf (PodType.tryFrom t.toNat ≠ some .array) (.invalid s!"Type {t} is not array")
  let childSize ← u32At data 8
  rejectIf (childSize = 0 ∨ childSize.toNat ≠ p.podSize) (.invalid "Invalid array child size")
  let childType ← u32At data 12
  let type := PodType.tryFrom childType.toNat
  rejectIf (type ≠ some p.podType) (.invalid ("Invalid array type " ++ showType type))
  let elements := size.toNat - 8
  rejectIf (elements % childSize.toNat ≠ 0) (.invalid "Array body has a partial child")
  let body ← slice data 16 (16 + elements)
  let vs ← p.children body 0 0 (elements / childSize.toNat)
  pure (vs, total)

/-! ### Choices -/

namespace Choice

variable {α : Type}

def kind : Choice α → ℕ
  | .none _ => 0
  | .range .. => 1
  | .step .. => 2
  | .enum .. => 3
  | .flags .. => 4

def values : Choice α → List α
  | .none value => [value]
  | .range default min max => [default, min, max]
  | .step default min max stride => [default, min, max, stride]
  | .enum default alternatives => default :: alternatives
  | .flags default set => [default, set]

/-- The choice of a kind with so many children; the alternatives are read from the second child
on. -/
def ofChildren (kind count : ℕ) (child : ℕ → Read α) (alternatives : ℕ → Read (List α)) :
    Read (Choice α) :=
  match kind with
  | 0 => do
    rejectIf (count ≠ 1) (.invalid "Invalid none choice size")
    let value ← child 0
    pure (.none value)
  | 1 => do
    rejectIf (count ≠ 3) (.invalid "Not enough data for choice range")
    let default ← child 0
    let min ← child 1
    let max ← child 2
    pure (.range default min max)
  | 2 => do
    rejectIf (count ≠ 4) (.invalid "Not enough data for choice step")
    let default ← child 0
    let min ← child 1
    let max ← child 2
    let stride ← child 3
    pure (.step default min max stride)
  | 3 => do
    rejectIf (count = 0) (.invalid "Enum choice has no default")
    let default ← child 0
    let alternatives ← alternatives (count - 1)
    pure (.enum default alternatives)
  | 4 => do
    rejectIf (count ≠ 2) (.invalid "Not enough data for choice flags")
    let default ← child 0
    let set ← child 1
    pure (.flags default set)
  | t => .error (.invalid s!"Invalid choice type {t}")

end Choice

def encodeChoice (p : Prim E) (c : Choice p.Val) : Write ℕ := do
  let data ← .get
  let size := 16 + p.podSize * c.values.length
  .failIf (usizeBound ≤ size) .panic
  let padding := pad8 size
  .failIf (usizeBound ≤ 24 + size + padding) .panic
  .failIf (data.length < 24 + size + padding) .noSpace
  write 0 (word size)
  write 4 (word PodType.choice.toNat)
  write 8 (word c.kind)
  write 12 (word 0)
  write 16 (word p.podSize)
  write 20 (word p.podType.toNat)
  p.encodeBodies 24 0 c.values
  pure (8 + size + padding)

def decodeChoice (p : Prim E) (data : List UInt8) : Read (Choice p.Val × ℕ) := do
  rejectIf (data.length < 24) (.invalid "Not enough data for choice")
  let size ← u32At data 0
  rejectIf (size.toNat < 16) (.invalid "Choice body is smaller than its header")
  let total ← podTotalSize size.toNat
  rejectIf (data.length < total) (.invalid "Not enough data for choice")
  let t ← u32At data 4
  rejectIf (t.toNat ≠ PodType.choice.toNat) (.invalid s!"Type {t} is not choice")
  let kind ← u32At data 8
  let childSize ← u32At data 16
  rejectIf (childSize = 0 ∨ childSize.toNat ≠ p.podSize) (.invalid "Not enough data for choice")
  let childType ← u32At data 20
  rejectIf (childType.toNat ≠ p.podType.toNat) (.invalid s!"Invalid child type {childType}")
  let children := size.toNat - 16
  rejectIf (children % childSize.toNat ≠ 0) (.invalid "Choice body has a partial child")
  let choice ← Choice.ofChildren kind.toNat (children / childSize.toNat) (p.child data 24)
    (p.children data 24 1)
  pure (choice, total)

/-! ### Raw pods -/

/-- A pod as it is, header and all, with the padding behind it: `RawPod` and `RawPodOwned`, whose
only maker is `wrap`. -/
structure RawPod where
  type : PodType
  data : List UInt8
  long_enough : 8 ≤ data.length
  sized : 8 + wordAt data 0 4 + pad8 (wordAt data 0 4) = data.length
  typed : PodType.tryFrom (wordAt data 4 4) = some type
  deriving DecidableEq

lemma podTotalSize_eq_ok {n total : ℕ} :
    podTotalSize n = .ok total ↔ 8 + n + pad8 n < usizeBound ∧ 8 + n + pad8 n = total := by
  unfold podTotalSize
  split_ifs with h
  · simp only [false_iff]
    omega
  · simp only [Except.ok.injEq]
    omega

namespace RawPod

variable (r : RawPod)

/-- `total_size`. -/
def size : ℕ := r.data.length

/-- `RawPod::wrap` and `RawPodOwned::wrap`. -/
def wrap (data : List UInt8) : Read RawPod :=
  if data.length < 8 then .error .noSpace
  else match hinternal : u32At data 0 with
    | .error f => .error f
    | .ok internal => match hsize : podTotalSize internal.toNat with
      | .error f => .error f
      | .ok size =>
        if hle : data.length < size then .error .noSpace
        else match ht : u32At data 4 with
          | .error f => .error f
          | .ok t => match htype : PodType.tryFrom t.toNat with
            | none => .error (.invalid "Could not decode pod type: ()")
            | some type =>
              have hword := (u32At_eq_ok.1 hinternal).2
              have htotal := (podTotalSize_eq_ok.1 hsize).2
              have hlen : (data.take size).length = size :=
                List.length_take_of_le (Nat.le_of_not_lt hle)
              .ok {
                type
                data := data.take size
                long_enough := by omega
                sized := by rw [wordAt_take (by omega), hlen, ← hword, htotal]
                typed := by rw [wordAt_take (by omega), ← (u32At_eq_ok.1 ht).2, htype] }

def encode : Write ℕ := do
  let data ← .get
  .failIf (data.length < r.size) .noSpace
  write 0 r.data
  pure r.size

def decode (data : List UInt8) : Read (RawPod × ℕ) := do
  let res ← wrap data
  pure (res, res.size)

end RawPod

/-! ### All of them -/

/-- The types with `Pod`. -/
inductive PodTy (E : Enums) where
  | prim (p : Prim E)
  | string
  | bytes
  | pointer
  | array (p : Prim E)
  | choice (p : Prim E)
  | property (k : E.Name) (t : PodTy E)
  | option (t : PodTy E)
  | raw

namespace PodTy

def Val : PodTy E → Type
  | .prim p => p.Val
  | .string => String
  | .bytes => List UInt8
  | .pointer => Pointer
  | .array p => List p.Val
  | .choice p => Choice p.Val
  | .property k t => Property (E.T k) t.Val
  | .option t => Option t.Val
  | .raw => RawPod

/-- `Pod::encode`. -/
def encode : (t : PodTy E) → t.Val → Write ℕ
  | .prim p, v => p.encode v
  | .string, v => encodeString v
  | .bytes, v => encodeBytes v
  | .pointer, v => encodePointer v
  | .array p, v => encodeArray p v
  | .choice p, v => encodeChoice p v
  | .property _ t, v => do
    let data ← .get
    .failIf (data.length < 8) .noSpace
    write 0 (word (E.into v.key).toNat)
    write 4 (word v.flags.bits.toNat)
    let size ← within 8 (t.encode v.value)
    pure (8 + size)
  | .option t, some v => t.encode v
  | .option _, none => (Prim.unit : Prim E).encode ()
  | .raw, v => RawPod.encode v

/-- `Pod::decode`. -/
def decode : (t : PodTy E) → List UInt8 → Read (t.Val × ℕ)
  | .prim p, data => p.decode data
  | .string, data => decodeString data
  | .bytes, data => decodeBytes data
  | .pointer, data => decodePointer data
  | .array p, data => decodeArray p data
  | .choice p, data => decodeChoice p data
  | .property k t, data => do
    rejectIf (data.length < 8) (.invalid "Not enough data for property")
    let rawKey ← u32At data 0
    match E.tryFrom (n := k) rawKey with
    | none => .error (.invalid "Invalid property key")
    | some key => do
      let rawFlags ← u32At data 4
      match PropertyFlags.fromBits rawFlags with
      | none => .error (.invalid "Invalid property flags")
      | some flags => do
        let rest ← slice data 8 data.length
        let (value, size) ← t.decode rest
        pure (⟨key, flags, value⟩, 8 + size)
  | .option t, data =>
    match t.decode data with
    | .ok (v, size) => pure (some v, size)
    | .error (.error _) => do
      let (_, size) ← (Prim.unit : Prim E).decode data
      pure (none, size)
    | .error .panic => .error .panic
  | .raw, data => RawPod.decode data

end PodTy

end PipewireNative.Pod
