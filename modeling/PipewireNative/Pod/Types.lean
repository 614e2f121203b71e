import PipewireNative.Lib.Slice

/-!
The types of SPA pods: the numbers of the wire format, the values that are encoded, and what can
go wrong.
-/

namespace PipewireNative.Pod

open Lib Lib.Word

/-- One more than the largest `usize`. -/
def usizeBound : ℕ := 2 ^ 64

/-- `Type`, numbered from 0 in this order. -/
inductive PodType where
  | start | none | bool | id | int | long | float | double | string | bytes | rectangle | fraction
  | bitmap | array | struct | object | sequence | pointer | fd | choice | pod
  deriving DecidableEq, Repr

namespace PodType

def all : List PodType :=
  [start, none, bool, id, int, long, float, double, string, bytes, rectangle, fraction, bitmap,
    array, struct, object, sequence, pointer, fd, choice, pod]

def toNat (t : PodType) : ℕ := t.ctorIdx

/-- `TryFrom<u32>`. -/
def tryFrom (n : ℕ) : Option PodType := all[n]?

/-- The name a type is shown by. -/
def name : PodType → String
  | start => "Start" | none => "None" | bool => "Bool" | id => "Id" | int => "Int"
  | long => "Long" | float => "Float" | double => "Double" | string => "String"
  | bytes => "Bytes" | rectangle => "Rectangle" | fraction => "Fraction" | bitmap => "Bitmap"
  | array => "Array" | struct => "Struct" | object => "Object" | sequence => "Sequence"
  | pointer => "Pointer" | fd => "Fd" | choice => "Choice" | pod => "Pod"

@[simp] lemma tryFrom_toNat (t : PodType) : tryFrom t.toNat = some t := by cases t <;> rfl

lemma toNat_lt (t : PodType) : t.toNat < 256 ^ 4 := by cases t <;> decide

end PodType

/-- `ObjectType`, numbered from `0x40000` in this order. -/
inductive ObjectType where
  | start | propInfo | props | format | paramBuffers | paramMeta | paramIo | paramProfile
  | paramPortConfig | paramRoute | profiler | paramLatency | paramProcessLatency | paramTag
  deriving DecidableEq, Repr

namespace ObjectType

def all : List ObjectType :=
  [start, propInfo, props, format, paramBuffers, paramMeta, paramIo, paramProfile,
    paramPortConfig, paramRoute, profiler, paramLatency, paramProcessLatency, paramTag]

def toNat (t : ObjectType) : ℕ := 0x40000 + t.ctorIdx

/-- `TryFrom<u32>`. -/
def tryFrom (n : ℕ) : Option ObjectType := if n < 0x40000 then none else all[n - 0x40000]?

/-- The name a type is shown by. -/
def name : ObjectType → String
  | start => "Start" | propInfo => "PropInfo" | props => "Props" | format => "Format"
  | paramBuffers => "ParamBuffers" | paramMeta => "ParamMeta" | paramIo => "ParamIo"
  | paramProfile => "ParamProfile" | paramPortConfig => "ParamPortConfig"
  | paramRoute => "ParamRoute" | profiler => "Profiler" | paramLatency => "ParamLatency"
  | paramProcessLatency => "ParamProcessLatency" | paramTag => "ParamTag"

@[simp] lemma tryFrom_toNat (t : ObjectType) : tryFrom t.toNat = some t := by cases t <;> rfl

lemma toNat_lt (t : ObjectType) : t.toNat < 256 ^ 4 := by cases t <;> decide

end ObjectType

/-! ### Errors -/

inductive Error where
  | invalid (message : String)
  | noSpace
  deriving DecidableEq, Repr

/-- How an operation on pods comes back without a value: an error, or a panic. -/
inductive Fault where
  | error (e : Error)
  | panic
  deriving DecidableEq, Repr

instance : Panics Fault := ⟨.panic⟩

/-- The error of an invalid pod. -/
def Fault.invalid (message : String) : Fault := .error (.invalid message)

/-- The error of a buffer that is too short. -/
def Fault.noSpace : Fault := .error .noSpace

/-! ### Values -/

/-- The enumerations a program uses for ids and keys: types with `Into<u32>` and
`TryFrom<u32>`, by their names. -/
structure Enums where
  Name : Type
  T : Name → Type
  into : {n : Name} → T n → UInt32
  tryFrom : {n : Name} → UInt32 → Option (T n)

/-- Converting back gives what was converted. -/
def Enums.Lawful (E : Enums) : Prop := ∀ (n : E.Name) (x : E.T n), E.tryFrom (E.into x) = some x

/-- Numbers as they are, `u32` for all ids and keys. -/
def Enums.plain : Enums where
  Name := Unit
  T _ := UInt32
  into x := x
  tryFrom x := some x

lemma Enums.plain_lawful : Enums.plain.Lawful := fun _ _ => rfl

/-- `f32`, by its bits. -/
structure Float32Bits where
  bits : UInt32
  deriving DecidableEq, Repr

/-- `f64`, by its bits. -/
structure Float64Bits where
  bits : UInt64
  deriving DecidableEq, Repr

structure Fd where
  value : Int64
  deriving DecidableEq, Repr

structure Rectangle where
  width : UInt32
  height : UInt32
  deriving DecidableEq, Repr

structure Fraction where
  num : UInt32
  denom : UInt32
  deriving DecidableEq, Repr

structure Pointer where
  type : PodType
  ptr : UInt64
  deriving DecidableEq, Repr

inductive Choice (α : Type) where
  | none (value : α)
  | range (default min max : α)
  | step (default min max step : α)
  | enum (default : α) (alternatives : List α)
  | flags (default flags : α)
  deriving DecidableEq, Repr

/-- The bits of `PropertyFlags`; a value may hold others than those that have names. -/
structure PropertyFlags where
  bits : UInt32
  deriving DecidableEq, Repr

namespace PropertyFlags

/-- All the bits that have names. -/
def all : UInt32 := 0xf

def fromBits (bits : UInt32) : Option PropertyFlags :=
  if bits &&& all = bits then some ⟨bits⟩ else none

/-- No other bits than those that have names. -/
def Known (f : PropertyFlags) : Prop := f.bits &&& all = f.bits

instance : DecidablePred Known := fun f => decEq (f.bits &&& all) f.bits

lemma fromBits_bits {f : PropertyFlags} (h : f.Known) : fromBits f.bits = some f := if_pos h

end PropertyFlags

structure Property (α β : Type) where
  key : α
  flags : PropertyFlags
  value : β

end PipewireNative.Pod
