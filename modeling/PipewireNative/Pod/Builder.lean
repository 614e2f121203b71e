import PipewireNative.Pod.Image

/-!
The builder: pods one behind the other in a buffer, structs and objects with their header written
once their members are. An error is kept in the builder and stops what is pushed after it. What
comes out of a push as a fault is a panic.
-/

namespace PipewireNative.Pod

open Lib Lib.Word Prog

variable {E : Enums}

/-- `Builder`, and `StructBuilder` and `ObjectBuilder`, which hold one. -/
structure Builder where
  data : List UInt8
  pos : ℕ
  error : Option Error
  deriving DecidableEq

abbrev Build := Prog Builder Fault Unit

namespace Builder

def new (data : List UInt8) : Builder := ⟨data, 0, none⟩

def build (b : Builder) : Read (List UInt8) :=
  match b.error with
  | some e => .error (.error e)
  | none => slice b.data 0 b.pos

/-- An operation on the buffer. -/
def onData {α : Type} (p : Write α) : Prog Builder Fault α :=
  p.zoom Builder.data fun data b => { b with data }

def pushPod (t : PodTy E) (v : t.Val) : Build := do
  let b ← .get
  if b.error.isSome then pure ()
  else do
    match ← (onData (within b.pos (t.encode v))).attempt with
    | .ok size => .modify fun b => { b with pos := b.pos + size }
    | .error (.error e) => .modify fun b => { b with error := some e }
    | .error .panic => .fail .panic

/-- What `push_struct` and `push_object` have in common: room for a header, the members, and the
header, of which the size of what is behind its first two words is given. -/
def pushHeaded (n : ℕ) (header : ℕ → ℕ → Write Unit) (members : Build) : Build := do
  let b ← .get
  if b.error.isSome then pure ()
  -- the whole buffer, not what is left of it
  else if b.data.length < n then .modify fun b => { b with error := some .noSpace }
  else do
    .modify fun b => { b with pos := b.pos + n }
    members
    let ret ← .get
    if ret.error.isSome then pure ()
    else onData (header b.pos (ret.pos - b.pos - 8))

def pushStruct : Build → Build :=
  pushHeaded 8 fun oldPos size => do
    write oldPos (word size)
    write (oldPos + 4) (word PodType.struct.toNat)

def pushObject (type : ObjectType) (id : UInt32) : Build → Build :=
  pushHeaded 16 fun oldPos size => do
    write oldPos (word size)
    write (oldPos + 4) (word PodType.object.toNat)
    write (oldPos + 8) (word type.toNat)
    write (oldPos + 12) (word id.toNat)

def pushProperty (k : E.Name) (t : PodTy E) (v : (PodTy.property k t).Val) : Build :=
  pushPod (.property k t) v

/-- `push_none`, `push_bool` and so on. -/
def pushPrim (p : Prim E) (v : p.Val) : Build := pushPod (.prim p) v

/-- `Builder::new(data)`, what is pushed, and `build()`. -/
def run (m : Build) (data : List UInt8) : Read (List UInt8) :=
  match m (new data) with
  | (.ok _, b) => b.build
  | (.error f, _) => .error f

end Builder

/-! ### What is pushed -/

/-- A property: the type of its value, its key, its flags and its value. -/
abbrev Entry (E : Enums) (k : E.Name) := (t : PodTy E) × (PodTy.property k t).Val

/-- Pushes one behind the other. The pushes into a struct come before those behind it; the
properties of an object have keys of one type. -/
inductive Items (E : Enums) where
  | done
  | pod (t : PodTy E) (v : t.Val) (next : Items E)
  | struct (members : Items E) (next : Items E)
  | object (type : ObjectType) (i : E.Name) (id : E.T i) (k : E.Name) (props : List (Entry E k))
      (next : Items E)

def pushEntries {k : E.Name} : List (Entry E k) → Build
  | [] => pure ()
  | ⟨t, v⟩ :: props => do
    Builder.pushProperty k t v
    pushEntries props

namespace Items

def push : Items E → Build
  | done => pure ()
  | pod t v next => do
    Builder.pushPod t v
    next.push
  | struct members next => do
    Builder.pushStruct members.push
    next.push
  | object type _ id _ props next => do
    Builder.pushObject type (E.into id) (pushEntries props)
    next.push

def build (items : Items E) (data : List UInt8) : Read (List UInt8) := Builder.run items.push data

end Items

end PipewireNative.Pod
