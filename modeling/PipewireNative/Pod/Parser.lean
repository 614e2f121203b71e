import PipewireNative.Pod.Codec

/-!
The parser: a place in a string of bytes, and the pops that move it. A struct or an object is read
by a closure that gets a parser of its own, for the bytes of the body; `ω` is what the closures
have captured, which they may change. What a closure does to it stays, also after an error.
-/

namespace PipewireNative.Pod

open Lib Lib.Word Prog

variable {E : Enums} {ω α : Type}

/-- `Parser`, `ObjectParser` and `ObjectParserRaw`. -/
structure Parser where
  data : List UInt8
  pos : ℕ

namespace Parser

def new (data : List UInt8) : Parser := ⟨data, 0⟩

def available (q : Parser) : ℕ := q.data.length - q.pos

/-- `&self.data[self.pos..]`. -/
def left (q : Parser) : Read (List UInt8) := slice q.data q.pos q.data.length

end Parser

/-- What is done with a parser. -/
abbrev Pop (ω α : Type) := Prog (Parser × ω) Fault α

namespace Parser

def here : Pop ω Parser := .gets Prod.fst

/-- `self.pos += n`. -/
def advance (n : ℕ) : Pop ω Unit := .modify fun s => ({ s.1 with pos := s.1.pos + n }, s.2)

lemma here_bind {f : Parser → Pop ω α} {q : Parser} {w : ω} :
    (here >>= f) (q, w) = f q (q, w) := rfl

lemma advance_bind {n : ℕ} {f : Unit → Pop ω α} {q : Parser} {w : ω} :
    (advance n >>= f) (q, w) = f () (⟨q.data, q.pos + n⟩, w) := rfl

/-- A closure with a parser of its own. -/
def nested (body : List UInt8) (parse : Pop ω α) : Pop ω α :=
  parse.zoom (fun s => (new body, s.2)) fun r s => (s.1, r.2)

/-- A closure that gets no parser. -/
def outside (f : Prog ω Fault α) : Pop ω α := f.zoom Prod.snd fun w s => (s.1, w)

/-- `pop_pod`, of a type with this `decode`. -/
def popWith (decode : List UInt8 → Read (α × ℕ)) : Pop ω α := do
  let q ← here
  let rest ← .ofExcept q.left
  let r ← .ofExcept (decode rest)
  .failIf (q.available < r.2) (.invalid "Decoded pod exceeds available data")
  .failIf (usizeBound ≤ q.pos + r.2) (.invalid "Parser position overflow")
  advance r.2
  pure r.1

def popPod (t : PodTy E) : Pop ω t.Val := popWith t.decode

/-- `pop_none`, `pop_bool` and so on. -/
def popPrim (p : Prim E) : Pop ω p.Val := popPod (.prim p)

/-- `chunks_exact`, each given to a closure. -/
def eachChunk (n : ℕ) (item : List UInt8 → Prog ω Fault Unit) : ℕ → List UInt8 → Prog ω Fault Unit
  | 0, _ => pure ()
  | count + 1, data => do
    item (data.take n)
    eachChunk n item count (data.drop n)

def popArrayRaw (parseItem : PodType → List UInt8 → Prog ω Fault Unit) : Pop ω ℕ := do
  let q ← here
  .failIf (q.available < 16) (.invalid "Not enough data for array")
  let size ← .ofExcept (u32At q.data q.pos)
  .failIf (size.toNat < 8) (.invalid "Array body is smaller than its header")
  let total ← .ofExcept (podTotalSize size.toNat)
  .failIf (q.available < total) (.invalid "Not enough data for struct")
  let t ← .ofExcept (u32At q.data (q.pos + 4))
  .failIf (t.toNat ≠ PodType.array.toNat) (.invalid s!"Type {t} is not array")
  let childSize ← .ofExcept (u32At q.data (q.pos + 8))
  .failIf (childSize = 0) (.invalid "Array child size is zero")
  let childType ← .ofExcept (u32At q.data (q.pos + 12))
  match PodType.tryFrom childType.toNat with
  | none => .fail (.invalid "Could noy parse child_type")
  | some type => do
    let elements := size.toNat - 8
    .failIf (elements % childSize.toNat ≠ 0) (.invalid "Array body has a partial child")
    let body ← .ofExcept (slice q.data (q.pos + 16) (q.pos + 16 + elements))
    outside (eachChunk childSize.toNat (parseItem type) (elements / childSize.toNat) body)
    advance total
    pure total

/-- The bytes of one of the children of a choice. -/
def rawChild (data : List UInt8) (size i : ℕ) : Read (List UInt8) :=
  slice data (24 + i * size) (24 + i * size + size)

/-- So many of them, from one on. -/
def rawChildren (data : List UInt8) (size : ℕ) : ℕ → ℕ → Read (List (List UInt8))
  | _, 0 => pure []
  | i, n + 1 => do
    let v ← rawChild data size i
    let vs ← rawChildren data size (i + 1) n
    pure (v :: vs)

def popChoiceRaw (parseChoice : PodType → Choice (List UInt8) → Prog ω Fault Unit) : Pop ω ℕ := do
  let q ← here
  let data ← .ofExcept q.left
  .failIf (data.length < 24) (.invalid "Not enough data for choice")
  let size ← .ofExcept (u32At data 0)
  .failIf (size.toNat < 16) (.invalid "Choice body is smaller than its header")
  let total ← .ofExcept (podTotalSize size.toNat)
  .failIf (data.length < total) (.invalid "Not enough data for choice")
  let t ← .ofExcept (u32At data 4)
  .failIf (t.toNat ≠ PodType.choice.toNat) (.invalid s!"Type {t} is not choice")
  let kind ← .ofExcept (u32At data 8)
  let childSize ← .ofExcept (u32At data 16)
  .failIf (childSize = 0) (.invalid "Choice child size is zero")
  let childType ← .ofExcept (u32At data 20)
  match PodType.tryFrom childType.toNat with
  | none => .fail (.invalid "Invalid child type in choice")
  | some type => do
    let children := size.toNat - 16
    .failIf (children % childSize.toNat ≠ 0) (.invalid "Choice body has a partial child")
    let choice ← .ofExcept (Choice.ofChildren kind.toNat (children / childSize.toNat)
      (rawChild data childSize.toNat) (rawChildren data childSize.toNat 1))
    outside (parseChoice type choice)
    advance total
    pure total

def popStruct (parseStruct : Pop ω α) : Pop ω (α × ℕ) := do
  let q ← here
  .failIf (q.available < 8) (.invalid "Not enough data for struct")
  let size ← .ofExcept (u32At q.data q.pos)
  let total ← .ofExcept (podTotalSize size.toNat)
  .failIf (q.available < total) (.invalid "Not enough data for struct")
  let t ← .ofExcept (u32At q.data (q.pos + 4))
  .failIf (t.toNat ≠ PodType.struct.toNat) (.invalid s!"Type {t} is not struct")
  let body ← .ofExcept (slice q.data (q.pos + 8) (q.pos + 8 + size.toNat))
  let ret ← nested body parseStruct
  advance total
  pure (ret, total)

/-- The header of an object: its size and its total size, its type and its id. -/
def objectHeader (i : E.Name) (q : Parser) : Read ((ℕ × ℕ) × ObjectType × E.T i) := do
  rejectIf (q.available < 16) (.invalid "Not enough data for object")
  let size ← u32At q.data q.pos
  rejectIf (size.toNat < 8) (.invalid "Object body is smaller than its header")
  let total ← podTotalSize size.toNat
  rejectIf (q.available < total) (.invalid "Not enough data for object")
  let t ← u32At q.data (q.pos + 4)
  rejectIf (t.toNat ≠ PodType.object.toNat) (.invalid s!"Type {t} is not object")
  let rawType ← u32At q.data (q.pos + 8)
  match ObjectType.tryFrom rawType.toNat with
  | none => .error (.invalid "Could not decode object type: ()")
  | some objectType => do
    let rawId ← u32At q.data (q.pos + 12)
    match E.tryFrom rawId with
    | none => .error (.invalid "Could not decode id")
    | some id => pure ((size.toNat, total), objectType, id)

/-- What `pop_object` and `pop_object_raw` do behind the header. -/
def objectBody (size total : ℕ) (parseObject : Pop ω α) : Pop ω (α × ℕ) := do
  advance 16
  let q ← here
  let body ← .ofExcept (slice q.data q.pos (q.pos + size - 8))
  let ret ← nested body parseObject
  advance (size - 8 + pad8 size)
  pure (ret, total)

/-- Objects of a type, `K::TYPE`. -/
def popObject (type : ObjectType) (i : E.Name) (parseObject : E.T i → Pop ω α) :
    Pop ω (α × ℕ) := do
  let q ← here
  let h ← .ofExcept (objectHeader i q)
  .failIf (h.2.1 ≠ type) (.invalid ("Unexpected object type " ++ h.2.1.name))
  objectBody h.1.1 h.1.2 (parseObject h.2.2)

def popObjectRaw (i : E.Name) (parseObject : ObjectType → E.T i → Pop ω α) : Pop ω (α × ℕ) := do
  let q ← here
  let h ← .ofExcept (objectHeader i q)
  objectBody h.1.1 h.1.2 (parseObject h.2.1 h.2.2)

def popRawPod : Pop ω RawPod := do
  let q ← here
  let rest ← .ofExcept q.left
  let res ← .ofExcept (RawPod.wrap rest)
  advance res.size
  pure res

/-- The flags and the value of a property whose key is read. -/
def propertyTail {κ : Type} (key : κ) : Pop ω (Option (κ × PropertyFlags × RawPod)) := do
  let q ← here
  let rawFlags ← .ofExcept (u32At q.data (q.pos + 4))
  match PropertyFlags.fromBits rawFlags with
  | none => .fail (.invalid "Could not decode flags")
  | some flags => do
    advance 8
    let q ← here
    let rest ← .ofExcept q.left
    let data ← .ofExcept (RawPod.wrap rest)
    advance data.size
    pure (some (key, flags, data))

/-- `ObjectParser::pop_property`. -/
def popProperty (k : E.Name) : Pop ω (Option (E.T k × PropertyFlags × RawPod)) := do
  let q ← here
  if q.available = 0 then pure none
  else do
    .failIf (q.available < 16) (.invalid "Not enough data for object property")
    let rawKey ← .ofExcept (u32At q.data q.pos)
    match E.tryFrom rawKey with
    | none => .fail (.invalid "Could not decode key")
    | some key => propertyTail key

/-- `ObjectParserRaw::pop_property`. -/
def popPropertyRaw : Pop ω (Option (UInt32 × PropertyFlags × RawPod)) := do
  let q ← here
  if q.available = 0 then pure none
  else do
    .failIf (q.available < 16) (.invalid "Not enough data for object property")
    let key ← .ofExcept (u32At q.data q.pos)
    propertyTail key

end Parser

end PipewireNative.Pod
