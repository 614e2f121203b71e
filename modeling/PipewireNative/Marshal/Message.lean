import PipewireNative.Marshal.Types
import PipewireNative.Pod.Safe

/-!
How a message is decoded: the structs of fields that a derived decoder reads, the lists that begin
with their length, the choice by the opcode, and the footer behind the body.
-/

namespace PipewireNative.Marshal

open Lib Prog Wire
open Pod hiding Fault
open Frame (FrameFds OwnedFd)

/-! ### Fields -/

/-- Whether a vector of so many elements, of so many bytes each, can be reserved. -/
abbrev Room := ℕ → Int32 → Bool

/-- `Vec::with_capacity(n as usize)`, with a heap of so many bytes: more than `isize::MAX` bytes
panic, and more than there are abort. -/
def reserves (heap : ℕ) : Room := fun size n =>
  let bytes := (n.toInt % 2 ^ 64).toNat * size
  decide (bytes < Frame.isizeBound) && decide (bytes ≤ heap)

/-- Room for every vector, where there are none. -/
def unlimited : Room := fun _ _ => true

/-- A field of a struct: a pod, or a `PairList` whose elements have so many bytes in memory. -/
inductive Field where
  | pod (t : PodTy enums)
  | pairs (k v : PodTy enums) (size : ℕ)

namespace Field

def Val : Field → Type
  | .pod t => t.Val
  | .pairs k v _ => List (k.Val × v.Val)

abbrev int : Field := .pod (.prim .int)
abbrev long : Field := .pod (.prim .long)
abbrev bool : Field := .pod (.prim .bool)
abbrev float : Field := .pod (.prim .float)
abbrev double : Field := .pod (.prim .double)
abbrev fraction : Field := .pod (.prim .fraction)
abbrev fd : Field := .pod (.prim .fd)
abbrev id (n : EnumName) : Field := .pod (.prim (.id (E := enums) n))
abbrev string : Field := .pod .string
abbrev optionString : Field := .pod (.option .string)
abbrev raw : Field := .pod .raw
/-- `PairList<String, String>`. -/
abbrev props : Field := .pairs .string .string 48
/-- `PairList<i32, i32>`. -/
abbrev permissions : Field := .pairs (.prim .int) (.prim .int) 8
/-- `PairList<SpaId<ParamType>, i32>`. -/
abbrev paramInfo : Field := .pairs (.prim (.id (E := enums) .paramType)) (.prim .int) 8

end Field

def popPairs (k v : PodTy enums) : ℕ → Parse (List (k.Val × v.Val))
  | 0 => pure []
  | n + 1 => do
    let key ← Parser.popPod k
    let value ← Parser.popPod v
    let rest ← popPairs k v n
    pure ((key, value) :: rest)

/-- The pairs behind their number. -/
def popPairList (room : Room) (k v : PodTy enums) (size : ℕ) : Parse (List (k.Val × v.Val)) := do
  let nItems ← Parser.popPod (E := enums) (.prim .int)
  .failIf (room size nItems = false) .panic
  popPairs k v (Int32.toInt nItems).toNat

/-- The bytes of a struct, read by a closure from their beginning. -/
def parseStruct {α : Type} (parse : Parse α) (data : List UInt8) : Read (α × ℕ) :=
  (Parser.popStruct parse (.new data, ())).1

/-- `Pod::decode`. -/
def Field.decode (room : Room) : (f : Field) → List UInt8 → Read (f.Val × ℕ)
  | .pod t, data => t.decode data
  | .pairs k v size, data => parseStruct (popPairList room k v size) data

def Fields : List Field → Type
  | [] => Unit
  | f :: fs => f.Val × Fields fs

def popFields (room : Room) : (fs : List Field) → Parse (Fields fs)
  | [] => pure ()
  | f :: fs => do
    let value ← Parser.popWith (f.decode room)
    let rest ← popFields room fs
    pure (value, rest)

/-- The `decode` that is derived for a struct of these fields. -/
def decodeStruct (room : Room) (fs : List Field) (data : List UInt8) : Read (Fields fs × ℕ) :=
  parseStruct (popFields room fs) data

/-! ### Messages -/

/-- A variant of an enumeration of events: its struct. -/
structure Variant (T : Type) where
  fields : List Field
  make : Fields fields → T

/-- The text by which an opcode that has no variant is told from other errors. -/
def unknownOpcode (opcode : UInt8) : Pod.Error := .invalid s!"Could not decode opcode {opcode}"

/-- The `decode` that is derived for an enumeration; its variants are numbered from 0. -/
def decodeVariant {T : Type} (room : Room) (variants : List (Variant T)) (opcode : UInt8)
    (data : List UInt8) : Read (T × ℕ) :=
  match variants[opcode.toNat]? with
  | some variant => do
    let r ← decodeStruct room variant.fields data
    pure (variant.make r.1, r.2)
  | none => .error (.error (unknownOpcode opcode))

structure CoreFooter where
  payloads : List Int64

/-- `pop_id::<u32>()?.0`. -/
def popNumber : Parse UInt32 := Parser.popPod (E := enums) (.prim (.id .number))

def popFooterPayload : Parse Int64 := do
  let opcode ← popNumber
  if opcode = 0 then do
    let generation ← Parser.popWith (decodeStruct unlimited [.long])
    pure generation.1
  else .fail (.invalid s!"Invalid footer opcode {opcode}")

def CoreFooter.decode (data : List UInt8) : Read (CoreFooter × ℕ) := do
  let r ← parseStruct (Parser.whileAvailable popFooterPayload) data
  pure (⟨r.1⟩, r.2)

def bodyError (opcode : UInt8) : Pod.Fault → Fault
  | .error e => .io (if e = unknownOpcode opcode then .unsupported else .invalidData)
      ("could not decode message body: " ++ debugError e)
  | .panic => .panic

def footerError : Pod.Fault → Fault
  | .error e => .io .invalidData ("could not decode message footer: " ++ debugError e)
  | .panic => .panic

/-- The footer behind the body, and its length. -/
def readFooter (payload : List UInt8) (bodySize : ℕ) : Result (Option CoreFooter × ℕ) :=
  if bodySize < payload.length then do
    let rest ← (slice payload bodySize payload.length : Read _).mapError footerError
    let r ← (CoreFooter.decode rest).mapError footerError
    pure (some r.1, r.2)
  else pure (none, 0)

/-- What `InboundMessage::decode` reads. -/
def readMessage {T : Type} (room : Room) (variants : List (Variant T)) (opcode : UInt8)
    (payload : List UInt8) : Result (T × Option CoreFooter) := do
  let body ← (decodeVariant room variants opcode payload).mapError (bodyError opcode)
  let footer ← readFooter payload body.2
  rejectIf (body.2 + footer.2 ≠ payload.length) (.io .invalidData
    s!"message payload length {payload.length} differs from body {body.2} plus footer {footer.2}")
  pure (body.1, footer.1)

/-! ### What a message changes -/

/-- What is there while a message is handled: the descriptors of its frame, the generation that was
received last, and what was made known. -/
structure Inbox where
  fds : FrameFds
  generation : Int64
  notices : List Notice

/-- `update_generation`: the last payload stays. -/
def updateGeneration (footer : Option CoreFooter) (generation : Int64) : Int64 :=
  match footer with
  | some footer => footer.payloads.foldl (fun _ g => g) generation
  | none => generation

abbrev Handle (α : Type) := Prog Inbox Fault α

def handleFooter (footer : Option CoreFooter) : Handle Unit :=
  .modify fun s => { s with generation := updateGeneration footer s.generation }

def notify (notice : Notice) : Handle Unit :=
  .modify fun s => { s with notices := s.notices ++ [notice] }

/-- `InboundMessage::decode`. -/
def decode {T : Type} (room : Room) (variants : List (Variant T)) (opcode : UInt8)
    (payload : List UInt8) : Handle T := do
  let r ← .ofExcept (readMessage room variants opcode payload)
  handleFooter r.2
  pure r.1

/-- A program over the descriptors of the frame. -/
def onFds {α : Type} (p : Prog FrameFds Fault α) : Handle α :=
  p.zoom (fun s => s.fds) fun fds s => { s with fds }

/-- `InboundMessage::take_fd`. -/
def takeFrameFd (index : UInt32) : Handle OwnedFd := onFds (takeFd index)

def locateError : Pod.Fault → Fault
  | .error e => .io .invalidData ("could not locate ClientNode message body: " ++ debugError e)
  | .panic => .panic

/-- `InboundMessage::decode_client_node_event`. -/
def decodeClientNodeEvent (opcode : UInt8) (payload : List UInt8) : Handle Event := do
  let pod ← .ofExcept ((RawPod.wrap payload).mapError locateError)
  let body ← .ofExcept ((slice payload 0 pod.size : Read _).mapError locateError)
  let event ← onFds (decodeEvent opcode body .standard)
  let footer ← .ofExcept (readFooter payload pod.size)
  .failIf (pod.size + footer.2 ≠ payload.length)
    (.io .invalidData "ClientNode payload has trailing bytes after its footer")
  handleFooter footer.1
  pure event

end PipewireNative.Marshal
