import PipewireNative.Pod.Safe

/-!
How a raw pod is shown, and the log lines it is shown in. A line that the level lets through must be
formatted to its end, and the text must hold no NUL: the log makes a C string of it.
-/

namespace PipewireNative.Pod

open Lib Lib.Word Prog

variable {ω : Type}

/-! ### The formatter -/

/-- A formatter that writes to a string. Any error of a pod stands for `std::fmt::Error`. -/
abbrev Fmt (α : Type) := Prog String Fault α

def write (text : String) : Fmt Unit := .modify (· ++ text)

/-- The texts of floating-point numbers. -/
structure FloatTexts where
  float : Float32Bits → String
  double : Float64Bits → String

def PodType.isPrimitive : PodType → Bool
  | .none | .bool | .id | .int | .long | .float | .double | .rectangle | .fraction | .fd => true
  | _ => false

namespace Parser

/-- `ObjectParserRaw::next`. -/
def nextProperty : Pop ω (Option (UInt32 × PropertyFlags × RawPod)) := do
  match ← popPropertyRaw.attempt with
  | .ok item => pure item
  | .error (.error _) => pure none
  | .error .panic => .fail .panic

/-- `for (id, _, pod) in object_parser`, in so many rounds. -/
def forProperties (step : UInt32 → RawPod → Prog ω Fault Unit) : ℕ → Pop ω Unit
  | 0 => .fail .panic
  | n + 1 => do
    match ← nextProperty with
    | none => pure ()
    | some (id, _, pod) => do
      outside (step id pod)
      forProperties step n

end Parser

/-- What a parser of some bytes does for a formatter, with `?`. -/
def parsed {α : Type} (data : List UInt8) (pop : Pop String α) : Fmt Unit := do
  let _ ← pop.zoom (fun text => (Parser.new data, text)) fun s _ => s.2
  pure ()

/-- A member that cannot be written. -/
def memberFault (message : String) : Fault → Fault
  | .error _ => .invalid message
  | .panic => .panic

section Display

variable (x : FloatTexts)

def writePrimitive (type : PodType) (data : List UInt8) : Fmt Unit :=
  match type with
  | .none => write "()"
  | .bool => do
    let val : Bool ← .ofExcept (Prim.decodeBody (E := .plain) .bool data)
    write (if val then "true" else "false")
  | .id => do
    let val : UInt32 ← .ofExcept (Prim.decodeBody (E := .plain) (.id ()) data)
    write s!"Id({val})"
  | .int => do
    let val : Int32 ← .ofExcept (Prim.decodeBody (E := .plain) .int data)
    write (toString val)
  | .long => do
    let val : Int64 ← .ofExcept (Prim.decodeBody (E := .plain) .long data)
    write (toString val)
  | .float => do
    let val : Float32Bits ← .ofExcept (Prim.decodeBody (E := .plain) .float data)
    write (x.float val)
  | .double => do
    let val : Float64Bits ← .ofExcept (Prim.decodeBody (E := .plain) .double data)
    write (x.double val)
  | .rectangle => do
    let rect : Rectangle ← .ofExcept (Prim.decodeBody (E := .plain) .rectangle data)
    write s!"{rect.width}x{rect.height}"
  | .fraction => do
    let frac : Fraction ← .ofExcept (Prim.decodeBody (E := .plain) .fraction data)
    write s!"{frac.num}/{frac.denom}"
  | .fd => write "fd"
  | type => write ("Type " ++ type.name ++ " is not a primitive")

def writeChoice (type : PodType) : Choice (List UInt8) → Fmt Unit
  | .none v => writePrimitive x type v
  | .range default min max => do
    write "default: "
    writePrimitive x type default
    write ", min: "
    writePrimitive x type min
    write ", max: "
    writePrimitive x type max
  | .step default min max step => do
    write "default: "
    writePrimitive x type default
    write ", min: "
    writePrimitive x type min
    write ", max: "
    writePrimitive x type max
    write ", step: "
    writePrimitive x type step
  | .enum default alternatives => do
    write "default: "
    writePrimitive x type default
    write ", [ "
    -- the result of an alternative is an iterator, which is empty after an error
    forEach (fun v => do
      match ← (writePrimitive x type v >>= fun _ => write ", ").attempt with
      | .error .panic => .fail .panic
      | _ => pure ()) alternatives
    write " ]"
  | .flags default flags => do
    write "default: "
    writePrimitive x type default
    write "f, lags: "
    writePrimitive x type flags

/-- `Display::fmt`, with what shows the pods inside. -/
def fmtWith (inner : RawPod → Fmt Unit) (p : RawPod) : Fmt Unit :=
  if p.type.isPrimitive then do
    let body ← .ofExcept (slice p.data 8 p.size)
    writePrimitive x p.type body
  else match p.type with
  | .string => do
    let r ← .ofExcept (decodeString p.data)
    write r.1
  | .bytes => do
    let r ← .ofExcept (decodeBytes p.data)
    write (toString r.1)
  | .bitmap => write "bitmap not implemented"
  | .array => do
    write "[ "
    parsed p.data (Parser.popArrayRaw fun type data =>
      (writePrimitive x type data >>= fun _ => write ", ").mapErr
        (memberFault "Could not write array member"))
    write " ]"
  | .struct => do
    write "\x7b "
    parsed p.data (Parser.popStruct (Parser.whileAvailable do
      let pod ← Parser.popRawPod
      Parser.outside ((inner pod >>= fun _ => write ", ").mapErr
        (memberFault "Could not write struct member"))))
    write " \x7d"
  | .object => do
    write "\x7b "
    parsed p.data (Parser.popObjectRaw (E := .plain) () fun _ _ => do
      let q ← Parser.here
      Parser.forProperties (fun id pod => Prog.mapErr (memberFault "Could not write object member") do
        write s!"{id}: "
        inner pod
        write ", ") (q.available + 1))
    write " \x7d"
  | .sequence => write "sequence"
  | .pointer => write "pointer"
  | .choice => do
    write "\x7b "
    parsed p.data (Parser.popChoiceRaw fun type choice =>
      (writeChoice x type choice).mapErr (memberFault "Could not write choice"))
    write " \x7d"
  | .pod => write "pod"
  -- unreachable!
  | _ => .fail .panic

/-- `Display::fmt`, where the stack has room for so many pods inside one another. -/
def RawPod.fmt : ℕ → RawPod → Fmt Unit
  | 0, _ => .fail .panic
  | stack + 1, p => fmtWith x (RawPod.fmt stack) p

end Display

/-! ### The log -/

inductive LogLevel where
  | none
  | error
  | warn
  | info
  | debug
  | trace
  deriving DecidableEq, Repr

/-- The log as a topic has it: its level, the level of the topic where that has one of its own, how
many calls of `fmt` inside one another the stack has room for, and the texts of floating-point
numbers. -/
structure Log where
  level : LogLevel
  topic : Option LogLevel
  stack : ℕ
  floats : FloatTexts

namespace Log

def off : Log := ⟨.none, none, 0, ⟨fun _ => "", fun _ => ""⟩⟩

variable (log : Log)

/-- `logt` returns: the level keeps the line back, or it is formatted and becomes a C string. -/
def logt (level : LogLevel) (line : Fmt Unit) : Bool :=
  (log.topic.getD log.level).ctorIdx < level.ctorIdx ||
    match line "" with
    | (.ok (), text) => !text.contains (Char.ofNat 0)
    | (.error _, _) => false

/-- `trace!("Profiler parsing .. {data}: {parsed:?}")` returns. What was parsed is shown by `Debug`,
which escapes a NUL. -/
def shows (line : String × RawPod) : Bool :=
  log.logt .trace do
    write ("Profiler parsing " ++ line.1 ++ " ")
    line.2.fmt log.floats log.stack
    write ": "

/-- Below `Trace` nothing is shown. -/
lemma shows_of_level (h : log.topic.getD log.level ≠ .trace) (line : String × RawPod) :
    log.shows line = true := by
  unfold shows logt
  cases hlevel : log.topic.getD log.level <;> first | rfl | exact absurd hlevel h

end Log

/-! ### Programs that log -/

section Asking

variable {ι α β σ : Type} {E : Enums} {q : Parser}

/-- What a program comes to at `q` depends on `ok` in one way: there are some things that it asks
`ok` for, and where one of them is refused it panics. -/
def Asking (q : Parser) (p : (ι → Bool) → Pop ω α) : Prop :=
  ∃ (asked : List ι) (r : Except Fault α) (q' : Parser), ∀ ok w,
    ((∀ i ∈ asked, ok i = true) → (p ok (q, w)).1 = r ∧ (p ok (q, w)).2.1 = q') ∧
      ((∃ i ∈ asked, ok i = false) → (p ok (q, w)).1 = .error .panic)

namespace Asking

lemma plain {p : Pop ω α} (r : Except Fault α) (q' : Parser)
    (h : ∀ w, (p (q, w)).1 = r ∧ (p (q, w)).2.1 = q') :
    Asking q fun (_ : ι → Bool) => p :=
  ⟨[], r, q', fun _ w => ⟨fun _ => h w, fun ⟨_, hi, _⟩ => by simp at hi⟩⟩

lemma ofExcept (r : Read α) : Asking q fun (_ : ι → Bool) => (.ofExcept r : Pop ω α) :=
  plain r q fun _ => ⟨rfl, rfl⟩

lemma bind {p : (ι → Bool) → Pop ω α} {f : (ι → Bool) → α → Pop ω β} (hp : Asking q p)
    (hf : ∀ a q', Asking q' fun ok => f ok a) : Asking q fun ok => p ok >>= f ok := by
  obtain ⟨asked, r, q₁, hp⟩ := hp
  have run : ∀ ok w, (∀ i ∈ asked, ok i = true) → ∃ w₁, p ok (q, w) = (r, q₁, w₁) :=
    fun ok w h => ⟨(p ok (q, w)).2.2, Prod.ext ((hp ok w).1 h).1 (Prod.ext ((hp ok w).1 h).2 rfl)⟩
  have stop : ∀ ok w, (∃ i ∈ asked, ok i = false) → ((p ok >>= f ok) (q, w)).1 = .error .panic :=
    fun ok w h => by
      rw [bind_error (Prod.ext ((hp ok w).2 h) rfl)]
  cases r with
  | error e =>
    refine ⟨asked, .error e, q₁, fun ok w => ⟨fun h => ?_, stop ok w⟩⟩
    obtain ⟨w₁, hrun⟩ := run ok w h
    beta_reduce
    rw [bind_error hrun]
    exact ⟨rfl, rfl⟩
  | ok a =>
    obtain ⟨asked', r, q₂, hf⟩ := hf a q₁
    refine ⟨asked ++ asked', r, q₂, fun ok w => ⟨fun h => ?_, fun ⟨i, hi, hno⟩ => ?_⟩⟩
    · obtain ⟨w₁, hrun⟩ := run ok w fun i hi => h i (List.mem_append_left _ hi)
      beta_reduce
      rw [bind_ok hrun]
      exact (hf ok w₁).1 fun i hi => h i (List.mem_append_right _ hi)
    · by_cases hall : ∀ i ∈ asked, ok i = true
      · obtain ⟨w₁, hrun⟩ := run ok w hall
        beta_reduce
        rw [bind_ok hrun]
        refine (hf ok w₁).2 ⟨i, (List.mem_append.1 hi).resolve_left fun hi => ?_, hno⟩
        rw [hall i hi] at hno
        cases hno
      · simp only [not_forall, Bool.not_eq_true] at hall
        obtain ⟨j, hj, hno⟩ := hall
        exact stop ok w ⟨j, hj, hno⟩

lemma here {f : (ι → Bool) → Parser → Pop ω β} (hf : Asking q fun ok => f ok q) :
    Asking q fun ok => Parser.here >>= f ok := hf

lemma nested {p : (ι → Bool) → Pop ω α} {body : List UInt8} (hp : Asking (.new body) p) :
    Asking q fun ok => Parser.nested body (p ok) := by
  obtain ⟨asked, r, _, hp⟩ := hp
  exact ⟨asked, r, q, fun ok w => ⟨fun h => ⟨((hp ok w).1 h).1, rfl⟩, (hp ok w).2⟩⟩

lemma advance (n : ℕ) : Asking q fun (_ : ι → Bool) => (Parser.advance n : Pop ω Unit) :=
  plain (.ok ()) ⟨q.data, q.pos + n⟩ fun _ => ⟨rfl, rfl⟩

lemma popProperty (k : E.Name) : Asking q fun (_ : ι → Bool) => (Parser.popProperty k : Pop ω _) := by
  unfold Parser.popProperty Parser.propertyTail
  refine here ?_
  split
  · exact ofExcept (.ok none)
  · refine (ofExcept _).bind fun _ q => (ofExcept _).bind fun rawKey q => ?_
    split
    · exact ofExcept (.error _)
    · refine here ((ofExcept _).bind fun rawFlags q => ?_)
      split
      · exact ofExcept (.error _)
      · exact (advance 8).bind fun _ q => here ((ofExcept _).bind fun _ q =>
          (ofExcept _).bind fun data q => (advance _).bind fun _ q => ofExcept (.ok _))

lemma popStruct {p : (ι → Bool) → Pop ω α} (hp : ∀ q, Asking q p) :
    Asking q fun ok => Parser.popStruct (p ok) := by
  unfold Parser.popStruct
  exact here <| (ofExcept _).bind fun _ q => (ofExcept _).bind fun size q =>
    (ofExcept _).bind fun total q => (ofExcept _).bind fun _ q => (ofExcept _).bind fun t q =>
    (ofExcept _).bind fun _ q => (ofExcept _).bind fun body q =>
    (nested (hp _)).bind fun ret q => (advance _).bind fun _ q => ofExcept (.ok _)

lemma popObject (type : ObjectType) (i : E.Name) {p : (ι → Bool) → E.T i → Pop ω α}
    (hp : ∀ id q, Asking q fun ok => p ok id) :
    Asking q fun ok => Parser.popObject type i (p ok) := by
  unfold Parser.popObject Parser.objectBody
  exact here <| (ofExcept _).bind fun h q => (ofExcept _).bind fun _ q =>
    (advance _).bind fun _ q => here <| (ofExcept _).bind fun body q =>
    (nested (hp _ _)).bind fun ret q => (advance _).bind fun _ q => ofExcept (.ok _)

lemma rounds {p : (ι → Bool) → Pop ω α} (hp : ∀ q, Asking q p) (n : ℕ) :
    Asking q fun ok => Parser.rounds (p ok) n := by
  induction n generalizing q with
  | zero => exact ofExcept (.error .panic)
  | succ n ih =>
    unfold Parser.rounds
    refine here ?_
    split
    · exact ofExcept (.ok [])
    · exact (hp q).bind fun a q => ih.bind fun rest q => ofExcept (.ok (a :: rest))

lemma whileAvailable {p : (ι → Bool) → Pop ω α} (hp : ∀ q, Asking q p) :
    Asking q fun ok => Parser.whileAvailable (p ok) := here (rounds hp _)

lemma propertyRounds {k : E.Name} {step : (ι → Bool) → σ → E.T k → RawPod → Read σ}
    (hstep : ∀ acc key data q, Asking q fun ok => (.ofExcept (step ok acc key data) : Pop ω σ))
    (n : ℕ) (acc : σ) : Asking q fun ok => (Parser.propertyRounds k (step ok) n acc : Pop ω σ) := by
  induction n generalizing q acc with
  | zero => exact ofExcept (.error .panic)
  | succ n ih =>
    unfold Parser.propertyRounds
    refine (popProperty k).bind fun property q => ?_
    cases property with
    | none => exact ofExcept (.ok acc)
    | some property => exact (hstep acc property.1 property.2.2 q).bind fun acc q => ih acc

lemma whileProperty {k : E.Name} {step : (ι → Bool) → σ → E.T k → RawPod → Read σ}
    (hstep : ∀ acc key data q, Asking q fun ok => (.ofExcept (step ok acc key data) : Pop ω σ))
    (acc : σ) : Asking q fun ok => (Parser.whileProperty k (step ok) acc : Pop ω σ) :=
  here (propertyRounds hstep _ acc)

end Asking

end Asking

end PipewireNative.Pod
