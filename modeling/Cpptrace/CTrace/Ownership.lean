import Cpptrace.CTrace.Resolve
import Cpptrace.Library.Machine
import Cpptrace.Library.Separation

/-! Who owns what the C interface allocates.

A program in C keeps traces and strings in variables, and hands these to the functions
of the interface. The arrays and the strings behind the pointers are blocks of a heap.
-/

set_option autoImplicit false

namespace Cpptrace.CTrace

open Cpptrace.Library

abbrev Pointer := Option Nat

structure ObjectFrameStruct where
  rawAddress : FramePtr
  objAddress : FramePtr
  objPath : Pointer

structure StacktraceFrameStruct where
  rawAddress : FramePtr
  objectAddress : FramePtr
  line : UInt32
  column : UInt32
  filename : Pointer
  symbol : Pointer
  isInline : Int8

/-- What `new` gives: the characters of a string, before the null at its end, or the frames of a trace. -/
inductive Block where
  | characters (text : Text)
  | rawFrames (frames : List FramePtr)
  | objectFrames (frames : List ObjectFrameStruct)
  | stacktraceFrames (frames : List StacktraceFrameStruct)

inductive Kind where
  | raw
  | object
  | stack
  | string
  deriving DecidableEq, Repr

/-- A variable of C: `frames` and `count` of a trace, or `data` of a string, where nothing is counted. -/
structure Variable where
  pointer : Pointer
  count : Nat

def Variable.null : Variable := ⟨none, 0⟩

inductive Content where
  | raw (frames : List FramePtr)
  | object (frames : List CtraceObjectFrame)
  | stack (frames : List CtraceStacktraceFrame)
  | text (text : Text)

abbrev Slot (count : Nat) := Kind × Fin count

structure Program (count : Nat) where
  memory : Memory Block
  slots : Slot count → Variable

inductive Call (count : Nat) where
  | generateRawTrace (target : Fin count) (captured : Except Exception (List FramePtr))
  | generateObjectTrace (target : Fin count) (captured : Except Exception (List FramePtr))
  | generateTrace (target : Fin count) (captured : Except Exception (List FramePtr))
  | resolveRawTrace (target source : Fin count)
  | resolveRawTraceToObjectTrace (target source : Fin count)
  | resolveObjectTrace (target source : Fin count)
  | stacktraceToString (target source : Fin count) (useColor : Bool)
  | generateOwningString (target : Fin count) (text : Text)
  | demangle (target : Fin count) (mangled : Option Text)
  | getObjectInfo (target : Fin count) (address : FramePtr)
  | free (slot : Slot count)
  | read (slot : Slot count)

namespace Ownership

abbrev Using := Memory.Using Block

section Strings

def cString (text : Text) : Text := text.takeWhile (· ≠ Char.ofNat 0)

def generateOwningString (text : Text) : Using Pointer := do return some (← Memory.allocate (.characters text))

/-- `delete[]`, which does nothing to null. -/
def deleteArray : Pointer → Using Unit
  | none => return ()
  | some pointer => Memory.free pointer

def freeOwningString (string : Pointer) : Using Unit := deleteArray string

def readText : Pointer → Using Text
  | none => throw (.misuse .usesDead)
  | some pointer => do
      match ← Memory.read pointer with
      | .characters text => return cString text
      | _ => throw (.misuse .usesDead)

end Strings

section Arrays

variable {Frame Struct : Type}

/-- `std::transform` into the array: the frames are converted and written one after the other. -/
def fill (wrap : List Struct → Block) (convert : Frame → Using Struct) (array : Nat) :
    List Frame → List Struct → Using Unit
  | [], _ => return ()
  | frame :: rest, written => do
      let converted ← convert frame
      Memory.write array (wrap (written ++ [converted]))
      fill wrap convert array rest (written ++ [converted])

def cConvertWith (wrap : List Struct → Block) (convert : Frame → Using Struct) (trace : List Frame) :
    Using Variable := do
  let array ← Memory.allocate (wrap [])
  fill wrap convert array trace []
  return ⟨some array, trace.length⟩

def convertObjectFrame (frame : ObjectFrame) : Using ObjectFrameStruct := do
  return ⟨frame.rawAddress, frame.objectAddress, ← generateOwningString frame.objectPath⟩

/-- `convert_stacktrace_frame`, whose value but for the strings is that of the frame of C. -/
def convertFrame (environment : Environment) (frame : StacktraceFrame) : Using StacktraceFrameStruct := do
  let value := cConvertFrame environment frame
  let filename ← generateOwningString frame.filename
  let symbol ← generateOwningString (environment.demangle frame.symbol)
  return ⟨value.rawAddress, value.objectAddress, value.line, value.column, filename, symbol, value.isInline⟩

def cConvertObjects (trace : List ObjectFrame) : Using Variable := cConvertWith .objectFrames convertObjectFrame trace

def cConvertFrames (environment : Environment) (trace : List StacktraceFrame) : Using Variable :=
  cConvertWith .stacktraceFrames (convertFrame environment) trace

def generateRaw (frames : List FramePtr) : Using Variable := do
  return ⟨some (← Memory.allocate (.rawFrames frames)), frames.length⟩

end Arrays

section Freeing

def freeRawTrace (trace : Variable) : Using Variable := do
  deleteArray trace.pointer
  return .null

def freeFrames {Struct : Type} (freeFrame : Struct → Using Unit) : List Struct → Using Unit
  | [] => return ()
  | frame :: rest => do
      freeFrame frame
      freeFrames freeFrame rest

def freeObjectFrame (frame : ObjectFrameStruct) : Using Unit := freeOwningString frame.objPath

def freeStacktraceFrame (frame : StacktraceFrameStruct) : Using Unit := do
  freeOwningString frame.filename
  freeOwningString frame.symbol

def readObjectFrames (array : Nat) : Using (List ObjectFrameStruct) := do
  match ← Memory.read array with
  | .objectFrames frames => return frames
  | _ => throw (.misuse .usesDead)

def readStacktraceFrames (array : Nat) : Using (List StacktraceFrameStruct) := do
  match ← Memory.read array with
  | .stacktraceFrames frames => return frames
  | _ => throw (.misuse .usesDead)

def freeObjectTrace (trace : Variable) : Using Variable :=
  match trace.pointer with
  | none => return trace
  | some array => do
      let frames ← readObjectFrames array
      freeFrames freeObjectFrame (frames.take trace.count)
      Memory.free array
      return .null

def freeStacktrace (trace : Variable) : Using Variable :=
  match trace.pointer with
  | none => return trace
  | some array => do
      let frames ← readStacktraceFrames array
      freeFrames freeStacktraceFrame (frames.take trace.count)
      Memory.free array
      return .null

def freeString (string : Variable) : Using Variable := do
  freeOwningString string.pointer
  return .null

def free : Kind → Variable → Using Variable
  | .raw => freeRawTrace
  | .object => freeObjectTrace
  | .stack => freeStacktrace
  | .string => freeString

end Freeing

section Reading

def readRawFrames (array : Nat) : Using (List FramePtr) := do
  match ← Memory.read array with
  | .rawFrames frames => return frames
  | _ => throw (.misuse .usesDead)

def readEach {Struct Frame : Type} (readFrame : Struct → Using Frame) : List Struct → Using (List Frame)
  | [] => return []
  | frame :: rest => do
      let found ← readFrame frame
      return found :: (← readEach readFrame rest)

def readObjectFrame (frame : ObjectFrameStruct) : Using CtraceObjectFrame := do
  return ⟨frame.rawAddress, frame.objAddress, ← readText frame.objPath⟩

def readStacktraceFrame (frame : StacktraceFrameStruct) : Using CtraceStacktraceFrame := do
  let filename ← readText frame.filename
  let symbol ← readText frame.symbol
  return ⟨frame.rawAddress, frame.objectAddress, frame.line, frame.column, filename, symbol, frame.isInline⟩

def readArray {Struct : Type} (readFrames : Nat → Using (List Struct)) (trace : Variable) (array : Nat) :
    Using (List Struct) := do
  return (← readFrames array).take trace.count

def read (kind : Kind) (variable_ : Variable) : Using (Option Content) :=
  match variable_.pointer with
  | none => return none
  | some array =>
      match kind with
      | .raw => do return some (.raw (← readArray readRawFrames variable_ array))
      | .object => do
          return some (.object (← readEach readObjectFrame (← readArray readObjectFrames variable_ array)))
      | .stack => do
          return some (.stack (← readEach readStacktraceFrame (← readArray readStacktraceFrames variable_ array)))
      | .string => do return some (.text (← readText (some array)))

end Reading

/-- What the calls ask of C++ besides: `to_string`, and `demangle` for names of any prefix. -/
structure Services extends Environment where
  toString : List StacktraceFrame → Bool → Text
  demangleName : Text → Text

section Calls

variable (environment : Environment) (services : Services)

def orNull {Frame : Type} (convert : List Frame → Using Variable) : Except Exception (List Frame) → Using Variable
  | .ok trace => convert trace
  | .error _ => return .null

def generateRawTrace (captured : Except Exception (List FramePtr)) : Using Variable := orNull generateRaw captured

def objectsOf (frames : List FramePtr) : List ObjectFrame := frames.map environment.getFrameObjectInfo

def generateObjectTrace (captured : Except Exception (List FramePtr)) : Using Variable :=
  orNull cConvertObjects (captured.map (objectsOf environment))

def generateTrace (captured : Except Exception (List FramePtr)) : Using Variable :=
  orNull (cConvertFrames environment) (captured >>= resolveRawFrames environment)

def resolveRawTrace (trace : Variable) : Using Variable :=
  match trace.pointer with
  | none => return .null
  | some array => do
      let frames ← readArray readRawFrames trace array
      orNull (cConvertFrames environment) (resolveRawFrames environment frames)

def resolveRawTraceToObjectTrace (trace : Variable) : Using Variable :=
  match trace.pointer with
  | none => return .null
  | some array => do
      let frames ← readArray readRawFrames trace array
      cConvertObjects (objectsOf environment frames)

def resolveObjectTrace (trace : Variable) : Using Variable :=
  match trace.pointer with
  | none => return .null
  | some array => do
      let frames ← readArray readObjectFrames trace array
      orNull (cConvertFrames environment) (resolveRawFrames environment (frames.map ObjectFrameStruct.rawAddress))

def newString (text : Text) : Using Variable := do return ⟨← generateOwningString text, 0⟩

def stacktraceToString (trace : Variable) (useColor : Bool) : Using Variable :=
  match trace.pointer with
  | none => newString "<empty trace>".toList
  | some array => do
      let frames ← readEach readStacktraceFrame (← readArray readStacktraceFrames trace array)
      newString (services.toString (cppConvert frames) useColor)

def demangle (mangled : Option Text) : Using Variable :=
  match mangled with
  | none => newString []
  | some mangled => newString (services.demangleName mangled)

/-- The path that `ctrace_get_object_info` gives, which a program frees as a string. -/
def getObjectInfo (address : FramePtr) : Using Variable := newString (environment.getFrameObjectInfo address).objectPath

variable {count : Nat}

abbrev Running (count : Nat) := Command Ending (Program count)

def onMemory {α : Type} (command : Using α) : Running count α :=
  onPart Program.memory (fun program memory => { program with memory := memory }) command

def variableAt (slot : Slot count) : Running count Variable := fun program => (.ok (program.slots slot), program)

def assign (slot : Slot count) (call : Using Variable) : Running count (Option Content) := do
  let result ← onMemory call
  modify fun program => { program with slots := Function.update program.slots slot result }
  return none

def assignFrom (target source : Slot count) (call : Variable → Using Variable) : Running count (Option Content) := do
  let given ← variableAt source
  assign target (call given)

def perform : Call count → Running count (Option Content)
  | .generateRawTrace target captured => assign (.raw, target) (generateRawTrace captured)
  | .generateObjectTrace target captured =>
      assign (.object, target) (generateObjectTrace services.toEnvironment captured)
  | .generateTrace target captured => assign (.stack, target) (generateTrace services.toEnvironment captured)
  | .resolveRawTrace target source =>
      assignFrom (.stack, target) (.raw, source) (resolveRawTrace services.toEnvironment)
  | .resolveRawTraceToObjectTrace target source =>
      assignFrom (.object, target) (.raw, source) (resolveRawTraceToObjectTrace services.toEnvironment)
  | .resolveObjectTrace target source =>
      assignFrom (.stack, target) (.object, source) (resolveObjectTrace services.toEnvironment)
  | .stacktraceToString target source useColor =>
      assignFrom (.string, target) (.stack, source) fun trace => stacktraceToString services trace useColor
  | .generateOwningString target text => assign (.string, target) (newString text)
  | .demangle target mangled => assign (.string, target) (demangle services mangled)
  | .getObjectInfo target address => assign (.string, target) (getObjectInfo services.toEnvironment address)
  | .free slot => assignFrom slot slot (free slot.1)
  | .read slot => do
      let given ← variableAt slot
      onMemory (read slot.1 given)

def initial (count : Nat) : Program count := ⟨.empty, fun _ => .null⟩

def freeAll : List (Slot count) → Running count Unit
  | [] => return ()
  | slot :: rest => do
      let _ ← assignFrom slot slot (free slot.1)
      freeAll rest

end Calls

section Specification

variable (environment : Environment) (services : Services) {count : Nat}

/-- What each variable stands for, and whether a trace or a string was lost with its last pointer. -/
structure Spec (count : Nat) where
  contents : Slot count → Option Content
  lost : Bool

def cObject (frame : ObjectFrame) : CtraceObjectFrame :=
  ⟨frame.rawAddress, frame.objectAddress, cString frame.objectPath⟩

def cFrameRead (frame : StacktraceFrame) : CtraceStacktraceFrame :=
  let value := cConvertFrame environment frame
  { value with filename := cString value.filename, symbol := cString value.symbol }

def rawOf : Option Content → Option (List FramePtr)
  | some (.raw frames) => some frames
  | _ => none

def objectOf : Option Content → Option (List CtraceObjectFrame)
  | some (.object frames) => some frames
  | _ => none

def stackOf : Option Content → Option (List CtraceStacktraceFrame)
  | some (.stack frames) => some frames
  | _ => none

def resolvedContent (frames : List FramePtr) : Option Content :=
  (resolveRawFrames environment frames).toOption.map fun trace => .stack (trace.map (cFrameRead environment))

def objectContent (frames : List FramePtr) : Content := .object ((objectsOf environment frames).map cObject)

def specResult (contents : Slot count → Option Content) : Call count → Option (Slot count × Option Content)
  | .generateRawTrace target captured => some ((.raw, target), captured.toOption.map .raw)
  | .generateObjectTrace target captured =>
      some ((.object, target), captured.toOption.map (objectContent services.toEnvironment))
  | .generateTrace target captured =>
      some ((.stack, target), captured.toOption.bind (resolvedContent services.toEnvironment))
  | .resolveRawTrace target source =>
      some ((.stack, target), (rawOf (contents (.raw, source))).bind (resolvedContent services.toEnvironment))
  | .resolveRawTraceToObjectTrace target source =>
      some ((.object, target), (rawOf (contents (.raw, source))).map (objectContent services.toEnvironment))
  | .resolveObjectTrace target source =>
      some ((.stack, target), (objectOf (contents (.object, source))).bind fun frames =>
        resolvedContent services.toEnvironment (frames.map CtraceObjectFrame.rawAddress))
  | .stacktraceToString target source useColor =>
      some ((.string, target), some (.text (match stackOf (contents (.stack, source)) with
        | none => "<empty trace>".toList
        | some frames => cString (services.toString (cppConvert frames) useColor))))
  | .generateOwningString target text => some ((.string, target), some (.text (cString text)))
  | .demangle target mangled =>
      some ((.string, target), some (.text (cString ((mangled.map services.demangleName).getD []))))
  | .getObjectInfo target address =>
      some ((.string, target), some (.text (cString (services.getFrameObjectInfo address).objectPath)))
  | .free _ | .read _ => none

def specStep (call : Call count) (spec : Spec count) : Except Ending (Option Content) × Spec count :=
  match call, specResult services spec.contents call with
  | .free slot, _ => (.ok none, { spec with contents := Function.update spec.contents slot none })
  | .read slot, _ => (.ok (spec.contents slot), spec)
  | _, some (slot, result) =>
      (.ok none, ⟨Function.update spec.contents slot result, spec.lost || (spec.contents slot).isSome⟩)
  | _, none => (.ok none, spec)

def StoresInNull (call : Call count) (spec : Spec count) : Prop :=
  ∀ slot result, specResult services spec.contents call = some (slot, result) → spec.contents slot = none

end Specification

section Owning

open Assertion

def ownsText (pointer : Pointer) (text : Text) : Assertion Block := fun heap =>
  ∃ address stored, pointer = some address ∧ cString stored = text ∧ block address (.characters stored) heap

def ownsObjectFrame (struct : ObjectFrameStruct) (frame : CtraceObjectFrame) : Assertion Block := fun heap =>
  (struct.rawAddress = frame.rawAddress ∧ struct.objAddress = frame.objAddress) ∧
    ownsText struct.objPath frame.objPath heap

def ownsStacktraceFrame (struct : StacktraceFrameStruct) (frame : CtraceStacktraceFrame) :
    Assertion Block := fun heap =>
  (⟨struct.rawAddress, struct.objectAddress, struct.line, struct.column, frame.filename, frame.symbol,
    struct.isInline⟩ :
    CtraceStacktraceFrame) = frame ∧
      star (ownsText struct.filename frame.filename) (ownsText struct.symbol frame.symbol) heap

def ownsEach {Struct Frame : Type} (owns : Struct → Frame → Assertion Block) :
    List Struct → List Frame → Assertion Block
  | [], [] => nothing
  | struct :: structs, frame :: frames => star (owns struct frame) (ownsEach owns structs frames)
  | _, _ => fun _ => False

def ownsArray {Struct Frame : Type} (wrap : List Struct → Block) (owns : Struct → Frame → Assertion Block)
    (trace : Variable) (frames : List Frame) : Assertion Block := fun heap =>
  ∃ array structs, trace = ⟨some array, frames.length⟩ ∧
    star (block array (wrap structs)) (ownsEach owns structs frames) heap

def owns : Kind → Variable → Option Content → Assertion Block
  | _, trace, none => fun heap => trace.pointer = none ∧ nothing heap
  | .raw, trace, some (.raw frames) => fun heap =>
      ∃ array, trace = ⟨some array, frames.length⟩ ∧ block array (.rawFrames frames) heap
  | .object, trace, some (.object frames) => ownsArray .objectFrames ownsObjectFrame trace frames
  | .stack, trace, some (.stack frames) => ownsArray .stacktraceFrames ownsStacktraceFrame trace frames
  | .string, string, some (.text text) => ownsText string.pointer text
  | _, _, _ => fun _ => False

end Owning

end Ownership

end Cpptrace.CTrace
