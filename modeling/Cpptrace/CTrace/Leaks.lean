import Cpptrace.CTrace.Ownership
import Mathlib.Data.List.ProdSigma

/-! What the C interface leaves behind.

Each function is right about the blocks that its variables own, and touches no others. So
no run of calls reads or frees what was freed, and what is not freed in the end was lost
by storing over it.
-/

set_option autoImplicit false

namespace Cpptrace.CTrace.Ownership

open Cpptrace.Library Assertion

section Strings

theorem generateOwningString_owns (text : Text) :
    Triple nothing (generateOwningString text) fun pointer => ownsText pointer (cString text) :=
  (Triple.allocate _).bind fun address => Triple.ret fun _ part => ⟨address, text, rfl, rfl, part⟩

variable (pointer : Pointer) (text : Text)

theorem freeOwningString_frees : Triple (ownsText pointer text) (freeOwningString pointer) fun _ => nothing := by
  refine Triple.of_exists fun address => Triple.of_exists fun stored => ?_
  refine Triple.of_fact fun there => Triple.of_fact fun _ => ?_
  subst there
  exact Triple.free address _

theorem readText_reads : Reads (ownsText pointer text) (readText pointer) text := by
  refine Triple.of_exists fun address => Triple.of_exists fun stored => ?_
  refine Triple.of_fact fun there => Triple.of_fact fun same => ?_
  subst there
  exact (Triple.read address _).next (Triple.ret fun _ part => ⟨same, address, stored, rfl, same, part⟩)

end Strings

section Arrays

variable {Struct Frame : Type} {wrap : List Struct → Block} {each : Struct → Frame → Assertion Block}

theorem ownsEach_length {structs : List Struct} {frames : List Frame} {heap : Heap Block}
    (owned : ownsEach each structs frames heap) : structs.length = frames.length := by
  induction structs generalizing frames heap with
  | nil =>
    cases frames with
    | nil => rfl
    | cons => exact owned.elim
  | cons struct rest ih =>
    cases frames with
    | nil => exact owned.elim
    | cons frame frames =>
      obtain ⟨_, _, _, _, _, others⟩ := owned
      rw [List.length_cons, List.length_cons, ih others]

theorem ownsEach_snoc {structs : List Struct} {frames : List Frame} {struct : Struct} {frame : Frame}
    (heap : Heap Block)
    (owned : star (ownsEach each structs frames) (each struct frame) heap) :
    ownsEach each (structs ++ [struct]) (frames ++ [frame]) heap := by
  induction structs generalizing frames heap with
  | nil =>
    cases frames with
    | nil =>
      rw [ownsEach, star_comm] at owned
      exact owned
    | cons =>
      obtain ⟨_, _, _, _, impossible, _⟩ := owned
      exact impossible.elim
  | cons first rest ih =>
    cases frames with
    | nil =>
      obtain ⟨_, _, _, _, impossible, _⟩ := owned
      exact impossible.elim
    | cons frame frames =>
      rw [ownsEach, star_assoc] at owned
      exact star_mono (fun _ part => part) ih heap owned

theorem ownsEach_map {Value : Type} {ofStruct : Struct → Value} {ofFrame : Frame → Value}
    (same : ∀ struct frame heap, each struct frame heap → ofStruct struct = ofFrame frame)
    {structs : List Struct} {frames : List Frame} {heap : Heap Block} (owned : ownsEach each structs frames heap) :
    structs.map ofStruct = frames.map ofFrame := by
  induction structs generalizing frames heap with
  | nil =>
    cases frames with
    | nil => rfl
    | cons => exact owned.elim
  | cons struct rest ih =>
    cases frames with
    | nil => exact owned.elim
    | cons frame frames =>
      obtain ⟨_, _, _, _, first, others⟩ := owned
      rw [List.map_cons, List.map_cons, same _ _ _ first, ih others]

section Filling

variable {Source : Type} {convert : Source → Using Struct} {value : Source → Frame}
  (converts : ∀ source, Triple nothing (convert source) fun struct => each struct (value source))

include converts

theorem fill_owns (array : Nat) (sources : List Source) (written : List Struct) (frames : List Frame) :
    Triple (star (block array (wrap written)) (ownsEach each written frames)) (fill wrap convert array sources written)
      fun _ heap => ∃ structs,
        star (block array (wrap structs)) (ownsEach each structs (frames ++ sources.map value)) heap := by
  induction sources generalizing written frames with
  | nil =>
    refine Triple.ret fun heap owned => ⟨written, ?_⟩
    rw [List.map_nil, List.append_nil]
    exact owned
  | cons source rest ih =>
    have converted := (converts source).frame (star (block array (wrap written)) (ownsEach each written frames))
    rw [nothing_star] at converted
    refine converted.bind fun struct => ?_
    have wrote := (Triple.write array (wrap written) (wrap (written ++ [struct]))).frame
      (star (ownsEach each written frames) (each struct (value source)))
    refine (wrote.weaken (fun heap owned => ?_) (fun _ _ owned => owned)).bind fun _ => ?_
    · rw [star_comm, star_assoc] at owned
      exact owned
    · have others := ih (written ++ [struct]) (frames ++ [value source])
      rw [List.append_assoc, List.singleton_append, ← List.map_cons] at others
      exact others.weaken (star_mono (fun _ part => part) ownsEach_snoc) fun _ _ owned => owned

theorem cConvertWith_owns (sources : List Source) :
    Triple nothing (cConvertWith wrap convert sources) fun trace => ownsArray wrap each trace (sources.map value) := by
  refine (Triple.allocate _).bind fun array => ?_
  refine ((fill_owns converts array sources [] []).weaken (fun heap owned => ?_) (fun _ _ owned => owned)).bind
    fun _ => ?_
  · rw [ownsEach, star_nothing]
    exact owned
  · refine Triple.ret fun heap ⟨structs, owned⟩ => ⟨array, structs, ?_, owned⟩
    rw [List.length_map]

end Filling

theorem freeFrames_frees {freeFrame : Struct → Using Unit}
    (frees : ∀ struct frame, Triple (each struct frame) (freeFrame struct) fun _ => nothing)
    (structs : List Struct) (frames : List Frame) :
    Triple (ownsEach each structs frames) (freeFrames freeFrame structs) fun _ => nothing := by
  induction structs generalizing frames with
  | nil =>
    cases frames with
    | nil => exact Triple.ret fun _ part => part
    | cons => exact Triple.of_absurd
  | cons struct rest ih =>
    cases frames with
    | nil => exact Triple.of_absurd
    | cons frame frames =>
      refine ((frees struct frame).frame (ownsEach each rest frames)).bind fun _ => ?_
      rw [nothing_star]
      exact ih frames

theorem readEach_reads {readFrame : Struct → Using Frame}
    (reads : ∀ struct frame, Reads (each struct frame) (readFrame struct) frame) (structs : List Struct)
    (frames : List Frame) : Reads (ownsEach each structs frames) (readEach readFrame structs) frames := by
  induction structs generalizing frames with
  | nil =>
    cases frames with
    | nil => exact Reads.ret _ _
    | cons => exact Triple.of_absurd
  | cons struct rest ih =>
    cases frames with
    | nil => exact Triple.of_absurd
    | cons frame frames =>
      have first := (reads struct frame).frame (ownsEach each rest frames)
      have others := (ih frames).frame_left (each struct frame)
      exact first.next (others.next (Reads.ret _ _))

end Arrays

section Frames

variable (environment : Environment)

theorem convertObjectFrame_owns (frame : ObjectFrame) :
    Triple nothing (convertObjectFrame frame) fun struct => ownsObjectFrame struct (cObject frame) :=
  (generateOwningString_owns _).bind fun _ => Triple.ret fun _ part => ⟨⟨rfl, rfl⟩, part⟩

theorem convertFrame_owns (frame : StacktraceFrame) :
    Triple nothing (convertFrame environment frame) fun struct =>
      ownsStacktraceFrame struct (cFrameRead environment frame) := by
  refine (generateOwningString_owns _).bind fun filename => ?_
  have second := (generateOwningString_owns (environment.demangle frame.symbol)).frame_left
    (ownsText filename (cString frame.filename))
  rw [star_nothing] at second
  exact second.bind fun symbol => Triple.ret fun _ part => ⟨rfl, part⟩

theorem freeObjectFrame_frees (struct : ObjectFrameStruct) (frame : CtraceObjectFrame) :
    Triple (ownsObjectFrame struct frame) (freeObjectFrame struct) fun _ => nothing :=
  Triple.of_fact fun _ => freeOwningString_frees _ _

theorem freeStacktraceFrame_frees (struct : StacktraceFrameStruct) (frame : CtraceStacktraceFrame) :
    Triple (ownsStacktraceFrame struct frame) (freeStacktraceFrame struct) fun _ => nothing := by
  refine Triple.of_fact fun _ => ((freeOwningString_frees _ _).frame _).bind fun _ => ?_
  rw [nothing_star]
  exact freeOwningString_frees _ _

theorem readObjectFrame_reads (struct : ObjectFrameStruct) (frame : CtraceObjectFrame) :
    Reads (ownsObjectFrame struct frame) (readObjectFrame struct) frame := by
  refine Triple.of_fact fun ⟨raw, object⟩ =>
    (readText_reads _ _).next (Triple.ret fun _ part => ⟨?_, ⟨raw, object⟩, part⟩)
  rw [raw, object]

theorem readStacktraceFrame_reads (struct : StacktraceFrameStruct) (frame : CtraceStacktraceFrame) :
    Reads (ownsStacktraceFrame struct frame) (readStacktraceFrame struct) frame :=
  Triple.of_fact fun same => ((readText_reads _ _).frame _).next <|
    ((readText_reads _ _).frame_left _).next (Triple.ret fun _ part => ⟨same, same, part⟩)

end Frames

section Variables

variable (count array : Nat)

theorem readArray_reads {Struct : Type} {readFrames : Nat → Using (List Struct)} {P : Assertion Block}
    {structs : List Struct}
    (reads : Reads P (readFrames array) structs) (counted : structs.length = count) :
    Reads P (readArray readFrames ⟨some array, count⟩ array) structs := by
  refine reads.next ?_
  rw [← counted, List.take_length]
  exact Reads.ret _ _

theorem readRawFrames_reads (frames : List FramePtr) :
    Reads (block array (.rawFrames frames)) (readRawFrames array) frames :=
  (Triple.read array _).next (Reads.ret _ frames)

theorem readObjectFrames_reads (frames : List ObjectFrameStruct) :
    Reads (block array (.objectFrames frames)) (readObjectFrames array) frames :=
  (Triple.read array _).next (Reads.ret _ frames)

theorem readStacktraceFrames_reads (frames : List StacktraceFrameStruct) :
    Reads (block array (.stacktraceFrames frames)) (readStacktraceFrames array) frames :=
  (Triple.read array _).next (Reads.ret _ frames)

/-- The loops over an array are right if they are right about its frames. -/
theorem ownsArray_runs {Struct Frame α : Type} {wrap : List Struct → Block} {each : Struct → Frame → Assertion Block}
    {trace : Variable} {frames : List Frame} {command : Using α} {Q : α → Assertion Block}
    (runs : ∀ array structs, trace = ⟨some array, frames.length⟩ → structs.length = frames.length →
      Triple (star (block array (wrap structs)) (ownsEach each structs frames)) command Q) :
    Triple (ownsArray wrap each trace frames) command Q := by
  refine Triple.of_exists fun array => Triple.of_exists fun structs => Triple.of_fact fun same => ?_
  refine Triple.of_implied (fun heap owned => ?_) (runs array structs same)
  obtain ⟨_, _, _, _, _, owned⟩ := owned
  exact ownsEach_length owned

theorem owns_null {trace : Variable} {content : Option Content} (kind : Kind) (heap : Heap Block)
    (empty : trace.pointer = none ∧ nothing heap) (absent : content = none) : owns kind trace content heap := by
  subst absent
  cases kind <;> exact empty

theorem freeLoop_frees {Struct Frame : Type} {each : Struct → Frame → Assertion Block} {freeFrame : Struct → Using Unit}
    (frees : ∀ struct frame, Triple (each struct frame) (freeFrame struct) fun _ => nothing) (content : Block)
    (structs : List Struct) (frames : List Frame) (sized : structs.length = frames.length) :
    Triple (star (block array content) (ownsEach each structs frames))
      (do
        freeFrames freeFrame (structs.take frames.length)
        Memory.free array
        return Variable.null)
      fun result heap => result.pointer = none ∧ nothing heap := by
  have loop := (freeFrames_frees frees structs frames).frame_left (block array content)
  rw [star_nothing] at loop
  rw [← sized, List.take_length]
  exact loop.bind fun _ => (Triple.free array content).bind fun _ => Triple.ret fun _ part => ⟨rfl, part⟩

end Variables

section Contents

variable (held : Variable)

theorem free_null (kind : Kind) (null : held.pointer = none) :
    Triple nothing (free kind held) fun result heap => result.pointer = none ∧ nothing heap := by
  cases kind
  case raw =>
    rw [free, freeRawTrace, null]
    exact Triple.ret fun _ part => ⟨rfl, part⟩
  case object =>
    rw [free, freeObjectTrace, null]
    exact Triple.ret fun _ part => ⟨null, part⟩
  case stack =>
    rw [free, freeStacktrace, null]
    exact Triple.ret fun _ part => ⟨null, part⟩
  case string =>
    rw [free, freeString, null]
    exact Triple.ret fun _ part => ⟨rfl, part⟩

theorem free_frees (kind : Kind) (content : Option Content) :
    Triple (owns kind held content) (free kind held) fun result => owns kind result none := by
  refine Triple.weaken (Q := fun result heap => result.pointer = none ∧ nothing heap) ?_ (fun _ owned => owned)
    fun result heap empty => owns_null kind heap empty rfl
  cases content with
  | none =>
    refine (Triple.of_fact (free_null held kind)).weaken (fun heap owned => ?_) fun _ _ empty => empty
    cases kind <;> exact owned
  | some content =>
    cases kind <;> cases content
    case raw.raw frames =>
      refine Triple.of_exists fun array => Triple.of_fact fun same => ?_
      subst same
      exact (Triple.free array _).bind fun _ => Triple.ret fun _ part => ⟨rfl, part⟩
    case object.object frames =>
      refine ownsArray_runs fun array structs same sized => ?_
      subst same
      refine ((readObjectFrames_reads array structs).frame _).next ?_
      exact freeLoop_frees array freeObjectFrame_frees _ structs frames sized
    case stack.stack frames =>
      refine ownsArray_runs fun array structs same sized => ?_
      subst same
      refine ((readStacktraceFrames_reads array structs).frame _).next ?_
      exact freeLoop_frees array freeStacktraceFrame_frees _ structs frames sized
    case string.text text =>
      exact (freeOwningString_frees _ _).bind fun _ => Triple.ret fun _ part => ⟨rfl, part⟩
    all_goals exact Triple.of_absurd

theorem of_null {α : Type} {command : Using α} {Q : α → Assertion Block} (kind : Kind)
    (runs : held.pointer = none → Triple nothing command Q) : Triple (owns kind held none) command Q := by
  refine (Triple.of_fact runs).weaken (fun heap owned => ?_) fun _ _ holds => holds
  cases kind <;> exact owned

theorem read_reads (kind : Kind) (content : Option Content) :
    Reads (owns kind held content) (read kind held) content := by
  cases content with
  | none =>
    refine of_null held kind fun null => ?_
    rw [read.eq_def, null]
    exact Triple.ret fun heap part => ⟨rfl, owns_null kind heap ⟨null, part⟩ rfl⟩
  | some content =>
    cases kind <;> cases content
    case raw.raw frames =>
      refine Triple.of_exists fun array => Triple.of_fact fun same => ?_
      subst same
      have first := readArray_reads frames.length array (readRawFrames_reads array frames) rfl
      exact first.next (Triple.ret fun _ part => ⟨rfl, array, rfl, part⟩)
    case object.object frames =>
      refine ownsArray_runs fun array structs same sized => ?_
      subst same
      have first := readArray_reads frames.length array (readObjectFrames_reads array structs) sized
      have second := (readEach_reads readObjectFrame_reads structs frames).frame_left
          (block array (.objectFrames structs))
      exact (first.frame _).next (second.next (Triple.ret fun _ part => ⟨rfl, array, structs, rfl, part⟩))
    case stack.stack frames =>
      refine ownsArray_runs fun array structs same sized => ?_
      subst same
      have first := readArray_reads frames.length array (readStacktraceFrames_reads array structs) sized
      have second := (readEach_reads readStacktraceFrame_reads structs frames).frame_left
        (block array (.stacktraceFrames structs))
      exact (first.frame _).next (second.next (Triple.ret fun _ part => ⟨rfl, array, structs, rfl, part⟩))
    case string.text text =>
      obtain ⟨pointer, count⟩ := held
      have found : Reads (ownsText pointer text) (do return some (Content.text (← readText pointer)))
          (some (.text text)) :=
        (readText_reads pointer text).next (Reads.ret _ _)
      refine Triple.of_exists fun address => Triple.of_exists fun stored => Triple.of_fact fun there => ?_
      subst there
      exact found.weaken (fun _ part => ⟨address, stored, rfl, part⟩) fun _ _ holds => holds
    -- a content of another kind is owned by nothing
    all_goals exact Triple.of_absurd

end Contents

section Calls

variable (environment : Environment) (services : Services)

theorem orNull_owns {Frame : Type} {convert : List Frame → Using Variable} {kind : Kind}
    {content : List Frame → Content}
    (converts : ∀ trace, Triple nothing (convert trace) fun result => owns kind result (some (content trace)))
    (outcome : Except Exception (List Frame)) :
    Triple nothing (orNull convert outcome) fun result => owns kind result (outcome.toOption.map content) := by
  cases outcome with
  | ok trace => exact converts trace
  | error => exact Triple.ret fun heap part => owns_null kind heap ⟨rfl, part⟩ rfl

theorem generateRaw_owns (frames : List FramePtr) :
    Triple nothing (generateRaw frames) fun result => owns .raw result (some (.raw frames)) :=
  (Triple.allocate _).bind fun array => Triple.ret fun _ part => ⟨array, rfl, part⟩

theorem cConvertObjects_owns (frames : List FramePtr) :
    Triple nothing (cConvertObjects (objectsOf environment frames)) fun result =>
      owns .object result (some (objectContent environment frames)) :=
  cConvertWith_owns convertObjectFrame_owns _

theorem cConvertFrames_owns (trace : List StacktraceFrame) :
    Triple nothing (cConvertFrames environment trace) fun result =>
      owns .stack result (some (.stack (trace.map (cFrameRead environment)))) :=
  cConvertWith_owns (convertFrame_owns environment) trace

theorem resolved_owns (frames : List FramePtr) :
    Triple nothing (orNull (cConvertFrames environment) (resolveRawFrames environment frames)) fun result =>
      owns .stack result (resolvedContent environment frames) :=
  orNull_owns (cConvertFrames_owns environment) _

theorem newString_owns (text : Text) :
    Triple nothing (newString text) fun result => owns .string result (some (.text (cString text))) :=
  (generateOwningString_owns text).bind fun _ => Triple.ret fun _ part => part

theorem generateObjectTrace_owns (captured : Except Exception (List FramePtr)) :
    Triple nothing (generateObjectTrace environment captured) fun result =>
      owns .object result (captured.toOption.map (objectContent environment)) := by
  cases captured with
  | ok frames => exact cConvertObjects_owns environment frames
  | error => exact Triple.ret fun _ part => ⟨rfl, part⟩

theorem generateTrace_owns (captured : Except Exception (List FramePtr)) :
    Triple nothing (generateTrace environment captured) fun result =>
      owns .stack result (captured.toOption.bind (resolvedContent environment)) := by
  cases captured with
  | ok frames => exact resolved_owns environment frames
  | error => exact Triple.ret fun _ part => ⟨rfl, part⟩

section Sources

variable {source : Variable} {content : Option Content}

theorem null_owns (kind target : Kind) (absent : source.pointer = none) {heap : Heap Block} (part : nothing heap) :
    star (owns kind source none) (owns target .null none) heap := by
  refine ⟨heap, Heap.empty, Heap.disjoint_empty heap, (Heap.union_empty heap).symm, ?_, ?_⟩
  · exact owns_null kind heap ⟨absent, part⟩ rfl
  · exact owns_null target _ ⟨rfl, rfl⟩ rfl

/-- A call that reads the frames of a raw trace, and gives null for null. -/
theorem rawSource_runs {call : Variable → Using Variable} {next : List FramePtr → Using Variable} {kind : Kind}
    {result : List FramePtr → Option Content}
    (null : ∀ trace : Variable, trace.pointer = none → call trace = return .null)
    (reads : ∀ array count, call ⟨some array, count⟩ = readArray readRawFrames ⟨some array, count⟩ array >>= next)
    (gives : ∀ frames, Triple nothing (next frames) fun made => owns kind made (result frames)) :
    Triple (owns .raw source content) (call source) fun made =>
      star (owns .raw source content) (owns kind made ((rawOf content).bind result)) := by
  cases content with
  | none =>
    refine of_null source .raw fun absent => ?_
    rw [null source absent]
    exact Triple.ret fun heap part => null_owns .raw kind absent part
  | some content =>
    cases content
    case raw frames =>
      refine Triple.of_exists fun array => Triple.of_fact fun same => ?_
      subst same
      rw [reads]
      refine (readArray_reads frames.length array (readRawFrames_reads array frames) rfl).next ?_
      have made := (gives frames).frame_left (block array (.rawFrames frames))
      rw [star_nothing] at made
      exact made.weaken (fun _ part => part) fun _ => star_mono (fun _ part => ⟨array, rfl, part⟩) fun _ part => part
    all_goals exact Triple.of_absurd

theorem resolveRawTrace_owns :
    Triple (owns .raw source content) (resolveRawTrace environment source) fun made =>
      star (owns .raw source content) (owns .stack made ((rawOf content).bind (resolvedContent environment))) := by
  refine rawSource_runs (fun trace null => ?_) (fun _ _ => rfl) (resolved_owns environment)
  rw [resolveRawTrace, null]

theorem resolveRawTraceToObjectTrace_owns :
    Triple (owns .raw source content) (resolveRawTraceToObjectTrace environment source) fun made =>
      star (owns .raw source content) (owns .object made ((rawOf content).map (objectContent environment))) := by
  rw [Option.map_eq_bind]
  refine rawSource_runs (fun trace null => ?_) (fun _ _ => rfl) (cConvertObjects_owns environment)
  rw [resolveRawTraceToObjectTrace, null]

theorem resolveObjectTrace_owns :
    Triple (owns .object source content) (resolveObjectTrace environment source) fun made =>
      star (owns .object source content) (owns .stack made ((objectOf content).bind fun frames =>
        resolvedContent environment (frames.map CtraceObjectFrame.rawAddress))) := by
  cases content with
  | none =>
    refine of_null source .object fun absent => ?_
    rw [resolveObjectTrace, absent]
    exact Triple.ret fun heap part => null_owns .object .stack absent part
  | some content =>
    cases content
    case object frames =>
      refine ownsArray_runs fun array structs same sized => ?_
      subst same
      have first := readArray_reads frames.length array (readObjectFrames_reads array structs) sized
      have stored : ∀ heap, star (block array (.objectFrames structs)) (ownsEach ownsObjectFrame structs frames) heap →
          structs.map ObjectFrameStruct.rawAddress = frames.map CtraceObjectFrame.rawAddress := by
        rintro _ ⟨_, _, _, _, _, owned⟩
        exact ownsEach_map (fun _ _ _ owned => owned.1.1) owned
      have made := (resolved_owns environment (frames.map CtraceObjectFrame.rawAddress)).frame_left
        (star (block array (.objectFrames structs)) (ownsEach ownsObjectFrame structs frames))
      rw [star_nothing] at made
      refine Triple.of_implied stored fun same => (first.frame _).next ?_
      rw [same]
      exact made.weaken (fun _ part => part) fun _ =>
        star_mono (fun _ part => ⟨array, structs, rfl, part⟩) fun _ part => part
    all_goals exact Triple.of_absurd

theorem stacktraceToString_owns (useColor : Bool) :
    Triple (owns .stack source content) (stacktraceToString services source useColor) fun made =>
      star (owns .stack source content) (owns .string made (some (.text (match stackOf content with
        | none => "<empty trace>".toList
        | some frames => cString (services.toString (cppConvert frames) useColor))))) := by
  cases content with
  | none =>
    refine of_null source .stack fun absent => ?_
    rw [stacktraceToString, absent]
    have made := (newString_owns "<empty trace>".toList).frame_left nothing
    rw [star_nothing] at made
    exact made.weaken (fun _ part => part) fun _ => star_mono (fun _ part => ⟨absent, part⟩) fun _ part => part
  | some content =>
    cases content
    case stack frames =>
      refine ownsArray_runs fun array structs same sized => ?_
      subst same
      have first := readArray_reads frames.length array (readStacktraceFrames_reads array structs) sized
      have second := (readEach_reads readStacktraceFrame_reads structs frames).frame_left
        (block array (.stacktraceFrames structs))
      have made := (newString_owns (services.toString (cppConvert frames) useColor)).frame_left
        (star (block array (.stacktraceFrames structs)) (ownsEach ownsStacktraceFrame structs frames))
      rw [star_nothing] at made
      exact ((first.frame _).next (second.next made)).weaken (fun _ part => part) fun _ =>
        star_mono (fun _ part => ⟨array, structs, rfl, part⟩) fun _ part => part
    all_goals exact Triple.of_absurd

end Sources

end Calls

section Programs

variable {count : Nat}

def everySlot (count : Nat) : List (Slot count) := [Kind.raw, .object, .stack, .string] ×ˢ List.finRange count

theorem everySlot_nodup : (everySlot count).Nodup := List.Nodup.product (by decide) (List.nodup_finRange count)

theorem mem_everySlot (slot : Slot count) : slot ∈ everySlot count := by
  obtain ⟨kind, index⟩ := slot
  exact List.mem_product.mpr ⟨by cases kind <;> decide, List.mem_finRange index⟩

def ownsSlot (slots : Slot count → Variable) (contents : Slot count → Option Content) (slot : Slot count) :
    Assertion Block :=
  owns slot.1 (slots slot) (contents slot)

def everything (slots : Slot count → Variable) (contents : Slot count → Option Content) : Assertion Block :=
  all ((everySlot count).map (ownsSlot slots contents))

def lostBlocks : Bool → Assertion Block
  | false => nothing
  | true => fun heap => ∃ pointer, heap pointer ≠ none

/-- The heap holds what the variables own, and what was lost. -/
def Represents (program : Program count) (spec : Spec count) : Prop :=
  star (everything program.slots spec.contents) (lostBlocks spec.lost) program.memory.heap

variable (slots : Slot count → Variable) (contents : Slot count → Option Content) (slot : Slot count)

theorem everything_extract : everything slots contents =
    star (ownsSlot slots contents slot) (others (everySlot count) slot (ownsSlot slots contents)) :=
  all_extract (mem_everySlot slot) (ownsSlot slots contents)

theorem everything_update (held : Variable) (content : Option Content) :
    everything (Function.update slots slot held) (Function.update contents slot content) =
      star (owns slot.1 held content) (others (everySlot count) slot (ownsSlot slots contents)) := by
  have about : ownsSlot (Function.update slots slot held) (Function.update contents slot content) =
      Function.update (ownsSlot slots contents) slot (owns slot.1 held content) := by
    funext other
    by_cases same : other = slot
    · subst same
      simp [ownsSlot]
    · simp [ownsSlot, same]
  rw [everything, about]
  exact all_update everySlot_nodup (mem_everySlot slot) _ _

theorem ownsSome_lives (kind : Kind) (held : Variable) (content : Content) (heap : Heap Block)
    (owned : owns kind held (some content) heap) : ∃ pointer, heap pointer ≠ none := by
  cases kind <;> cases content
  case raw.raw =>
    obtain ⟨array, -, rfl⟩ := owned
    exact ⟨array, by simp [Heap.single]⟩
  case object.object =>
    obtain ⟨array, _, -, _, _, -, rfl, rfl, -⟩ := owned
    exact ⟨array, by simp [Heap.union, Heap.single]⟩
  case stack.stack =>
    obtain ⟨array, _, -, _, _, -, rfl, rfl, -⟩ := owned
    exact ⟨array, by simp [Heap.union, Heap.single]⟩
  case string.text =>
    obtain ⟨address, _, -, -, rfl⟩ := owned
    exact ⟨address, by simp [Heap.single]⟩
  all_goals exact owned.elim

theorem lostBlocks_of_owned (kind : Kind) (held : Variable) (content : Option Content) (lost : Bool) (heap : Heap Block)
    (holds : star (owns kind held content) (lostBlocks lost) heap) : lostBlocks (lost || content.isSome) heap := by
  cases content with
  | none =>
    have owned : ∀ heap, owns kind held none heap → nothing heap := by
      cases kind <;> exact fun _ owned => owned.2
    rw [Option.isSome_none, Bool.or_false, ← nothing_star (lostBlocks lost)]
    exact star_mono owned (fun _ part => part) heap holds
  | some content =>
    obtain ⟨one, two, -, rfl, owned, -⟩ := holds
    obtain ⟨pointer, lives⟩ := ownsSome_lives kind held content one owned
    rw [Option.isSome_some, Bool.or_true]
    refine ⟨pointer, fun absent => lives ?_⟩
    rw [Heap.union, Option.or_eq_none_iff] at absent
    exact absent.1

section Assigning

variable {program : Program count} {spec : Spec count} (represented : Represents program spec) {call : Using Variable}
  {result : Option Content}

include represented

theorem assign_represents {left : Assertion Block} {lost : Bool}
    (made : Triple (everything program.slots spec.contents) call fun held =>
      star (star (owns slot.1 held result) (others (everySlot count) slot (ownsSlot program.slots spec.contents))) left)
    (loses : ∀ heap, star left (lostBlocks spec.lost) heap → lostBlocks lost heap) :
    (assign slot call program).1 = .ok none ∧
      Represents (assign slot call program).2 ⟨Function.update spec.contents slot result, lost⟩ := by
  obtain ⟨held, returned, holds⟩ := made program.memory _ represented
  have ran : assign slot call program =
      (.ok none, ⟨(call program.memory).2, Function.update program.slots slot held⟩) := by
    rw [assign, Command.bind_apply]
    simp only [onMemory, onPart, returned]
    rfl
  rw [ran]
  refine ⟨rfl, ?_⟩
  rw [Represents, everything_update]
  rw [star_assoc] at holds
  exact star_mono (fun _ part => part) loses _ holds

theorem store_represents
    (made : Triple (everything program.slots spec.contents) call fun held =>
      star (everything program.slots spec.contents) (owns slot.1 held result)) :
    (assign slot call program).1 = .ok none ∧ Represents (assign slot call program).2
      ⟨Function.update spec.contents slot result, spec.lost || (spec.contents slot).isSome⟩ := by
  refine assign_represents slot represented (made.weaken (fun _ part => part) fun held heap part => ?_)
    (lostBlocks_of_owned slot.1 (program.slots slot) (spec.contents slot) spec.lost)
  rw [everything_extract _ _ slot, star_comm, star_left_comm, star_comm] at part
  exact part

theorem generated_represents
    (made : Triple nothing call fun held => owns slot.1 held result) :
    (assign slot call program).1 = .ok none ∧ Represents (assign slot call program).2
      ⟨Function.update spec.contents slot result, spec.lost || (spec.contents slot).isSome⟩ := by
  have framed := made.frame_left (everything program.slots spec.contents)
  rw [star_nothing] at framed
  exact store_represents slot represented framed

theorem sourced_represents (source : Slot count) {call : Variable → Using Variable}
    (made : Triple (ownsSlot program.slots spec.contents source) (call (program.slots source)) fun held =>
      star (ownsSlot program.slots spec.contents source) (owns slot.1 held result)) :
    (assignFrom slot source call program).1 = .ok none ∧ Represents (assignFrom slot source call program).2
      ⟨Function.update spec.contents slot result, spec.lost || (spec.contents slot).isSome⟩ := by
  refine store_represents slot represented ?_
  rw [everything_extract _ _ source]
  refine (made.frame _).weaken (fun _ part => part) fun held heap part => ?_
  rw [star_assoc, star_comm (owns slot.1 held result), ← star_assoc] at part
  exact part

theorem freed_represents : (assignFrom slot slot (free slot.1) program).1 = .ok none ∧
    Represents (assignFrom slot slot (free slot.1) program).2 ⟨Function.update spec.contents slot none, spec.lost⟩ := by
  have made : Triple (everything program.slots spec.contents) (free slot.1 (program.slots slot)) fun held =>
      star (star (owns slot.1 held none) (others (everySlot count) slot (ownsSlot program.slots spec.contents)))
        nothing := by
    rw [everything_extract _ _ slot]
    refine ((free_frees _ slot.1 (spec.contents slot)).frame _).weaken (fun _ part => part) fun held heap part => ?_
    rw [star_nothing]
    exact part
  refine assign_represents slot represented made fun heap part => ?_
  rw [nothing_star] at part
  exact part

theorem read_represents (services : Services) : (perform services (.read slot) program).1 = .ok (spec.contents slot) ∧
    Represents (perform services (.read slot) program).2 spec := by
  have reads : Reads (everything program.slots spec.contents) (read slot.1 (program.slots slot))
      (spec.contents slot) := by
    rw [everything_extract _ _ slot]
    exact (read_reads (program.slots slot) slot.1 (spec.contents slot)).frame _
  obtain ⟨_, returned, one, two, apart, whole, ⟨rfl, part⟩, rest⟩ := reads program.memory _ represented
  exact ⟨returned, one, two, apart, whole, part, rest⟩

end Assigning

section Running

variable (services : Services)

theorem perform_simulates (call : Call count) (program : Program count) (spec : Spec count)
    (represented : Represents program spec) :
    (perform services call program).1 = (specStep services call spec).1 ∧
      Represents (perform services call program).2 (specStep services call spec).2 := by
  cases call with
  | generateRawTrace target captured =>
    exact generated_represents (.raw, target) represented (orNull_owns generateRaw_owns captured)
  | generateObjectTrace target captured =>
    exact generated_represents (.object, target) represented (generateObjectTrace_owns _ captured)
  | generateTrace target captured =>
    exact generated_represents (.stack, target) represented (generateTrace_owns _ captured)
  | resolveRawTrace target source =>
    exact sourced_represents (.stack, target) represented (.raw, source) (resolveRawTrace_owns _)
  | resolveRawTraceToObjectTrace target source =>
    exact sourced_represents (.object, target) represented (.raw, source) (resolveRawTraceToObjectTrace_owns _)
  | resolveObjectTrace target source =>
    exact sourced_represents (.stack, target) represented (.object, source) (resolveObjectTrace_owns _)
  | stacktraceToString target source useColor =>
    exact sourced_represents (.string, target) represented (.stack, source) (stacktraceToString_owns _ useColor)
  | generateOwningString target text =>
    exact generated_represents (.string, target) represented (newString_owns text)
  | demangle target mangled =>
    refine generated_represents (.string, target) represented ?_
    cases mangled with
    | none => exact newString_owns []
    | some mangled => exact newString_owns _
  | getObjectInfo target address =>
    exact generated_represents (.string, target) represented (newString_owns _)
  | free slot => exact freed_represents slot represented
  | read slot => exact read_represents slot represented services

theorem freeAll_represents (slots : List (Slot count)) (program : Program count) (spec : Spec count)
    (represented : Represents program spec) :
    (freeAll slots program).1 = .ok () ∧ Represents (freeAll slots program).2
      ⟨fun slot => if slot ∈ slots then none else spec.contents slot, spec.lost⟩ := by
  induction slots generalizing program spec with
  | nil => exact ⟨rfl, by simpa [freeAll] using represented⟩
  | cons slot rest ih =>
    obtain ⟨returned, next⟩ := freed_represents slot represented
    obtain ⟨ended, last⟩ := ih _ _ next
    rw [freeAll, Command.bind_apply, returned]
    refine ⟨ended, ?_⟩
    convert last using 3 with other
    by_cases same : other = slot <;> simp [same]

theorem initial_represents : Represents (initial count) ⟨fun _ => none, false⟩ := by
  rw [Represents, lostBlocks, star_nothing]
  refine all_empty fun assertion member => ?_
  obtain ⟨slot, -, rfl⟩ := List.mem_map.mp member
  exact owns_null slot.1 Heap.empty ⟨rfl, rfl⟩ rfl

theorem empty_iff {program : Program count} {lost : Bool} (represented : Represents program ⟨fun _ => none, lost⟩) :
    program.memory.heap = Heap.empty ↔ lost = false := by
  have owned : ∀ heap, everything program.slots (fun _ : Slot count => none) heap → nothing heap := by
    refine all_nothing fun assertion member heap holds => ?_
    obtain ⟨slot, -, rfl⟩ := List.mem_map.mp member
    obtain ⟨kind, index⟩ := slot
    cases kind <;> exact holds.2
  have left := star_mono owned (fun _ part => part) _ represented
  rw [nothing_star] at left
  cases lost with
  | false => exact iff_of_true left rfl
  | true =>
    obtain ⟨pointer, lives⟩ := left
    refine iff_of_false (fun empty => lives ?_) Bool.noConfusion
    rw [empty]
    rfl

theorem lost_iff (call : Call count) (spec : Spec count) :
    (specStep services call spec).2.lost = false ↔ spec.lost = false ∧ StoresInNull services call spec := by
  cases call <;> simp [specStep, specResult, StoresInNull]

theorem lost_run_iff (calls : List (Call count)) (spec : Spec count) :
    (run (specStep services) calls spec).2.lost = false ↔
      spec.lost = false ∧ EveryStep (specStep services) (StoresInNull services) calls spec := by
  induction calls generalizing spec with
  | nil => exact (and_iff_left trivial).symm
  | cons call rest ih => rw [run, ih, lost_iff, EveryStep, and_assoc]

/-- A program that makes any calls in any order, and then frees its variables. Every call answers what it would
without a heap, so nothing is used or freed after it was freed. In the end nothing is left on the heap, if and only if
no call stored its result over a trace or a string. -/
theorem calls_leak_iff (calls : List (Call count)) :
    let ran := run (perform services) calls (initial count)
    let spec : Spec count := ⟨fun _ => none, false⟩
    ran.1 = (run (specStep services) calls spec).1 ∧ (freeAll (everySlot count) ran.2).1 = .ok () ∧
      ((freeAll (everySlot count) ran.2).2.memory.heap = Heap.empty ↔
        EveryStep (specStep services) (StoresInNull services) calls spec) := by
  intro ran spec
  obtain ⟨answers, represented⟩ :=
      run_refines (perform_simulates services) calls (initial count) spec initial_represents
  obtain ⟨ended, last⟩ := freeAll_represents (everySlot count) ran.2 _ represented
  have none : (fun slot => if slot ∈ everySlot count then none
      else (run (specStep services) calls spec).2.contents slot) =
      fun _ => Option.none := funext fun slot => if_pos (mem_everySlot slot)
  rw [none] at last
  refine ⟨answers, ended, ?_⟩
  rw [empty_iff last, lost_run_iff]
  exact and_iff_right rfl

end Running

end Programs

end Cpptrace.CTrace.Ownership
