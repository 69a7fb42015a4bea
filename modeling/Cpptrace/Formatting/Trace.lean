import Cpptrace.Formatting.Frame
import Cpptrace.Library.Joined

/-! `formatter::format` of a trace.

The frames are written one after the other. Whether a newline follows a frame is
decided from its place in the trace, before it is known what comes of the frames
after it.
-/

set_option autoImplicit false

namespace Cpptrace.Formatting

open Cpptrace.Library

/-- `n_digits`, on the value of an `unsigned`. -/
def nDigits (value : Nat) : Nat :=
  if value < 10 then 1 else 1 + nDigits (value / 10)

section

variable (renderers : Renderers) (options : Options)

def isExceptionMachinery (frame : StacktraceFrame) : Bool :=
  frame.symbol == "__cxa_throw".toList || frame.symbol == "CxxThrowException".toList
    || frame.symbol == "_CxxThrowException".toList

def getTraceStart (frames : List StacktraceFrame) : Nat :=
  if options.hideExceptionMachinery then
    match frames.findIdx? isExceptionMachinery with
    | some index => index + 1
    | none => 0
  else 0

def frameNumberWidth (frames : List StacktraceFrame) : Nat :=
  nDigits (UInt32.ofNat frames.length - 1).toNat

def writeFrameNumber (width counter : Nat) : Text × Nat :=
  ("#".toList ++ alignLeft width (Nat.toDigits 10 counter) ++ " ".toList, 2 + width)

def transformed (index : Nat) (frame : StacktraceFrame) : StacktraceFrame :=
  match options.transform with
  | some transform => transform index frame
  | none => frame

def isFilteredOut (index : Nat) (frame : StacktraceFrame) : Bool :=
  match options.filter with
  | some filter => !filter index (transformed options index frame)
  | none => false

def isHidden (index : Nat) (frame : StacktraceFrame) : Bool :=
  isFilteredOut options index frame && !options.showFilteredFrames

def writeSnippet (frame : StacktraceFrame) (color : Bool) : Text :=
  if frame.line.hasValue && !frame.filename.isEmpty && options.snippets then
    let snippet := renderers.getSnippet frame.filename frame.line.rawValue frame.column options.contextLines color
    if snippet.isEmpty then [] else '\n' :: snippet
  else []

def rendering (color : Bool) (width counter index : Nat) (frame : StacktraceFrame) : Text :=
  let (number, filenameIndent) := writeFrameNumber width counter
  number ++
    if isFilteredOut options index frame then "(filtered)".toList
    else
      writeFrame renderers options (transformed options index frame) color filenameIndent
        ++ writeSnippet renderers options (transformed options index frame) color

/-- The loop over the frames: the last argument holds those from index `i` on. -/
def writeFrames (color : Bool) (size width : Nat) : Nat → Nat → List StacktraceFrame → Text
  | _, _, [] => []
  | i, counter, frame :: rest =>
      if isHidden options i frame then writeFrames color size width (i + 1) (counter + 1) rest
      else
        rendering renderers options color width counter i frame
          ++ (if i + 1 ≠ size then "\n".toList else [])
          ++ writeFrames color size width (i + 1) (counter + 1) rest

def writeHeader : Text :=
  if options.header.isEmpty then [] else options.header ++ "\n".toList

def writeTrace (frames : List StacktraceFrame) (color : Bool) : Text :=
  writeHeader options ++
    if frames.isEmpty then "<empty trace>".toList
    else
      writeFrames renderers options color frames.length (frameNumberWidth frames)
        (getTraceStart options frames) 0 (frames.drop (getTraceStart options frames))

/-- `format` of a trace, with the color argument of the overload that has one. -/
def format (frames : List StacktraceFrame) (color : Option Bool) : Text :=
  writeTrace renderers options frames
    (shouldDoColor options (some (color.getD (options.color == .always))))

/-- What comes of each frame from `getTraceStart` on: nothing for a hidden one. -/
def entryOf (color : Bool) (width start : Nat) (entry : StacktraceFrame × Nat) : Option Text :=
  if isHidden options entry.2 entry.1 then none
  else some (rendering renderers options color width (entry.2 - start) entry.2 entry.1)

def traceEntries (frames : List StacktraceFrame) (color : Bool) : List (Option Text) :=
  (frames.zipIdx.drop (getTraceStart options frames)).map
    (entryOf renderers options color (frameNumberWidth frames) (getTraceStart options frames))

/-- The format the code aims at: the renderings, joined by newlines. -/
def joinedTrace (frames : List StacktraceFrame) (color : Bool) : Text :=
  writeHeader options ++
    if frames.isEmpty then "<empty trace>".toList
    else List.intercalate "\n".toList (traceEntries renderers options frames color).reduceOption

theorem writeFrames_eq (color : Bool) (size width start i : Nat) (rest : List StacktraceFrame)
    (started : start ≤ i) (sized : i + rest.length = size) :
    writeFrames renderers options color size width i (i - start) rest =
      writeSeparated "\n".toList ((rest.zipIdx i).map (entryOf renderers options color width start)) := by
  induction rest generalizing i with
  | nil => rfl
  | cons frame rest ih =>
    have next : i + 1 - start = i - start + 1 := by omega
    have tail := ih (i + 1) (by omega) (by rw [List.length_cons] at sized; omega)
    rw [next] at tail
    -- the test for a newline counts the hidden frames too
    have last : i + 1 ≠ size ↔ rest ≠ [] := by
      rw [List.length_cons] at sized
      rw [← List.length_pos_iff_ne_nil]
      omega
    simp only [writeFrames, tail, List.zipIdx_cons, List.map_cons, entryOf, last]
    split
    · rfl
    · cases rest <;> simp [writeSeparated]

theorem getTraceStart_le (frames : List StacktraceFrame) : getTraceStart options frames ≤ frames.length := by
  rw [getTraceStart]
  split
  · split
    next found => exact (List.findIdx?_eq_some_iff_getElem.mp found).1
    next => exact Nat.zero_le _
  · exact Nat.zero_le _

theorem writeTrace_eq (frames : List StacktraceFrame) (color : Bool) :
    writeTrace renderers options frames color =
      writeHeader options ++
        if frames.isEmpty then "<empty trace>".toList
        else writeSeparated "\n".toList (traceEntries renderers options frames color) := by
  have bound := getTraceStart_le options frames
  have written := writeFrames_eq renderers options color frames.length (frameNumberWidth frames)
    (getTraceStart options frames) (getTraceStart options frames)
    (frames.drop (getTraceStart options frames)) (Nat.le_refl _) (by rw [List.length_drop]; omega)
  rw [Nat.sub_self] at written
  have suffix : frames.zipIdx.drop (getTraceStart options frames) =
      (frames.drop (getTraceStart options frames)).zipIdx (getTraceStart options frames) := by
    refine List.ext_getElem? fun index => ?_
    simp [List.getElem?_zipIdx]
  rw [writeTrace, written, traceEntries, suffix]

/-- A newline is followed by a frame: the last frame is written, or no frame is. -/
def EndsWithFrame (frames : List StacktraceFrame) : Prop :=
  (∀ frame, frames.getLast? = some frame → isHidden options (frames.length - 1) frame = false) ∨
  ∀ index frame, getTraceStart options frames ≤ index → frames[index]? = some frame →
    isHidden options index frame = true

theorem traceEntries_getElem? (frames : List StacktraceFrame) (color : Bool) (counter : Nat) :
    (traceEntries renderers options frames color)[counter]? =
      frames[getTraceStart options frames + counter]?.map fun frame =>
        entryOf renderers options color (frameNumberWidth frames) (getTraceStart options frames)
          (frame, getTraceStart options frames + counter) := by
  simp only [traceEntries, List.getElem?_map, List.getElem?_drop, List.getElem?_zipIdx, Option.map_map,
    Nat.zero_add]
  rfl

theorem entryOf_eq_none_iff (color : Bool) (width start : Nat) (entry : StacktraceFrame × Nat) :
    entryOf renderers options color width start entry = none ↔ isHidden options entry.2 entry.1 = true := by
  rw [entryOf]
  split <;> simp_all

theorem traceEntries_nothing_iff (frames : List StacktraceFrame) (color : Bool) :
    (traceEntries renderers options frames color).reduceOption = [] ↔
      ∀ index frame, getTraceStart options frames ≤ index → frames[index]? = some frame →
        isHidden options index frame = true := by
  have listed : (traceEntries renderers options frames color).reduceOption = [] ↔
      ∀ entry ∈ traceEntries renderers options frames color, entry = none := by
    rw [List.reduceOption_eq_nil_iff]
    exact ⟨fun ⟨_, all⟩ entry member => (List.mem_replicate.mp (all ▸ member)).2,
      fun all => ⟨_, List.eq_replicate_of_mem all⟩⟩
  rw [listed]
  constructor
  · intro all index frame from_start found
    obtain ⟨counter, rfl⟩ := Nat.exists_eq_add_of_le from_start
    have there := traceEntries_getElem? renderers options frames color counter
    rw [found, Option.map_some] at there
    exact (entryOf_eq_none_iff renderers options color _ _ _).mp (all _ (List.mem_of_getElem? there))
  · intro hidden entry member
    obtain ⟨counter, there⟩ := List.mem_iff_getElem?.mp member
    rw [traceEntries_getElem?] at there
    obtain ⟨frame, found, rfl⟩ := Option.map_eq_some_iff.mp there
    exact (entryOf_eq_none_iff ..).mpr (hidden _ frame (Nat.le_add_right _ _) found)

theorem traceEntries_length (frames : List StacktraceFrame) (color : Bool) :
    (traceEntries renderers options frames color).length = frames.length - getTraceStart options frames := by
  simp [traceEntries]

theorem dangling_iff (frames : List StacktraceFrame) (color : Bool) :
    Dangling (traceEntries renderers options frames color) ↔ ¬ EndsWithFrame options frames := by
  rw [Dangling, EndsWithFrame, not_or, ← traceEntries_nothing_iff renderers options frames color]
  -- both sides say that some frame is written; what is left is about the last one
  refine and_congr_left fun something => ?_
  have bound := getTraceStart_le options frames
  have nonempty : traceEntries renderers options frames color ≠ [] := fun empty => something (by simp [empty])
  have longer := List.length_pos_iff_ne_nil.mpr nonempty
  rw [traceEntries_length] at longer
  have place : getTraceStart options frames + (frames.length - getTraceStart options frames - 1) =
      frames.length - 1 := by omega
  rw [List.getLast?_eq_getElem?, List.getLast?_eq_getElem?, traceEntries_length, traceEntries_getElem?, place]
  have inside : frames.length - 1 < frames.length := by omega
  rw [List.getElem?_eq_getElem inside, Option.map_some, Option.some.injEq, entryOf_eq_none_iff]
  simp

/-- A formatted trace is its header and the renderings of its frames joined by
newlines, exactly when it does not end in hidden frames after a written one. -/
theorem format_joined_iff (frames : List StacktraceFrame) (color : Option Bool) :
    format renderers options frames color =
        joinedTrace renderers options frames (shouldDoColor options (some (color.getD (options.color == .always)))) ↔
      EndsWithFrame options frames := by
  rw [format, writeTrace_eq, joinedTrace, List.append_cancel_left_eq]
  cases frames with
  | nil => simp [EndsWithFrame]
  | cons frame rest =>
    rw [List.isEmpty_cons, if_neg (by decide), if_neg (by decide),
      writeSeparated_eq_intercalate_iff _ (by decide), dangling_iff, not_not]

end

def bareFrame (symbol : String) : StacktraceFrame :=
  ⟨1, 1, .null, .null, [], symbol.toList, false⟩

def plainRenderers : Renderers := ⟨id, id, fun _ _ _ _ _ => []⟩

def onlyFrames (symbol : String) : Options :=
  { header := [], addresses := .none, showFilteredFrames := false,
    filter := some fun _ frame => frame.symbol == symbol.toList }

/-- Hiding the last frame leaves a newline at the end. -/
theorem format_joined_fails :
    format plainRenderers (onlyFrames "f") [bareFrame "f", bareFrame "main"] none = "#0 in f\n".toList ∧
    joinedTrace plainRenderers (onlyFrames "f") [bareFrame "f", bareFrame "main"] false = "#0 in f".toList := by
  have width : frameNumberWidth [bareFrame "f", bareFrame "main"] = 1 := by
    simp [frameNumberWidth, nDigits]
  simp only [format, writeTrace, joinedTrace, traceEntries, width]
  decide

end Cpptrace.Formatting
