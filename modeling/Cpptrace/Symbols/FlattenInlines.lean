import Cpptrace.Basic
import Mathlib.Data.List.Induction

/-! Flattening a resolved trace.

Each call's inlines go in front of it, innermost first, and the line
information of the block is turned by one: DWARF keeps the call site of an
inlined function with the function, and a trace shows it with the caller.
-/

set_option autoImplicit false

namespace Cpptrace.Symbols

def withLineInfo (frame source : StacktraceFrame) : StacktraceFrame :=
  { frame with line := source.line, column := source.column, filename := source.filename }

/-- Each frame takes the line information of the one before it, the first that of `carry`. -/
def rotateLineInfo (carry : StacktraceFrame) : List StacktraceFrame → List StacktraceFrame
  | [] => []
  | frame :: rest => withLineInfo frame carry :: rotateLineInfo frame rest

def flattenEntry (entry : FrameWithInlines) : List StacktraceFrame :=
  if entry.inlines.isEmpty then [entry.frame]
  else rotateLineInfo entry.frame (entry.inlines.reverse ++ [entry.frame])

def flattenInlines (trace : List FrameWithInlines) : List StacktraceFrame :=
  trace.flatMap flattenEntry

def callAddresses (frames : List StacktraceFrame) : List FramePtr :=
  (frames.filter fun frame => !frame.isInline).map StacktraceFrame.rawAddress

theorem callAddresses_append (frames others : List StacktraceFrame) :
    callAddresses (frames ++ others) = callAddresses frames ++ callAddresses others := by
  simp [callAddresses]

theorem callAddresses_rotateLineInfo (carry : StacktraceFrame) (frames : List StacktraceFrame) :
    callAddresses (rotateLineInfo carry frames) = callAddresses frames := by
  induction frames generalizing carry with
  | nil => rfl
  | cons frame rest ih =>
    have turned := ih frame
    simp only [callAddresses, rotateLineInfo, List.filter_cons, withLineInfo] at turned ⊢
    split <;> simp [turned]

theorem callAddresses_inlines (inlines : List StacktraceFrame)
    (marked : ∀ inline ∈ inlines, inline.isInline = true) : callAddresses inlines = [] := by
  simp only [callAddresses, List.map_eq_nil_iff, List.filter_eq_nil_iff]
  intro inline member
  simp [marked inline member]

structure Marked (entry : FrameWithInlines) : Prop where
  call : entry.frame.isInline = false
  inlined : ∀ inline ∈ entry.inlines, inline.isInline = true

theorem callAddresses_flattenEntry (entry : FrameWithInlines) (marked : Marked entry) :
    callAddresses (flattenEntry entry) = [entry.frame.rawAddress] := by
  have alone : callAddresses [entry.frame] = [entry.frame.rawAddress] := by
    simp [callAddresses, marked.call]
  rw [flattenEntry]
  split
  · exact alone
  · have hidden := callAddresses_inlines entry.inlines.reverse fun inline member =>
      marked.inlined inline (List.mem_reverse.mp member)
    rw [callAddresses_rotateLineInfo, callAddresses_append, hidden, alone, List.nil_append]

theorem callAddresses_flattenInlines (trace : List FrameWithInlines)
    (marked : ∀ entry ∈ trace, Marked entry) :
    callAddresses (flattenInlines trace) = trace.map fun entry => entry.frame.rawAddress := by
  induction trace with
  | nil => rfl
  | cons entry rest ih =>
    have first := callAddresses_flattenEntry entry (marked entry List.mem_cons_self)
    have others := ih fun entry member => marked entry (List.mem_cons_of_mem _ member)
    rw [flattenInlines] at others
    rw [flattenInlines, List.flatMap_cons, callAddresses_append, first, others]
    rfl

section InPlace

variable (movedFrom : Text → Text)

/-- The loop of `flatten_inlines` from `it` down to the start of the block. A string that is moved
from keeps some other value. There is no result where an iterator leaves the vector. -/
def shiftLineInfo (start : Nat) : (it : Nat) → List StacktraceFrame → Option (List StacktraceFrame)
  | 0, frames => if start = 0 then some frames else none
  | it + 1, frames =>
      if it + 1 = start then some frames
      else do
        let frame ← frames[it + 1]?
        let previous ← frames[it]?
        shiftLineInfo start it ((frames.set (it + 1) (withLineInfo frame previous)).set it
          { previous with filename := movedFrom previous.filename })

/-- What stands behind the loop: the line information of the last frame goes to the first. -/
def closeRotation (start : Nat) (carry : StacktraceFrame) (frames : List StacktraceFrame) :
    Option (List StacktraceFrame) := do
  let first ← frames[start]?
  return frames.set start (withLineInfo first carry)

/-- The rotation of the block that a call and its inlines make at the end of the trace. -/
def rotateInPlace (inlines : Nat) (frames : List StacktraceFrame) : Option (List StacktraceFrame) := do
  let start := frames.length - (1 + inlines)
  let last := frames.length - 1
  let carry ← frames[last]?
  let shifted ← shiftLineInfo movedFrom start last (frames.set last { carry with filename := movedFrom carry.filename })
  closeRotation start carry shifted

/-- One turn of the outer loop of `flatten_inlines`. -/
def pushEntry (finalTrace : List StacktraceFrame) (entry : FrameWithInlines) : Option (List StacktraceFrame) :=
  let frames := finalTrace ++ (entry.inlines.reverse ++ [entry.frame])
  if entry.inlines.isEmpty then some frames else rotateInPlace movedFrom entry.inlines.length frames

def flattenInlinesFrom : (finalTrace : List StacktraceFrame) → List FrameWithInlines → Option (List StacktraceFrame)
  | finalTrace, [] => some finalTrace
  | finalTrace, entry :: rest => do
      let finalTrace ← pushEntry movedFrom finalTrace entry
      flattenInlinesFrom finalTrace rest

def flattenInlinesInPlace (trace : List FrameWithInlines) : Option (List StacktraceFrame) :=
  flattenInlinesFrom movedFrom [] trace

end InPlace

theorem rotateLineInfo_concat (carry : StacktraceFrame) (frames : List StacktraceFrame) (last : StacktraceFrame) :
    rotateLineInfo carry (frames ++ [last]) =
      rotateLineInfo carry frames ++ [withLineInfo last (frames.getLastD carry)] := by
  induction frames generalizing carry with
  | nil => rfl
  | cons frame rest ih =>
    rw [List.cons_append, rotateLineInfo, ih frame, rotateLineInfo, List.cons_append, List.getLastD_cons]

theorem getElem?_at (front : List StacktraceFrame) (frame : StacktraceFrame) (behind : List StacktraceFrame) {i : Nat}
    (position : i = front.length) : (front ++ frame :: behind)[i]? = some frame := by
  subst position
  simp

theorem set_at (front : List StacktraceFrame) (frame other : StacktraceFrame) (behind : List StacktraceFrame) {i : Nat}
    (position : i = front.length) : (front ++ frame :: behind).set i other = front ++ other :: behind := by
  subst position
  simp

section InPlace

variable (movedFrom : Text → Text) (front : List StacktraceFrame) (carry : StacktraceFrame)

theorem shiftLineInfo_start (frames : List StacktraceFrame) (start : Nat) :
    shiftLineInfo movedFrom start start frames = some frames := by
  cases start with
  | zero => exact if_pos rfl
  | succ start => exact if_pos rfl

theorem shiftLineInfo_turn (frames : List StacktraceFrame) (previous frame : StacktraceFrame)
    (done : List StacktraceFrame) :
    shiftLineInfo movedFrom front.length (front.length + frames.length + 1)
      (front ++ frames ++ previous :: frame :: done) =
      shiftLineInfo movedFrom front.length (front.length + frames.length)
        (front ++ frames ++ { previous with filename := movedFrom previous.filename } :: withLineInfo frame previous
          :: done) := by
  have position : front.length + frames.length = (front ++ frames).length := List.length_append.symm
  have next : front.length + frames.length + 1 = (front ++ frames ++ [previous]).length := by simp; omega
  have split (before frame : StacktraceFrame) : front ++ frames ++ before :: frame :: done =
      front ++ frames ++ [before] ++ frame :: done := by simp
  rw [shiftLineInfo, if_neg (by omega), getElem?_at _ previous _ position, split, getElem?_at _ frame done next]
  show shiftLineInfo movedFrom front.length (front.length + frames.length) _ = _
  rw [set_at _ frame _ done next, ← split, set_at _ previous _ _ position]

/-- The induction goes down from the end. The frame at `it` has given its line information away, and
the frames behind it are done. -/
theorem shiftLineInfo_rotates (frames : List StacktraceFrame) (frame : StacktraceFrame) (done : List StacktraceFrame) :
    (shiftLineInfo movedFrom front.length (front.length + frames.length) (front ++ frames ++ frame :: done)).bind
        (closeRotation front.length carry) =
      some (front ++ (rotateLineInfo carry (frames ++ [frame]) ++ done)) := by
  induction frames using List.reverseRecOn generalizing frame done with
  | nil =>
    rw [List.append_nil, List.length_nil, Nat.add_zero, shiftLineInfo_start, Option.bind_some, closeRotation,
      getElem?_at front frame done rfl]
    show some ((front ++ frame :: done).set front.length (withLineInfo frame carry)) = _
    rw [set_at front frame _ done rfl]
    rfl
  | append_singleton frames previous ih =>
    have shape : front ++ (frames ++ [previous]) ++ frame :: done = front ++ frames ++ previous :: frame :: done := by
      simp
    rw [List.length_append, List.length_singleton, ← Nat.add_assoc, shape, shiftLineInfo_turn, ih,
      rotateLineInfo_concat, rotateLineInfo_concat, rotateLineInfo_concat, List.getLastD_concat]
    simp [withLineInfo]

theorem rotateInPlace_eq (inlines : List StacktraceFrame) (frame : StacktraceFrame) :
    rotateInPlace movedFrom inlines.length (front ++ (inlines.reverse ++ [frame])) =
      some (front ++ rotateLineInfo frame (inlines.reverse ++ [frame])) := by
  have shape : front ++ (inlines.reverse ++ [frame]) = front ++ inlines.reverse ++ frame :: [] := by simp
  have start : (front ++ (inlines.reverse ++ [frame])).length - (1 + inlines.length) = front.length := by simp; omega
  have last : (front ++ (inlines.reverse ++ [frame])).length - 1 = front.length + inlines.reverse.length := by simp
  have position : front.length + inlines.reverse.length = (front ++ inlines.reverse).length := List.length_append.symm
  have turned := shiftLineInfo_rotates movedFrom front frame inlines.reverse
      { frame with filename := movedFrom frame.filename } []
  rw [rotateInPlace, start, last, shape, getElem?_at _ frame [] position]
  show (shiftLineInfo movedFrom front.length (front.length + inlines.reverse.length) _).bind
    (closeRotation front.length frame) = _
  rw [set_at _ frame _ [] position, turned, rotateLineInfo_concat, rotateLineInfo_concat, List.append_nil]
  rfl

theorem pushEntry_eq (finalTrace : List StacktraceFrame) (entry : FrameWithInlines) :
    pushEntry movedFrom finalTrace entry = some (finalTrace ++ flattenEntry entry) := by
  rw [pushEntry, flattenEntry, rotateInPlace_eq]
  split
  next none =>
    rw [List.isEmpty_iff.mp none]
    rfl
  next => rfl

theorem flattenInlinesFrom_eq (finalTrace : List StacktraceFrame) (trace : List FrameWithInlines) :
    flattenInlinesFrom movedFrom finalTrace trace = some (finalTrace ++ flattenInlines trace) := by
  induction trace generalizing finalTrace with
  | nil => rw [flattenInlinesFrom, flattenInlines, List.flatMap_nil, List.append_nil]
  | cons entry rest ih =>
    rw [flattenInlinesFrom, pushEntry_eq]
    show flattenInlinesFrom movedFrom (finalTrace ++ flattenEntry entry) rest = _
    rw [ih, flattenInlines, flattenInlines, List.flatMap_cons, List.append_assoc]

end InPlace

/-- A call behind its inlines, the innermost first. -/
def blockOf (entry : FrameWithInlines) : List StacktraceFrame := entry.inlines.reverse ++ [entry.frame]

def lineInfo (frame : StacktraceFrame) : Nullable × Nullable × Text := (frame.line, frame.column, frame.filename)

def rotated (block : List StacktraceFrame) : List StacktraceFrame := List.zipWith withLineInfo block block.rotateRight

theorem rotateLineInfo_eq_zipWith (carry : StacktraceFrame) (frames : List StacktraceFrame) (last : StacktraceFrame) :
    rotateLineInfo carry (frames ++ [last]) = List.zipWith withLineInfo (frames ++ [last]) (carry :: frames) := by
  induction frames generalizing carry with
  | nil => rfl
  | cons frame rest ih => rw [List.cons_append, rotateLineInfo, ih frame, List.zipWith_cons_cons]

theorem map_lineInfo_rotateLineInfo (carry : StacktraceFrame) (frames : List StacktraceFrame) (last : StacktraceFrame) :
    (rotateLineInfo carry (frames ++ [last])).map lineInfo = (carry :: frames).map lineInfo := by
  induction frames generalizing carry with
  | nil => rfl
  | cons frame rest ih =>
    rw [List.cons_append, rotateLineInfo, List.map_cons, ih frame, List.map_cons]
    rfl

theorem rotateRight_concat (frames : List StacktraceFrame) (last : StacktraceFrame) :
    (frames ++ [last]).rotateRight = last :: frames := by
  cases frames with
  | nil => rfl
  | cons frame rest =>
    have long : ¬ (frame :: rest ++ [last]).length ≤ 1 := by simp
    have split : (frame :: rest ++ [last]).length - 1 % (frame :: rest ++ [last]).length = (frame :: rest).length := by
      rw [Nat.mod_eq_of_lt (by omega)]
      simp
    rw [List.rotateRight]
    simp only [long, if_false, split]
    rw [List.drop_left, List.take_left]
    rfl

theorem flattenEntry_eq (entry : FrameWithInlines) :
    flattenEntry entry = rotateLineInfo entry.frame (entry.inlines.reverse ++ [entry.frame]) := by
  rw [flattenEntry]
  split
  next none =>
    rw [List.isEmpty_iff.mp none]
    rfl
  next => rfl

theorem flattenEntry_rotated (entry : FrameWithInlines) : flattenEntry entry = rotated (blockOf entry) := by
  rw [flattenEntry_eq, rotateLineInfo_eq_zipWith, rotated, blockOf, rotateRight_concat]

theorem map_lineInfo_flattenEntry (entry : FrameWithInlines) :
    ((flattenEntry entry).map lineInfo).Perm ((blockOf entry).map lineInfo) := by
  rw [flattenEntry_eq, map_lineInfo_rotateLineInfo]
  have turned : (entry.frame :: entry.inlines.reverse).Perm (blockOf entry) := (List.perm_append_singleton _ _).symm
  exact turned.map lineInfo

theorem map_lineInfo_flattenInlines (trace : List FrameWithInlines) :
    ((flattenInlines trace).map lineInfo).Perm ((trace.flatMap blockOf).map lineInfo) := by
  induction trace with
  | nil => exact .refl _
  | cons entry rest ih =>
    rw [flattenInlines] at ih ⊢
    rw [List.flatMap_cons, List.flatMap_cons, List.map_append, List.map_append]
    exact (map_lineInfo_flattenEntry entry).append ih

/-- The loops that work on the final trace in place stay inside it, whatever a moved string holds. They
give the blocks in the order of the entries, each turned by one, so that no line information is lost. -/
theorem flattenInlinesInPlace_rotates (movedFrom : Text → Text) (trace : List FrameWithInlines) :
    ∃ frames, flattenInlinesInPlace movedFrom trace = some frames ∧
      frames = trace.flatMap (fun entry => rotated (blockOf entry)) ∧
      (frames.map lineInfo).Perm ((trace.flatMap blockOf).map lineInfo) := by
  refine ⟨flattenInlines trace, flattenInlinesFrom_eq movedFrom [] trace, ?_, map_lineInfo_flattenInlines trace⟩
  rw [flattenInlines]
  congr 1
  funext entry
  exact flattenEntry_rotated entry

end Cpptrace.Symbols
