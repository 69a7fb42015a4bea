import Cpptrace.CTrace.Print

/-! Resolving an object trace, through the C interface and through the C++ one.

The loader of the running process and the resolver of object frames are parameters.
The C interface asks the loader again where the addresses of a trace belong.
-/

set_option autoImplicit false

namespace Cpptrace.CTrace

structure CtraceObjectFrame where
  rawAddress : FramePtr
  objAddress : FramePtr
  objPath : Text
  deriving DecidableEq, Repr

/-- What a trace is resolved with: `get_frame_object_info`, `resolve_frames` for object frames,
`demangle`, and whether exceptions are absorbed. -/
structure Environment where
  getFrameObjectInfo : FramePtr → ObjectFrame
  resolveFrames : List ObjectFrame → Except Exception (List StacktraceFrame)
  demangle : Text → Text
  absorb : Bool

section Conversions

def objectFrame (frame : CtraceObjectFrame) : ObjectFrame := ⟨frame.rawAddress, frame.objAddress, frame.objPath⟩

def valueOr (value : Nullable) (other : UInt32) : UInt32 := if value.hasValue then value.rawValue else other

def cFrame (frame : StacktraceFrame) : CtraceStacktraceFrame where
  rawAddress := frame.rawAddress
  objectAddress := frame.objectAddress
  line := valueOr frame.line invalidPos
  column := valueOr frame.column invalidPos
  filename := frame.filename
  symbol := frame.symbol
  isInline := if frame.isInline then 1 else 0

end Conversions

section Resolving

variable (environment : Environment)

def withDemangled (frame : StacktraceFrame) : StacktraceFrame :=
  { frame with symbol := environment.demangle frame.symbol }

/-- `convert_stacktrace_frame`, from C++ to C. -/
def cConvertFrame (frame : StacktraceFrame) : CtraceStacktraceFrame := cFrame (withDemangled environment frame)

def cConvert (trace : List StacktraceFrame) : List CtraceStacktraceFrame := trace.map (cConvertFrame environment)

def resolveRawFrames (frames : List FramePtr) : Except Exception (List StacktraceFrame) :=
  environment.resolveFrames (frames.map environment.getFrameObjectInfo)

/-- `ctrace_resolve_object_trace`. A null pointer to frames is no trace, and so is a trace of null. -/
def ctraceResolveObjectTrace : Option (List CtraceObjectFrame) → Option (List CtraceStacktraceFrame)
  | none => none
  | some frames =>
      match resolveRawFrames environment (frames.map CtraceObjectFrame.rawAddress) with
      | .ok resolved => some (cConvert environment resolved)
      | .error _ => none

def objectTraceResolve (frames : List ObjectFrame) : Except Exception (List StacktraceFrame) :=
  match environment.resolveFrames frames with
  | .ok trace => .ok (trace.map (withDemangled environment))
  | .error exception => if environment.absorb then .ok [] else .error exception

end Resolving

section Agreement

variable (environment : Environment)

/-- The frames that C gives for a trace are the frames that C++ gives for it. Of an exception that is not
absorbed C tells nothing. -/
def ResolvesAlike (trace : Option (List CtraceObjectFrame)) : Prop :=
  match trace with
  | none => ctraceResolveObjectTrace environment none = none
  | some frames =>
      ∀ resolved, objectTraceResolve environment (frames.map objectFrame) = .ok resolved →
        (ctraceResolveObjectTrace environment (some frames)).getD [] = resolved.map cFrame

/-- The loader has every frame of a trace as it is stored. -/
def Stored (getFrameObjectInfo : FramePtr → ObjectFrame) (trace : Option (List CtraceObjectFrame)) : Prop :=
  ∀ frames, trace = some frames → ∀ frame ∈ frames, getFrameObjectInfo frame.rawAddress = objectFrame frame

theorem resolvesAlike_of_stored (trace : Option (List CtraceObjectFrame))
    (stored : Stored environment.getFrameObjectInfo trace) : ResolvesAlike environment trace := by
  cases trace with
  | none => rfl
  | some frames =>
    have same : (frames.map CtraceObjectFrame.rawAddress).map environment.getFrameObjectInfo =
        frames.map objectFrame := by
      rw [List.map_map]
      exact List.map_congr_left (stored frames rfl)
    intro resolved known
    rw [ctraceResolveObjectTrace, resolveRawFrames, same]
    rw [objectTraceResolve] at known
    cases outcome : environment.resolveFrames (frames.map objectFrame) with
    | ok trace =>
      rw [outcome] at known
      obtain rfl := Except.ok.inj known
      simp [cConvert, cConvertFrame]
    | error exception =>
      rw [outcome] at known
      cases absorbed : environment.absorb with
      | true =>
        obtain rfl : [] = resolved := by simpa [absorbed] using known
        rfl
      | false => simp [absorbed] at known

/-- A resolver that shows in its frames what it was asked for. -/
def showing (frames : List ObjectFrame) : Except Exception (List StacktraceFrame) :=
  .ok (frames.map fun frame => ⟨frame.rawAddress, frame.objectAddress, .null, .null, frame.objectPath, [], false⟩)

theorem stored_of_showing (frames : List CtraceObjectFrame) (shows : environment.resolveFrames = showing)
    (alike : ResolvesAlike environment (some frames)) : Stored environment.getFrameObjectInfo (some frames) := by
  have same := alike _ (by rw [objectTraceResolve, shows, showing])
  rw [ctraceResolveObjectTrace, resolveRawFrames, shows, showing] at same
  simp only [Option.getD_some, cConvert, List.map_map, List.map_inj_left, Function.comp_apply] at same
  rintro _ ⟨⟩ frame member
  have parts := same frame member
  simp only [cConvertFrame, withDemangled, cFrame, CtraceStacktraceFrame.mk.injEq] at parts
  obtain ⟨rawAddress, objectAddress, -, -, path, -⟩ := parts
  cases found : environment.getFrameObjectInfo frame.rawAddress with
  | mk raw object path' =>
    rw [found] at rawAddress objectAddress path
    rw [objectFrame, ObjectFrame.mk.injEq]
    exact ⟨rawAddress, objectAddress, path⟩

end Agreement

/-- Both interfaces give the same for a trace, whatever resolver there is, just where the loader has every
frame of it as it is stored. -/
theorem resolvesAlike_iff (getFrameObjectInfo : FramePtr → ObjectFrame) (demangle : Text → Text) (absorb : Bool)
    (trace : Option (List CtraceObjectFrame)) :
    (∀ resolveFrames, ResolvesAlike ⟨getFrameObjectInfo, resolveFrames, demangle, absorb⟩ trace) ↔
      Stored getFrameObjectInfo trace := by
  constructor
  · intro alike
    cases trace with
    | none => exact nofun
    | some frames => exact stored_of_showing ⟨getFrameObjectInfo, showing, demangle, absorb⟩ frames rfl (alike showing)
  · intro stored resolveFrames
    exact resolvesAlike_of_stored _ trace stored

/-- A trace from another process, resolved where its address belongs to no object. -/
theorem resolvesAlike_fails :
    ¬ ResolvesAlike ⟨fun address => ⟨address, 0, []⟩, showing, id, true⟩
      (some [⟨0x7f0000001000, 0x1000, "/usr/bin/other".toList⟩]) := by
  intro alike
  have stored := stored_of_showing _ _ rfl alike _ rfl _ (List.mem_singleton_self _)
  revert stored
  decide

end Cpptrace.CTrace
